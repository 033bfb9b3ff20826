import Bundler.Proofs.Script.Body
import Mathlib.Data.List.Forall2

/-! Statements on lines of their own. A text stands for a statement when it is read as that statement
wherever it is put on lines of its own in a function; several such texts in a row, and a whole script
after them, are then the statements of one function. -/

namespace Bundler.Script

open Bundler.Script.Parser Bundler.Script.Grammar

theorem skipGap_length {opened : Bool} {rounds : Nat} {gap gap' : Gap} {text here : List Char}
    (h : skipGap opened rounds gap text = some (gap', here)) : here.length ≤ text.length := by
  induction rounds generalizing gap text with
  | zero =>
    cases h
    exact Nat.le_refl _
  | succ rounds ih =>
    unfold skipGap at h
    dsimp only at h
    split at h
    · exact Nat.le_trans (ih h) (by rw [List.length_drop]; omega)
    split at h
    · rename_i rest block
      split at h
      · cases h
      · rename_i inside left comment
        have marks := after?_length block
        have body := readBlockComment_length comment
        have later := ih h
        omega
    split at h
    · split at h
      · exact Nat.le_succ_of_le (ih h)
      split at h
      · exact Nat.le_succ_of_le (ih h)
      · cases h
        exact Nat.le_refl _
    · cases h
      exact Nat.le_refl _

theorem Cursor.start_length {text : List Char} {c : Cursor} (h : start text = .ok c) :
    c.here.length ≤ text.length := by
  rw [start, after] at h
  split at h
  · cases h
  · rename_i skipped
    split at h
    · cases h
    · cases h
      exact skipGap_length skipped

/-- A text is read as one statement of a function wherever it stands on lines of its own. -/
structure Stands (text : List Char) (n : Node) : Prop where
  reads : ∀ {later : List Char} {e : Cursor} {k : Nat}, Cursor.start later = .ok e →
    depthFor text.length ≤ k → ∃ c, Cursor.start (text ++ '\n' :: later) = .ok c ∧
      c.here = text ++ '\n' :: later ∧ Reads (deep k plain (.statement false)) c n e
  finished : n.isUnfinished = false

def onLines (texts : List (List Char)) (later : List Char) : List Char :=
  texts.foldr (fun text rest => text ++ '\n' :: rest) later

theorem stops_statement (k : Nat) : Stops (deep k plain (.statement false)) := by
  have quiet : Quiet ['\x7d', ')'] := Quiet.of_all (by decide)
  exact (deep_carries quiet (Nat.le_refl k)).stops plain (.statement false)

theorem reads_lines {texts : List (List Char)} {ns : List Node} (h : List.Forall₂ Stands texts ns)
    {later : List Char} {e : Cursor} (starts : Cursor.start later = .ok e) {k : Nat}
    (enough : ∀ text ∈ texts, depthFor text.length ≤ k) :
    ∃ c found, Cursor.start (onLines texts later) = .ok c ∧ Statements (deep k) c found e ∧
      found.map (·.2) = ns ∧ e.here.length + found.length ≤ c.here.length := by
  induction h with
  | nil => exact ⟨e, [], starts, .none e, rfl, Nat.le_refl _⟩
  | @cons text n texts ns stands _ ih =>
    obtain ⟨own, others⟩ := List.forall_mem_cons.mp enough
    obtain ⟨d, found, starts', statements, nodes, longer⟩ := ih others
    obtain ⟨c, first, whole, read⟩ := stands.reads starts' own
    have open_ : (c.token == .mark "\x7d") = false :=
      beq_false_of_ne fun brace => stops_statement k c (.inr brace) _ read
    refine ⟨c, (c.token, n) :: found, first, .one open_ read statements, by simp [nodes], ?_⟩
    have shorter := Cursor.start_length starts'
    rw [whole, List.length_append, List.length_cons, List.length_cons]
    change _ ≤ _ + ((onLines texts later).length + 1)
    omega

end Bundler.Script
