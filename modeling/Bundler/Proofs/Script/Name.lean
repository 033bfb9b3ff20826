import Bundler.Proofs.Binding
import Bundler.Script.Token

/-! The binding of a module is read as one name, which no word of the language is. -/

namespace Bundler.Script

theorem Token.readName_word {word : List Char} (more : List Char)
    (continues : ∀ c ∈ word, continuesName c = true) {rounds : Nat} (enough : word.length < rounds) :
    readName continuesName rounds (word ++ ' ' :: more) = some (word, false, ' ' :: more) := by
  induction word generalizing rounds with
  | nil =>
    obtain ⟨rounds, rfl⟩ : ∃ n, rounds = n + 1 := ⟨rounds - 1, by omega⟩
    rfl
  | cons c word ih =>
    obtain ⟨rounds, rfl⟩ : ∃ n, rounds = n + 1 := ⟨rounds - 1, by omega⟩
    have accepted := continues c List.mem_cons_self
    have plain : c ≠ '\\' := by
      rintro rfl
      exact absurd accepted (by decide)
    have shorter := ih (fun d mem => continues d (List.mem_cons_of_mem c mem))
      (Nat.lt_of_succ_lt_succ enough)
    rw [List.cons_append, readName]
    · rw [if_pos accepted, shorter]
      rfl
    · exact fun _ same _ => plain same
    · exact plain

end Bundler.Script

namespace Bundler.ContentId

open Script

theorem hexChars_continue (id : ContentId) : ∀ c ∈ id.hexChars, continuesName c = true := by
  have digits : "0123456789abcdef".toList.all continuesName = true := by decide
  exact fun c mem => List.all_eq_true.mp digits c (id.hexChars_digits c mem)

theorem binding_toList (id : ContentId) :
    id.binding.toList = ['r', 'e', 'q', 'u', 'i', 'r', 'e', '_'] ++ id.hexChars := by
  rw [binding, String.toList_append, hex, String.toList_ofList, String.toList_ofList]

theorem binding_unreserved (id : ContentId) : isReserved id.binding = false := by
  have others : ∀ word ∈ reservedWords,
      word.toList.take 8 ≠ ['r', 'e', 'q', 'u', 'i', 'r', 'e', '_'] := by
    simp [reservedWords]
  rw [isReserved, List.contains_eq_mem, decide_eq_false_iff_not]
  intro mem
  exact others _ mem (by rw [binding_toList]; rfl)

theorem binding_spelled (id : ContentId) :
    ∃ tail, id.binding.toList = 'r' :: tail ∧ ∀ c ∈ tail, continuesName c = true := by
  refine ⟨['e', 'q', 'u', 'i', 'r', 'e', '_'] ++ id.hexChars, id.binding_toList, fun c mem => ?_⟩
  rcases List.mem_append.mp mem with mem | mem
  · have letters : ['e', 'q', 'u', 'i', 'r', 'e', '_'].all continuesName = true := by
      decide +kernel
    exact List.all_eq_true.mp letters c mem
  · exact id.hexChars_continue c mem

theorem read_binding (id : ContentId) (more : List Char) :
    Token.read (id.binding.toList ++ ' ' :: more) = some (.name id.binding false, ' ' :: more) := by
  obtain ⟨tail, spelled, continues⟩ := id.binding_spelled
  have longer : tail.length < (tail ++ ' ' :: more).length + 1 := by
    rw [List.length_append]
    omega
  have word := Token.readName_word more continues longer
  have name : Token.readName startsName ((tail ++ ' ' :: more).length + 2) ('r' :: (tail ++ ' ' :: more)) =
      some ('r' :: tail, false, ' ' :: more) := by
    change (Token.readName continuesName _ _).map _ = _
    rw [word]
    rfl
  rw [spelled, List.cons_append]
  rw [Token.read, if_neg (by decide), if_neg (by decide), if_neg (by decide), if_neg (by simp),
    if_neg (by decide), if_pos (by decide +kernel), List.length_cons, name]
  dsimp only
  rw [← spelled, String.ofList_toList]

end Bundler.ContentId
