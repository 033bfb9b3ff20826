import Bundler.Proofs.Containment
import Bundler.Proofs.Script.Lines

/-! How a module that runs anew is written in a bundle, one statement to a line. As before it was
written, the text is one declaration around the body of the module's own function. -/

namespace Bundler.Wrapper

open Script Script.Parser Script.Grammar

variable {m k : Nat} {inner d : Cursor} {items : List Node} {rest last : List Char}

def calledLayout (last : List Char) : List Char :=
  "(module, module.exports);".toList ++ ("\n\treturn module.exports;\n\x7d".toList ++ last)

def inside (rest : List Char) : List Char :=
  "const".toList ++ (" module = \x7b exports: \x7b\x7d \x7d;\n\t(".toList ++
    ("function".toList ++ ("(module, exports) \x7b\n".toList ++ rest)))

def anewLayout (rest : List Char) : List Char := "() \x7b\n\t".toList ++ inside rest

def layoutEnd : List Char := ")".toList ++ ";\n".toList

def layout (id : ContentId) (body : List Char) : List Char :=
  "const".toList ++ (' ' :: (id.binding.toList ++ ' ' :: ("= (".toList ++ ("function".toList ++
    anewLayout (body ++ '\x7d' :: ')' :: calledLayout layoutEnd)))))

theorem reads_const_layout :
    Reads (deep (m + 20) plain (.statement false))
      (.onWord "const" (" module = \x7b exports: \x7b\x7d \x7d;\n\t(".toList ++ rest) true)
      (.of (.declare .const) [.of .declarator [variable_ "module", fresh]])
      (.onMark "(" rest true) := by
  simp only [Cursor.onMark, Cursor.onWord, String.reduceToList, List.cons_append, List.nil_append]
  exact rfl

theorem reads_run_layout (h : Encloses (m + 10) rest inner d items (calledLayout last)) :
    Reads (deep (m + 20) plain (.statement false))
      (.onMark "(" ("function".toList ++ ("(module, exports) \x7b\n".toList ++ rest)) true)
      (run (.of (.body d.notes) items))
      (.onWord "return" (" module.exports;\n\x7d".toList ++ last) true) := by
  have word : Cursor.next (.mark "(") ("function".toList ++ ("(module, exports) \x7b\n".toList ++ rest)) =
      .ok (.onWord "function" ("(module, exports) \x7b\n".toList ++ rest) false) := by
    simp only [Cursor.onWord, String.reduceToList, List.cons_append, List.nil_append]
    rfl
  have paren : Cursor.next (.name "function" false) ("(module, exports) \x7b\n".toList ++ rest) =
      .ok (.onMark "(" ("module, exports) \x7b\n".toList ++ rest) false) := by
    simp only [Cursor.onMark, String.reduceToList, List.cons_append, List.nil_append]
    rfl
  refine reads_run word rfl (by simp [Cursor.onWord]) paren h ?_
  simp only [Cursor.onWord, String.reduceToList, List.cons_append, List.nil_append]
  rfl

theorem reads_anew_layout (h : Encloses (m + 10) rest inner d items (calledLayout (')' :: last))) :
    Reads (leftSide (deep (m + 20)) plain) (.onWord "function" (anewLayout rest) false)
      (closure (anew (.of (.body d.notes) items))) (.onMark ")" last false) := by
  have statements : Statements (deep (m + 20)) _ _ _ :=
    .one rfl reads_const_layout (.one rfl (reads_run_layout h) (.one rfl reads_returned (.none _)))
  have paren : Cursor.next (.name "function" false) (anewLayout rest) =
      .ok (.onMark "(" (") \x7b".toList ++ ("\n\t".toList ++ inside rest)) false) := by
    unfold anewLayout inside
    simp only [Cursor.onMark, String.reduceToList, List.cons_append, List.nil_append]
    rfl
  refine reads_statements rfl paren ?_ statements ?_ rfl rfl (.inl rfl)
  · simp only [Cursor.onWord, String.reduceToList, List.cons_append, List.nil_append]
    rfl
  · simp [Cursor.onWord]

theorem layout_append (id : ContentId) (body later : List Char) :
    layout id body ++ '\n' :: later = "const".toList ++ (' ' :: (id.binding.toList ++ ' ' ::
      ("= (".toList ++ ("function".toList ++ anewLayout (body ++ '\x7d' :: ')' ::
        calledLayout (')' :: ';' :: '\n' :: '\n' :: later)))))) := by
  unfold layout anewLayout inside calledLayout layoutEnd
  simp only [String.reduceToList, List.cons_append, List.nil_append, List.append_assoc]

theorem length_layout (id : ContentId) (body : List Char) : body.length + 20 ≤ (layout id body).length := by
  unfold layout anewLayout inside calledLayout
  simp only [String.reduceToList, List.length_append, List.length_cons, List.length_nil]
  omega

/-- The lines of a body that are read as items in a module's own function, which makes the layout around
them a declaration wherever it stands. -/
theorem stands_layout (id : ContentId) {body : List Char} {closing : List Comment} {items : List Node}
    (finished : (declaration id .reexecute (.of (.body closing) items)).isUnfinished = false)
    (h : ∀ k last, depthFor body.length ≤ k → ∃ inner d,
      Encloses k (body ++ '\x7d' :: ')' :: last) inner d items last ∧ d.notes = closing) :
    Stands (layout id body) (declaration id .reexecute (.of (.body closing) items)) where
  reads {later e k} starts enough := by
    have long := length_layout id body
    obtain ⟨m, rfl⟩ : ∃ m, k = m + 29 :=
      ⟨k - 29, by unfold depthFor goalsPerChar at enough; omega⟩
    obtain ⟨inner, d, enclosed, rfl⟩ := h (m + 10)
      (calledLayout (')' :: ';' :: '\n' :: '\n' :: later)) (by
        unfold depthFor goalsPerChar at enough ⊢
        omega)
    have word (rest : List Char) : Cursor.next (.mark "(") ("function".toList ++ anewLayout rest) =
        .ok (.onWord "function" (anewLayout rest) false) := by
      unfold anewLayout inside
      simp only [Cursor.onWord, String.reduceToList, List.cons_append, List.nil_append]
      rfl
    have value := reads_leftSide
      (reads_enclosed (reads_anew_layout enclosed) (word _) rfl (.inr rfl) false) rfl rfl
    have ends : Cursor.next (.mark ";") ('\n' :: '\n' :: later) = .ok e := by
      rw [Cursor.next_line rfl, Cursor.after_line]
      exact starts
    rw [layout_append]
    exact ⟨_, rfl, rfl, reads_binding id value rfl rfl ends⟩
  finished := finished

end Bundler.Wrapper
