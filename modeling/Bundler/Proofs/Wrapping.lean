import Bundler.Proofs.Script.Reads
import Bundler.Wrapper

/-! How the text around a module is read. Its tree is written out once, with the body of the module's
own function as a parameter; each piece of the text is then read around a body that has been read. -/

namespace Bundler.Wrapper

open Script Script.Parser Script.Grammar

def variable_ (name : String) : Node := .leaf (.identifier name)

/-- `module.exports` -/
def exported : Node := .of (.member "exports" false) [variable_ "module"]

/-- `{ exports: {} }` -/
def fresh : Node :=
  .of .object [.of (.property false false) [.leaf (.keyName "exports"), .of .object []]]

def function (parameters : List String) (body : Node) : Node :=
  .of (.function false false false none) [.of .parameters (parameters.map variable_), body]

def closure (statements : List Node) : Node := function [] (.of (.body []) statements)

def ownFunction (body : Node) : Node := function ["module", "exports"] body

def run (body : Node) : Node :=
  .of .evaluate
    [.of (.call false []) [.of .paren [ownFunction body], variable_ "module", exported]]

def anew (body : Node) : List Node :=
  [.of (.declare .const) [.of .declarator [variable_ "module", fresh]], run body,
    .of .return_ [exported]]

def once (body : Node) : List Node :=
  [.of .ifElse [variable_ "module", .of .return_ [exported], .absent],
    .of .evaluate [.of (.assign none) [variable_ "module", fresh]], run body,
    .of .return_ [exported]]

def prepared (body : Node) : List Node :=
  [.of (.declare .let_) [.of .declarator [variable_ "module", .absent]],
    .of .return_ [closure (once body)]]

def value (body : Node) : Instantiation → Node
  | .reexecute => .of .paren [closure (anew body)]
  | .memoized => .of (.call false []) [.of .paren [closure (prepared body)]]

def ownText (rest : List Char) : List Char := "function (module, exports) \x7b\n".toList ++ rest

def calledText (last : List Char) : List Char :=
  "(module, module.exports);\nreturn module.exports;\n\x7d".toList ++ last

def anewText (rest : List Char) : List Char :=
  " () \x7b\n".toList ++ ("const".toList ++
    (" module = \x7b exports: \x7b\x7d \x7d;\n(".toList ++ ownText rest))

def onceText (rest : List Char) : List Char :=
  " () \x7b\n".toList ++ ("if".toList ++ (" (module) return module.exports;\nmodule".toList ++
    ' ' :: ("= \x7b exports: \x7b\x7d \x7d;\n(".toList ++ ownText rest)))

def preparedText (rest : List Char) : List Char :=
  " () \x7b\n".toList ++ ("let".toList ++ (" module;\nreturn ".toList ++
    ("function".toList ++ onceText rest)))

def valueText (rest : List Char) : Instantiation → List Char
  | .reexecute => "function".toList ++ anewText rest
  | .memoized => "function".toList ++ preparedText rest

def ending : Instantiation → List Char
  | .reexecute => [')', ';']
  | .memoized => ";\n\x7d)();".toList

/-- How much deeper the grammar goes for the value than for the module inside it. -/
def levels : Instantiation → Nat
  | .reexecute => 14
  | .memoized => 20

variable {m : Nat} {inner d : Cursor} {items : List Node} {rest last : List Char}

/-- The text behind a brace is the body of a function up to a brace and a parenthesis. -/
structure Encloses (m : Nat) (rest : List Char) (inner d : Cursor) (items : List Node)
    (last : List Char) : Prop where
  moves : Cursor.next (.mark "\x7b") ('\n' :: rest) = .ok inner
  reads : Reads (bodyItems (deep m) plain (return !(← atMark "\x7d"))) inner items d
  brace : d.token = .mark "\x7d"
  after : d.rest = ')' :: last

theorem reads_ownFunction {first : Cursor} (word : first.token = .name "function" false)
    (paren : Cursor.next first.token first.rest =
      .ok (.onMark "(" ("module, exports) \x7b\n".toList ++ rest) false))
    (h : Encloses (m + 10) rest inner d items last) :
    Reads (leftSide (deep (m + 10)) plain) first (ownFunction (.of (.body d.notes) items))
      (.onMark ")" last false) := by
  have closing : Cursor.next d.token d.rest = .ok (.onMark ")" last false) := by
    rw [h.brace, h.after]
    rfl
  have params : Reads (parameters (deep (m + 10)) plain)
      (.onMark "(" ("module, exports) \x7b\n".toList ++ rest) false)
      (.of .parameters [variable_ "module", variable_ "exports"])
      (.onMark "\x7b" ('\n' :: rest) false) := by
    simp only [Cursor.onMark, String.reduceToList, List.cons_append, List.nil_append]
    exact rfl
  have body := reads_functionBody (c := .onMark "\x7b" ('\n' :: rest) false) rfl h.moves h.reads
    h.brace closing
  exact reads_function word paren rfl params body (.inl rfl)

theorem reads_run {text more : List Char} {first e : Cursor}
    (moves : Cursor.next (.mark "(") text = .ok first) (word : first.token = .name "function" false)
    (given : first.here ≠ []) (paren : Cursor.next first.token first.rest =
      .ok (.onMark "(" ("module, exports) \x7b\n".toList ++ rest) false))
    (h : Encloses (m + 10) rest inner d items ("(module, module.exports);".toList ++ more))
    (ends : Cursor.next (.mark ";") more = .ok e) :
    Reads (deep (m + 20) plain (.statement false)) (.onMark "(" text true)
      (run (.of (.body d.notes) items)) e := by
  have own := reads_assignment (.function word) (reads_ownFunction word paren h) (.inl rfl)
  have enclosed : Reads (primary (deep (m + 14)) plain) (.onMark "(" text true)
      (.of .paren [ownFunction (.of (.body d.notes) items)])
      (.onMark "(" ("module, module.exports);".toList ++ more) false) := by
    refine reads_paren rfl moves word given own rfl rfl ?_ (.inl rfl)
    simp only [Cursor.onMark, String.reduceToList, List.cons_append, List.nil_append]
    rfl
  have call : Reads (leftSide (deep (m + 14)) plain) (.onMark "(" text true)
      (.of (.call false [])
        [.of .paren [ownFunction (.of (.body d.notes) items)], variable_ "module", exported])
      (.onMark ";" more false) := by
    refine reads_leftSide enclosed rfl ?_
    simp only [Cursor.onMark, String.reduceToList, List.cons_append, List.nil_append]
    exact rfl
  exact reads_evaluate rfl rfl call rfl rfl ends

theorem reads_run_text (h : Encloses (m + 10) rest inner d items (calledText last)) :
    Reads (deep (m + 20) plain (.statement false)) (.onMark "(" (ownText rest) true)
      (run (.of (.body d.notes) items))
      (.onWord "return" (" module.exports;\n\x7d".toList ++ last) true) := by
  have called : calledText last = "(module, module.exports);".toList ++
      ("\nreturn module.exports;\n\x7d".toList ++ last) := by
    unfold calledText
    simp only [String.reduceToList, List.cons_append, List.nil_append]
  rw [called] at h
  have word : Cursor.next (.mark "(") (ownText rest) =
      .ok (.onWord "function" (" (module, exports) \x7b\n".toList ++ rest) false) := by
    unfold ownText
    simp only [Cursor.onWord, String.reduceToList, List.cons_append, List.nil_append]
    rfl
  have paren : Cursor.next (.name "function" false) (" (module, exports) \x7b\n".toList ++ rest) =
      .ok (.onMark "(" ("module, exports) \x7b\n".toList ++ rest) false) := by
    simp only [Cursor.onMark, String.reduceToList, List.cons_append, List.nil_append]
    rfl
  refine reads_run word rfl (by simp [Cursor.onWord]) paren h ?_
  simp only [Cursor.onWord, String.reduceToList, List.cons_append, List.nil_append]
  rfl

theorem reads_returned :
    Reads (deep (m + 20) plain (.statement false))
      (.onWord "return" (" module.exports;\n\x7d".toList ++ last) true)
      (.of .return_ [exported]) (.onMark "\x7d" last true) := by
  simp only [Cursor.onMark, Cursor.onWord, String.reduceToList, List.cons_append, List.nil_append]
  exact rfl

theorem reads_const_fresh :
    Reads (deep (m + 20) plain (.statement false))
      (.onWord "const" (" module = \x7b exports: \x7b\x7d \x7d;\n(".toList ++ rest) true)
      (.of (.declare .const) [.of .declarator [variable_ "module", fresh]])
      (.onMark "(" rest true) := by
  simp only [Cursor.onMark, Cursor.onWord, String.reduceToList, List.cons_append, List.nil_append]
  exact rfl

theorem reads_let :
    Reads (deep (m + 26) plain (.statement false))
      (.onWord "let" (" module;\nreturn ".toList ++ rest) true)
      (.of (.declare .let_) [.of .declarator [variable_ "module", .absent]])
      (.onWord "return" (' ' :: rest) true) := by
  simp only [Cursor.onWord, String.reduceToList, List.cons_append, List.nil_append]
  exact rfl

theorem reads_if :
    Reads (deep (m + 20) plain (.statement false))
      (.onWord "if" (" (module) return module.exports;\nmodule".toList ++ ' ' :: rest) true)
      (.of .ifElse [variable_ "module", .of .return_ [exported], .absent])
      (.onWord "module" (' ' :: rest) true) := by
  simp only [Cursor.onWord, String.reduceToList, List.cons_append, List.nil_append]
  exact rfl

theorem reads_assign_fresh :
    Reads (deep (m + 20) plain (.statement false))
      (.onWord "module" (' ' :: ("= \x7b exports: \x7b\x7d \x7d;\n(".toList ++ rest)) true)
      (.of .evaluate [.of (.assign none) [variable_ "module", fresh]])
      (.onMark "(" rest true) := by
  simp only [Cursor.onMark, Cursor.onWord, String.reduceToList, List.cons_append, List.nil_append]
  exact rfl

theorem reads_nullary {first after : Cursor} {text : List Char}
    (word : first.token = .name "function" false) (paren : Cursor.next first.token first.rest =
      .ok (.onMark "(" (") \x7b".toList ++ text) false))
    (moves : Cursor.next (.mark "\x7b") text = .ok inner)
    (h : Reads (bodyItems (deep m) plain (return !(← atMark "\x7d"))) inner items d)
    (brace : d.token = .mark "\x7d") (moves' : Cursor.next d.token d.rest = .ok after)
    (closes : Closes after) :
    Reads (leftSide (deep m) plain) first (function [] (.of (.body d.notes) items)) after := by
  have params : Reads (parameters (deep m) plain) (.onMark "(" (") \x7b".toList ++ text) false)
      (.of .parameters []) (.onMark "\x7b" text false) := by
    simp only [Cursor.onMark, String.reduceToList, List.cons_append, List.nil_append]
    exact rfl
  exact reads_function word paren rfl params (reads_functionBody rfl moves h brace moves') closes

theorem reads_statements {first after : Cursor} {text : List Char} {found : List (Token × Node)}
    (word : first.token = .name "function" false) (paren : Cursor.next first.token first.rest =
      .ok (.onMark "(" (") \x7b".toList ++ text) false))
    (moves : Cursor.next (.mark "\x7b") text = .ok inner)
    (h : Statements (deep m) inner found (.onMark "\x7d" last true))
    (enough : found.length ≤ inner.here.length)
    (undirected : markDirectives found = found.map (·.2))
    (moves' : Cursor.next (.mark "\x7d") last = .ok after) (closes : Closes after) :
    Reads (leftSide (deep m) plain) first (closure (found.map (·.2))) after := by
  have listed := h.reads rfl (Nat.lt_succ_of_le enough)
  have body : Reads (bodyItems (deep m) plain (return !(← atMark "\x7d"))) inner
      (found.map (·.2)) (.onMark "\x7d" last true) := by
    rw [← undirected]
    exact Reads.bind (Reads.bind rfl listed) rfl
  exact reads_nullary word paren moves body rfl moves' closes

theorem next_nullary (text : List Char) :
    Cursor.next (.name "function" false) (" () \x7b\n".toList ++ text) =
      .ok (.onMark "(" (") \x7b".toList ++ '\n' :: text) false) := by
  simp only [Cursor.onMark, String.reduceToList, List.cons_append, List.nil_append]
  rfl

theorem reads_closure {text : List Char} {after : Cursor} {found : List (Token × Node)}
    (moves : Cursor.next (.mark "\x7b") ('\n' :: text) = .ok inner)
    (h : Statements (deep m) inner found (.onMark "\x7d" last true))
    (enough : found.length ≤ inner.here.length)
    (undirected : markDirectives found = found.map (·.2))
    (moves' : Cursor.next (.mark "\x7d") last = .ok after) (closes : Closes after) :
    Reads (leftSide (deep m) plain) (.onWord "function" (" () \x7b\n".toList ++ text) false)
      (closure (found.map (·.2))) after :=
  reads_statements rfl (next_nullary text) moves h enough undirected moves' closes

theorem reads_enclosed {text : List Char} {after : Cursor} {body : Node}
    (h : Reads (leftSide (deep m) plain) (.onWord "function" text false) (function [] body)
      (.onMark ")" last false))
    (word : Cursor.next (.mark "(") ("function".toList ++ text) =
      .ok (.onWord "function" text false))
    (moves : Cursor.next (.mark ")") last = .ok after)
    (ends : after.token = .mark "(" ∨ after.token = .mark ";") (isFirst : Bool) :
    Reads (primary (deep (m + 4)) plain) (.onMark "(" ("function".toList ++ text) isFirst)
      (.of .paren [function [] body]) after :=
  reads_paren rfl word rfl (by simp [Cursor.onWord])
    (reads_assignment (.function rfl) h (.inl rfl)) rfl rfl moves ends

theorem next_function (text : List Char) :
    Cursor.next (.mark "(") ("function".toList ++ ' ' :: text) =
      .ok (.onWord "function" (' ' :: text) false) := by
  simp only [Cursor.onWord, String.reduceToList, List.cons_append, List.nil_append]
  rfl

theorem reads_anew
    (h : Encloses (m + 10) rest inner d items (calledText (ending .reexecute))) :
    Reads (leftSide (deep (m + 20)) plain) (.onWord "function" (anewText rest) false)
      (closure (anew (.of (.body d.notes) items))) (.onMark ")" [';'] false) := by
  have statements : Statements (deep (m + 20)) _ _ _ :=
    .one rfl reads_const_fresh (.one rfl (reads_run_text h) (.one rfl reads_returned (.none _)))
  refine reads_closure ?_ statements ?_ rfl rfl (.inl rfl)
  · simp only [Cursor.onWord, String.reduceToList, List.cons_append, List.nil_append]
    rfl
  · simp [Cursor.onWord]

theorem reads_once
    (h : Encloses (m + 10) rest inner d items (calledText (ending .memoized))) :
    Reads (leftSide (deep (m + 20)) plain) (.onWord "function" (onceText rest) false)
      (closure (once (.of (.body d.notes) items))) (.onMark ";" "\n\x7d)();".toList false) := by
  have statements : Statements (deep (m + 20)) _ _ _ :=
    .one rfl reads_if (.one rfl reads_assign_fresh (.one rfl (reads_run_text h)
      (.one rfl reads_returned (.none _))))
  refine reads_closure ?_ statements ?_ rfl ?_ (.semicolon rfl)
  · simp only [Cursor.onWord, String.reduceToList, List.cons_append, List.nil_append]
    rfl
  · simp [Cursor.onWord]
  · unfold ending
    simp only [Cursor.onMark, String.reduceToList, List.cons_append, List.nil_append]
    rfl

theorem reads_prepared
    (h : Encloses (m + 10) rest inner d items (calledText (ending .memoized))) :
    Reads (leftSide (deep (m + 26)) plain) (.onWord "function" (preparedText rest) false)
      (closure (prepared (.of (.body d.notes) items))) (.onMark ")" ['(', ')', ';'] false) := by
  have returned : Reads (deep (m + 26) plain (.statement false))
      (.onWord "return" (' ' :: ("function".toList ++ onceText rest)) true)
      (.of .return_ [closure (once (.of (.body d.notes) items))])
      (.onMark "\x7d" [')', '(', ')', ';'] true) := by
    refine reads_return rfl rfl ?_ rfl rfl (reads_once h) rfl ?_
    · unfold onceText
      simp only [Cursor.onWord, String.reduceToList, List.cons_append, List.nil_append]
      rfl
    · simp only [Cursor.onMark, String.reduceToList, List.cons_append, List.nil_append]
      rfl
  have statements : Statements (deep (m + 26)) _ _ _ :=
    .one rfl reads_let (.one rfl returned (.none _))
  refine reads_closure ?_ statements ?_ rfl rfl (.inl rfl)
  · simp only [Cursor.onWord, String.reduceToList, List.cons_append, List.nil_append]
    rfl
  · simp [Cursor.onWord]

theorem reads_value (mode : Instantiation)
    (h : Encloses (m + 10) rest inner d items (calledText (ending mode))) :
    Reads (leftSide (deep (m + 10 + levels mode)) plain) (.onMark "(" (valueText rest mode) false)
      (value (.of (.body d.notes) items) mode) (.onMark ";" [] false) := by
  cases mode with
  | reexecute =>
    have enclosed := reads_enclosed (reads_anew h) (next_function _) rfl (.inr rfl) false
    exact reads_leftSide enclosed rfl rfl
  | memoized =>
    have enclosed := reads_enclosed (reads_prepared h) (next_function _) rfl (.inl rfl) false
    exact reads_leftSide enclosed rfl rfl

end Bundler.Wrapper
