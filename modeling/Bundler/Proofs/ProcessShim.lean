import Bundler.Emit
import Bundler.Proofs.Script.Lines
import Bundler.Proofs.Script.Quote

/-! The definition of `process` that a bundle may open with. For every environment its text is one
declaration by `var`, and the environment in it is read as it was given. -/

namespace Bundler.Emit

open Script Script.Parser Script.Grammar

/-- `{ key: value }` -/
def only (key : String) (value : Node) : Node :=
  .of .object [.of (.property false false) [.leaf (.keyName key), value]]

def shimDeclaration (env : String) : Node :=
  .of (.declare .var) [.of .declarator [.leaf (.identifier "process"),
    only "env" (only "NODE_ENV" (.leaf (.string env false)))]]

section

variable {k : Nat} {c inner colon first d e : Cursor} {key : String} {value : Node}

theorem reads_takeModifier {word : String} (name : c.token = .name key false) (other : key ≠ word)
    (sameLine allowsStar : Bool) : Reads (takeModifier word sameLine allowsStar) c false c := by
  have elsewhere : (c.token == .name word false) = false := by
    rw [name]
    exact beq_false_of_ne fun same => other (Token.name.inj same).1
  have seen : Reads (atWord word) c false c := congrArg (fun b => Except.ok (b, c)) elsewhere
  exact seen.bind rfl

theorem reads_modifiers (name : c.token = .name key false)
    (ordinary : key ≠ "get" ∧ key ≠ "set" ∧ key ≠ "async") :
    Reads (modifiers false) c ⟨false, .plain, false, false, false⟩ c := by
  obtain ⟨get, set, async⟩ := ordinary
  have star : Reads (takeMark "*") c false c := by
    obtain ⟨here, rest, token, afterBreak, notes⟩ := c
    cases name
    rfl
  exact Reads.bind rfl ((reads_takeModifier name get _ _).bind ((reads_takeModifier name set _ _).bind
    (Reads.bind rfl ((reads_takeModifier name async _ _).bind (star.bind rfl)))))

theorem reads_objectItem (name : inner.token = .name key false)
    (unmodified : Reads (modifiers false) inner ⟨false, .plain, false, false, false⟩ inner)
    (moves : Cursor.next inner.token inner.rest = .ok colon) (isColon : colon.token = .mark ":")
    (moves' : Cursor.next colon.token colon.rest = .ok first)
    (h : Reads (deep k plain .assignment) first value d) :
    Reads (objectItem (deep k) plain) inner
      (.of (.property false false) [.leaf (.keyName key), value]) d := by
  have named : Reads (propertyKey (deep k) plain) inner (.leaf (.keyName key), false) colon := by
    have moved := Reads.advance moves
    obtain ⟨here, rest, token, afterBreak, notes⟩ := inner
    cases name
    exact Reads.bind rfl (moved.bind rfl)
  have taken := Reads.takeMark isColon moves'
  obtain ⟨here, rest, token, afterBreak, notes⟩ := inner
  obtain ⟨here', rest', token', afterBreak', notes'⟩ := colon
  cases name
  cases isColon
  exact Reads.bind rfl (unmodified.bind (Reads.bind rfl (named.bind (Reads.bind rfl
    (taken.bind (h.bind rfl))))))

theorem reads_only (brace : c.token = .mark "\x7b") (opened : Cursor.next c.token c.rest = .ok inner)
    (name : inner.token = .name key false) (more : inner.here ≠ [])
    (ordinary : key ≠ "get" ∧ key ≠ "set" ∧ key ≠ "async")
    (moves : Cursor.next inner.token inner.rest = .ok colon) (isColon : colon.token = .mark ":")
    (moves' : Cursor.next colon.token colon.rest = .ok first)
    (h : Reads (deep k plain .assignment) first value d) (closing : d.token = .mark "\x7d")
    (closed : Cursor.next d.token d.rest = .ok e) (closes : Closes e) :
    Reads (leftSide (deep k) plain) c (only key value) e := by
  let property : Node := .of (.property false false) [.leaf (.keyName key), value]
  have item : Reads (objectItem (deep k) plain) inner property d :=
    reads_objectItem name (reads_modifiers name ordinary) moves isColon moves' h
  have list : Reads (commaList "\x7d" (objectItem (deep k) plain)) inner ([property], false) d := by
    obtain ⟨here, rest, token, afterBreak, notes⟩ := inner
    obtain ⟨here', rest', token', afterBreak', notes'⟩ := d
    cases name
    cases closing
    obtain ⟨letter, here, rfl⟩ := List.exists_cons_of_ne_nil more
    refine Reads.bind (a := [(property, false)]) (Reads.bind rfl ?_) rfl
    exact Reads.repeatWhile_step rfl (item.bind rfl) (Reads.repeatWhile_stop rfl)
  have object : Reads (primary (deep k) plain) c (only key value) e := by
    have start := Reads.expectMark brace opened
    have stop := Reads.expectMark closing closed
    obtain ⟨here, rest, token, afterBreak, notes⟩ := c
    cases brace
    exact Reads.bind rfl (start.bind (list.bind (stop.bind rfl)))
  obtain ⟨here', rest', token', afterBreak', notes'⟩ := e
  rcases closes with rfl | rfl | rfl <;> exact object.bind rfl

theorem reads_string {text raw : String} {lone : Bool} (isString : c.token = .string text raw lone)
    (moves : Cursor.next c.token c.rest = .ok d) (closes : d.token = .mark "\x7d") :
    Reads (deep (k + 4) plain .assignment) c (.leaf (.string text lone)) d := by
  have base : Reads (primary (deep k) plain) c (.leaf (.string text lone)) d := by
    have moved := Reads.advance moves
    obtain ⟨here, rest, token, afterBreak, notes⟩ := c
    cases isString
    exact Reads.bind rfl (moved.bind rfl)
  obtain ⟨here', rest', token', afterBreak', notes'⟩ := d
  cases closes
  have operand : Reads (leftSide (deep k) plain) c (.leaf (.string text lone)) _ := base.bind rfl
  exact reads_assignment (.inr (.inr (.inr ⟨text, raw, lone, isString⟩))) operand (.inr (.inr rfl))

end

theorem after_quote (text : String) (rest : List Char) {blanks : List Char} {opened : Bool}
    {gap gap' : Gap} (skipped : ∀ quoted, skipGap opened ((blanks ++ '"' :: quoted).length + 1) gap
      (blanks ++ '"' :: quoted) = some (gap', '"' :: quoted)) :
    Cursor.after opened gap (blanks ++ ((Json.quote text).toList ++ rest)) =
      .ok ⟨(Json.quote text).toList ++ rest, rest,
        .string text (String.ofList (text.toList.flatMap Json.quoteChar)) false, gap'.startsLine,
        gap'.comments⟩ := by
  have read := Token.read_quote text rest
  have quoted : (Json.quote text).toList = '"' :: (text.toList.flatMap Json.quoteChar ++ ['"']) :=
    String.toList_ofList
  rw [quoted, List.cons_append] at read ⊢
  rw [Cursor.after, skipped]
  dsimp only
  rw [read]

theorem next_quote (env : String) {rest text : List Char}
    (spelled : text = (Json.quote env).toList ++ rest) :
    Cursor.next (.mark ":") (' ' :: text) = .ok ⟨text, rest,
      .string env (String.ofList (env.toList.flatMap Json.quoteChar)) false, false, []⟩ := by
  have blank (quoted : List Char) : skipGap (Cursor.opens (.mark ":"))
      (([' '] ++ '"' :: quoted).length + 1) ⟨[], false, false⟩ ([' '] ++ '"' :: quoted) =
        some (⟨[], false, false⟩, '"' :: quoted) := rfl
  have read := after_quote env rest blank
  rw [List.singleton_append, ← spelled] at read
  exact read

section

-- The texts are variables here, so that nothing is computed of the environment.
variable {k : Nat} {env raw : String} {text rest : List Char}

theorem reads_inner (moves : Cursor.next (.mark ":") (' ' :: text) =
      .ok ⟨text, " \x7d \x7d".toList ++ rest, .string env raw false, false, []⟩) :
    Reads (leftSide (deep (k + 4)) plain)
      (.onMark "\x7b" (" NODE_ENV".toList ++ (": ".toList ++ text)) false)
      (only "NODE_ENV" (.leaf (.string env false))) (.onMark "\x7d" rest false) := by
  have opened : Cursor.next (.mark "\x7b") (" NODE_ENV".toList ++ (": ".toList ++ text)) =
      .ok (.onWord "NODE_ENV" (": ".toList ++ text) false) := by
    simp only [Cursor.onWord, String.reduceToList, List.cons_append, List.nil_append]
    rfl
  have colon : Cursor.next (.name "NODE_ENV" false) (": ".toList ++ text) =
      .ok (.onMark ":" (' ' :: text) false) := by
    simp only [Cursor.onMark, String.reduceToList, List.cons_append, List.nil_append]
    rfl
  have value : Reads (deep (k + 4) plain .assignment)
      ⟨text, " \x7d \x7d".toList ++ rest, .string env raw false, false, []⟩
      (.leaf (.string env false)) (.onMark "\x7d" (" \x7d".toList ++ rest) false) := by
    refine reads_string rfl ?_ rfl
    simp only [Cursor.onMark, String.reduceToList, List.cons_append, List.nil_append]
    rfl
  refine reads_only rfl opened rfl (by simp [Cursor.onWord]) (by decide) colon rfl moves value rfl ?_
    (.inr (.inr rfl))
  simp only [Cursor.onMark, String.reduceToList, List.cons_append, List.nil_append]
  rfl

theorem reads_outer {inner : Node} (h : Reads (leftSide (deep k) plain) (.onMark "\x7b" text false)
      inner (.onMark "\x7d" (';' :: rest) false)) :
    Reads (leftSide (deep (k + 4)) plain)
      (.onMark "\x7b" (" env".toList ++ (": \x7b".toList ++ text)) false)
      (only "env" inner) (.onMark ";" rest false) := by
  have opened : Cursor.next (.mark "\x7b") (" env".toList ++ (": \x7b".toList ++ text)) =
      .ok (.onWord "env" (": \x7b".toList ++ text) false) := by
    simp only [Cursor.onWord, String.reduceToList, List.cons_append, List.nil_append]
    rfl
  have colon : Cursor.next (.name "env" false) (": \x7b".toList ++ text) =
      .ok (.onMark ":" (" \x7b".toList ++ text) false) := by
    simp only [Cursor.onMark, String.reduceToList, List.cons_append, List.nil_append]
    rfl
  have moves : Cursor.next (.mark ":") (" \x7b".toList ++ text) = .ok (.onMark "\x7b" text false) := by
    simp only [Cursor.onMark, String.reduceToList, List.cons_append, List.nil_append]
    rfl
  have value := reads_assignment (.inr (.inr (.inl rfl))) h (.inr (.inr rfl))
  refine reads_only rfl opened rfl (by simp [Cursor.onWord]) (by decide) colon rfl moves value rfl ?_
    (.semicolon rfl)
  simp only [Cursor.onMark, String.reduceToList, List.cons_append, List.nil_append]
  rfl

theorem reads_process {object : Node} {e : Cursor} (given : object.isAbsent = false)
    (h : Reads (leftSide (deep k) plain) (.onMark "\x7b" text false) object
      (.onMark ";" ('\n' :: rest) false)) (starts : Cursor.start rest = .ok e) :
    Reads (deep (k + 5) plain (.statement false))
      (.onWord "var" (" process".toList ++ (" = \x7b".toList ++ text)) true)
      (.of (.declare .var) [.of .declarator [.leaf (.identifier "process"), object]]) e := by
  have named : Cursor.next (.name "var" false) (" process".toList ++ (" = \x7b".toList ++ text)) =
      .ok (.onWord "process" (" = \x7b".toList ++ text) false) := by
    simp only [Cursor.onWord, String.reduceToList, List.cons_append, List.nil_append]
    rfl
  have equals : Cursor.next (.name "process" false) (" = \x7b".toList ++ text) =
      .ok (.onMark "=" (" \x7b".toList ++ text) false) := by
    simp only [Cursor.onMark, String.reduceToList, List.cons_append, List.nil_append]
    rfl
  have brace : Cursor.next (.mark "=") (" \x7b".toList ++ text) = .ok (.onMark "\x7b" text false) := by
    simp only [Cursor.onMark, String.reduceToList, List.cons_append, List.nil_append]
    rfl
  have moves : Cursor.next (.mark ";") ('\n' :: rest) = .ok e := by
    rw [Cursor.next_line rfl]
    exact starts
  have tail : Reads (declareTail (deep (k + 4)) plain .var)
      (.onWord "process" (" = \x7b".toList ++ text) false)
      (.of (.declare .var) [.of .declarator [.leaf (.identifier "process"), object]])
      (.onMark ";" ('\n' :: rest) false) :=
    reads_declareTail rfl rfl equals rfl brace (.inr (.inr (.inl rfl))) h given rfl
  exact reads_declare (.inr ⟨rfl, rfl⟩) rfl rfl named tail rfl rfl moves

theorem start_var : Cursor.start ("var".toList ++ (" process".toList ++ text)) =
    .ok (.onWord "var" (" process".toList ++ text) true) := by
  simp only [Cursor.onWord, String.reduceToList, List.cons_append, List.nil_append]
  rfl

end

theorem processShim_toList (env : String) (rest : List Char) : (processShim env).toList ++ rest =
    "var".toList ++ (" process".toList ++ (" = \x7b".toList ++ (" env".toList ++ (": \x7b".toList ++
      (" NODE_ENV".toList ++ (": ".toList ++ ((Json.quote env).toList ++
        (" \x7d \x7d".toList ++ ';' :: rest)))))))) := by
  unfold processShim
  simp only [String.toList_append, String.reduceToList, List.cons_append, List.nil_append,
    List.append_assoc]

theorem stands_processShim (env : String) :
    Stands (processShim env).toList (shimDeclaration env) := by
  refine ⟨fun {later e k} starts enough => ?_, rfl⟩
  obtain ⟨k, rfl⟩ : ∃ n, k = n + 13 := ⟨k - 13, by unfold depthFor goalsPerChar at enough; omega⟩
  have moves := next_quote env (rfl : _ = _ ++ (" \x7d \x7d".toList ++ ';' :: '\n' :: later))
  have object := reads_outer (k := k + 4) (reads_inner moves)
  rw [processShim_toList]
  exact ⟨_, start_var, rfl, reads_process rfl object starts⟩

end Bundler.Emit
