import Bundler.Proofs.Wrapping
import Bundler.Proofs.Script.Body
import Bundler.Proofs.Script.Name

/-! The text around a module holds it: the wrapped text is one declaration, and the module's own
function in it has the directives and statements of the module alone. The wrapper leaves a `#!` line
out up to the first line feed, while the line itself ends at any line end, so this is about modules
from which the wrapper drops no more than the line. -/

namespace Bundler.Script.Node

theorem any_of (test : Node → Bool) (form : Form) (parts : List Node) :
    (Node.of form parts).any test = (test (.of form parts) || parts.any (Node.any test)) := by
  have below : ∀ parts : List Node,
      (Node.foldParts (fun n below => test n || below.any id) parts).any id =
        parts.any (Node.any test) := by
    intro parts
    induction parts with
    | nil => rfl
    | cons n rest ih => simp only [Node.foldParts, List.any_cons, ih, id, Node.any]
  rw [Node.any, Node.of, Node.fold, below]
  rfl

theorem isUnfinished_of (form : Form) (parts : List Node) :
    (Node.of form parts).isUnfinished =
      ((match form with
        | .arrowHead _ | .shorthandDefault => true
        | _ => false) || parts.any Node.isUnfinished) :=
  any_of _ form parts

end Bundler.Script.Node

namespace Bundler.Wrapper

open Script Script.Parser Script.Grammar

variable {m k : Nat} {inner d : Cursor} {items : List Node} {rest : List Char}
  {mode : Instantiation}

theorem next_binding (id : ContentId) (more : List Char) :
    Cursor.next (.name "const" false) (' ' :: (id.binding.toList ++ ' ' :: more)) =
      .ok (.onWord id.binding (' ' :: more) false) := by
  have read := id.read_binding more
  obtain ⟨tail, spelled, -⟩ := id.binding_spelled
  rw [Cursor.onWord]
  rw [spelled] at read ⊢
  have blank : skipGap (Cursor.opens (.name "const" false)) ((' ' :: ('r' :: tail ++ ' ' :: more)).length + 1)
      ⟨[], false, false⟩ (' ' :: ('r' :: tail ++ ' ' :: more)) =
        some (⟨[], false, false⟩, 'r' :: tail ++ ' ' :: more) := rfl
  rw [Cursor.next, Cursor.after, blank]
  dsimp only
  rw [read]

theorem reads_binding (id : ContentId) {text : List Char} {n : Node} {e : Cursor}
    (h : Reads (leftSide (deep k) plain) (.onMark "(" text false) n d) (given : n.isAbsent = false)
    (semicolon : d.token = .mark ";") (ends : Cursor.next d.token d.rest = .ok e) :
    Reads (deep (k + 5) plain (.statement false))
      (.onWord "const" (' ' :: (id.binding.toList ++ ' ' :: ("= (".toList ++ text))) true)
      (.of (.declare .const) [.of .declarator [variable_ id.binding, n]]) e := by
  have free : nameable plain id.binding = true := by
    simp [nameable, id.binding_unreserved, plain, Scope.function]
  have equals : Cursor.next (.name id.binding false) (' ' :: ("= (".toList ++ text)) =
      .ok (.onMark "=" (" (".toList ++ text) false) := by
    simp only [Cursor.onMark, String.reduceToList, List.cons_append, List.nil_append]
    rfl
  have paren : Cursor.next (.mark "=") (" (".toList ++ text) = .ok (.onMark "(" text false) := by
    simp only [Cursor.onMark, String.reduceToList, List.cons_append, List.nil_append]
    rfl
  have tail : Reads (declareTail (deep (k + 4)) plain .const)
      (.onWord id.binding (' ' :: ("= (".toList ++ text)) false)
      (.of (.declare .const) [.of .declarator [variable_ id.binding, n]]) d :=
    reads_declareTail rfl free equals rfl paren (.inl rfl) h given semicolon
  exact reads_declare (.inl ⟨rfl, rfl⟩) rfl rfl (next_binding id ("= (".toList ++ text)) tail rfl
    semicolon ends

def declaration (id : ContentId) (mode : Instantiation) (body : Node) : Node :=
  .of (.declare .const) [.of .declarator [variable_ id.binding, value body mode]]

def declarationText (id : ContentId) (mode : Instantiation) (rest : List Char) : List Char :=
  ' ' :: (id.binding.toList ++ ' ' :: ("= (".toList ++ valueText rest mode))

theorem reads_declaration (id : ContentId)
    (h : Encloses (m + 10) rest inner d items (calledText (ending mode))) :
    Reads (deep (m + 10 + levels mode + 5) plain (.statement false))
      (.onWord "const" (declarationText id mode rest) true)
      (declaration id mode (.of (.body d.notes) items)) ⟨[], [], .ending, false, []⟩ := by
  have given : (Wrapper.value (.of (.body d.notes) items) mode).isAbsent = false := by
    cases mode <;> rfl
  exact reads_binding id (reads_value mode h) given rfl rfl

def program (id : ContentId) (mode : Instantiation) (body : Node) : Node :=
  .of (.program none []) [declaration id mode body]

theorem program_finished (id : ContentId) (mode : Instantiation) {hashbang : Option String}
    {closing : List Comment} (notes : List Comment)
    (h : (Node.of (.program hashbang closing) items).isUnfinished = false) :
    (program id mode (.of (.body notes) items)).isUnfinished = false := by
  rw [Node.isUnfinished_of] at h
  obtain ⟨-, finished⟩ := Bool.or_eq_false_iff.mp h
  cases mode <;>
    simp only [program, declaration, value, closure, anew, prepared, once, run, ownFunction,
      function, exported, fresh, variable_, Node.leaf, Node.absent, Node.isUnfinished_of, finished,
      List.any_cons, List.any_nil, List.map_cons, List.map_nil, Bool.or_false]

theorem reads_program {c : Cursor} {n : Node} (starts : c.token ≠ .ending) (more : c.here ≠ [])
    (h : Reads (deep k plain (.statement false)) c n d) (undirected : asDirective c.token n = none)
    (ends : d.token = .ending) :
    Reads (bodyItems (deep k) plain (do return (← token) != .ending)) c [n] d := by
  have open_ : Reads (do return (← token) != .ending : Parser Bool) c true c :=
    congrArg (fun b => Except.ok (b, c)) (bne_iff_ne.mpr starts)
  have marked : markDirectives [(c.token, n)] = [n] := by
    rw [markDirectives, undirected]
    rfl
  obtain ⟨here, rest, token, afterBreak, notes⟩ := c
  obtain ⟨first, here, rfl⟩ := List.exists_cons_of_ne_nil more
  obtain ⟨here', rest', token', afterBreak', notes'⟩ := d
  cases ends
  rw [← marked]
  refine Reads.bind (a := [(token, n)]) (Reads.bind rfl ?_) rfl
  exact Reads.repeatWhile_step open_ (Reads.bind rfl (h.bind rfl)) (Reads.repeatWhile_stop rfl)

def wrappedText (id : ContentId) (mode : Instantiation) (text : List Char) : List Char :=
  declarationText id mode (text ++ '\n' :: '\x7d' :: ')' :: calledText (ending mode))

theorem stripHashbang_toList (source : String) :
    (stripHashbang source).toList = withoutHashbang source.toList := String.toList_ofList

theorem wrap_toList (id : ContentId) (source : String) (mode : Instantiation) :
    (wrap id source mode).toList =
      "const".toList ++ wrappedText id mode (withoutHashbang source.toList) := by
  unfold wrap wrappedText declarationText calledText
  rw [String.toList_append, String.toList_append, stripHashbang_toList]
  cases mode with
  | reexecute =>
    unfold opening closing valueText anewText ownText ending
    simp only [String.toList_append, String.reduceToList, List.cons_append, List.nil_append,
      List.append_assoc]
  | memoized =>
    unfold opening closing valueText preparedText onceText ownText ending
    simp only [String.toList_append, String.reduceToList, List.cons_append, List.nil_append,
      List.append_assoc]

theorem calledText_quiet (mode : Instantiation) :
    Quiet ('\x7d' :: ')' :: calledText (ending mode)) := by
  apply Quiet.of_all
  unfold calledText ending
  cases mode <;> simp only [String.reduceToList, List.cons_append, List.nil_append] <;> decide

theorem valueText_length (rest : List Char) (mode : Instantiation) :
    rest.length ≤ (valueText rest mode).length := by
  unfold valueText anewText preparedText onceText ownText
  cases mode <;> simp only [List.length_append, List.length_cons] <;> omega

theorem wrap_length (id : ContentId) (source : String) (mode : Instantiation) :
    (withoutHashbang source.toList).length + 8 ≤ (wrap id source mode).toList.length := by
  have inside := valueText_length
    (withoutHashbang source.toList ++ '\n' :: '\x7d' :: ')' :: calledText (ending mode)) mode
  rw [List.length_append] at inside
  rw [wrap_toList]
  unfold wrappedText declarationText
  simp only [String.reduceToList, List.length_append, List.length_cons,
    List.length_nil] at inside ⊢
  omega

theorem parseChars_of_reads {text body : List Char} {hashbang : Option String} {c last : Cursor}
    (split : splitHashbang text = (hashbang, body)) (start : firstCursor hashbang body = .ok c)
    (h : Reads (bodyItems (deep (depthFor body.length)) plain
      (do return (← token) != .ending)) c items last)
    (finished : (Node.of (.program hashbang last.notes) items).isUnfinished = false) :
    parseChars true text = .ok (.of (.program hashbang last.notes) items) := by
  have read : (programItems (deep (depthFor body.length)) plain).run c =
      .ok ((items, last.notes), last) := Reads.bind h rfl
  unfold parseChars
  rw [split]
  change (firstCursor hashbang body >>= fun cursor =>
    (programItems (deep (depthFor body.length)) plain).run cursor >>= _) = _
  rw [start]
  change ((programItems (deep (depthFor body.length)) plain).run c >>= _) = _
  rw [read]
  change (if _ then _ else _) = _
  rw [finished]
  rfl

/-- What has been read of a module alone, from the first token of its text, is read again in its
wrapper when the body there starts on the same token. -/
theorem parse_wrap_of_meets (id : ContentId) (source : String) (mode : Instantiation) {size : Nat}
    {c c' last : Cursor} (size_le : size ≤ (withoutHashbang source.toList).length + 1)
    (starts : Cursor.next (.mark "\x7b") ('\n' :: (withoutHashbang source.toList ++
      '\n' :: '\x7d' :: ')' :: calledText (ending mode))) = .ok c')
    (meets : c.Meets (')' :: calledText (ending mode)) c')
    (read : Reads (bodyItems (deep (depthFor size)) plain (do return (← token) != .ending))
      c items last)
    {hashbang : Option String} {closing : List Comment}
    (finished : (Node.of (.program hashbang closing) items).isUnfinished = false) :
    ∃ notes, Script.parse true (wrap id source mode) =
      .ok (program id mode (.of (.body notes) items)) := by
  have long := wrap_length id source mode
  have bounded : levels mode ≤ 20 := by cases mode <;> decide
  obtain ⟨m, depth⟩ : ∃ m, depthFor (wrap id source mode).toList.length =
      m + 10 + levels mode + 5 :=
    ⟨depthFor (wrap id source mode).toList.length - (levels mode + 15), by
      unfold depthFor goalsPerChar
      omega⟩
  have deeper : depthFor size ≤ m + 10 := by
    unfold depthFor goalsPerChar at depth ⊢
    omega
  -- the body is read as it is alone, and the rules of the wrapper around it
  obtain ⟨last', read', atEnd⟩ := bodyItems_embedded (calledText_quiet mode) deeper meets read
  obtain ⟨notes, same⟩ := atEnd.brace
  have enclosed : Encloses (m + 10) _ c' last' items (calledText (ending mode)) :=
    ⟨starts, read', by rw [same], by rw [same]⟩
  have statement := reads_declaration id enclosed
  rw [← depth] at statement
  have start : Cursor.start (wrap id source mode).toList =
      .ok (.onWord "const" (wrappedText id mode (withoutHashbang source.toList)) true) := by
    rw [wrap_toList, Cursor.onWord]
    unfold wrappedText declarationText
    simp only [String.reduceToList, List.cons_append, List.nil_append]
    rfl
  have unhashed :
      splitHashbang (wrap id source mode).toList = (none, (wrap id source mode).toList) := by
    rw [wrap_toList]
    simp only [String.reduceToList, List.cons_append, List.nil_append]
    rfl
  have whole := reads_program (by simp [Cursor.onWord]) (by simp [Cursor.onWord]) statement rfl rfl
  have complete := program_finished id mode last'.notes finished
  refine ⟨last'.notes, ?_⟩
  rw [Script.parse_eq]
  exact parseChars_of_reads unhashed start whole complete

/-- Taking the `#!` line off takes nothing but that line, with the return before its line feed. -/
def DropsLine (source : String) : Prop :=
  (splitHashbang source.toList).2 = withoutHashbang source.toList ∨
    (splitHashbang source.toList).2 = '\r' :: withoutHashbang source.toList

instance (source : String) : Decidable (DropsLine source) := inferInstanceAs (Decidable (_ ∨ _))

theorem withoutHashbang_of_some {text : List Char} {line : String}
    (h : (splitHashbang text).1 = some line) :
    withoutHashbang text = [] ∨ ∃ rest, withoutHashbang text = '\n' :: rest := by
  unfold splitHashbang at h
  split at h
  · rename_i rest
    change rest.dropWhile (· != '\n') = [] ∨ ∃ later, rest.dropWhile (· != '\n') = '\n' :: later
    cases left : rest.dropWhile (· != '\n') with
    | nil => exact .inl rfl
    | cons c later =>
      have stops := List.head?_dropWhile_not (· != '\n') rest
      rw [left] at stops
      have lineFeed : c = '\n' := by simpa using stops
      exact .inr ⟨later, by rw [lineFeed]⟩
  · cases h

theorem splitHashbang_of_none {text : List Char} (h : (splitHashbang text).1 = none) :
    splitHashbang text = (none, text) ∧ withoutHashbang text = text := by
  unfold splitHashbang at h ⊢
  split at h
  · cases h
  · rename_i other
    refine ⟨rfl, ?_⟩
    unfold withoutHashbang
    split
    · exact (other _ rfl).elim
    · rfl

theorem splitHashbang_withoutHashbang (text : List Char) :
    splitHashbang (withoutHashbang text) = (none, withoutHashbang text) := by
  cases hashbang : (splitHashbang text).1 with
  | none =>
    obtain ⟨unhashed, same⟩ := splitHashbang_of_none hashbang
    rw [same, unhashed]
  | some line =>
    obtain empty | ⟨rest, more⟩ := withoutHashbang_of_some hashbang
    · rw [empty]
      rfl
    · rw [more]
      rfl

theorem start_meets {later : List Char} (quiet : Quiet ('\x7d' :: ')' :: later))
    {text : List Char} {c : Cursor} (h : Cursor.start text = .ok c) :
    ∃ c', Cursor.next (.mark "\x7b") ('\n' :: (text ++ '\n' :: '\x7d' :: ')' :: later)) = .ok c' ∧
      c.Meets (')' :: later) c' := by
  have meets := Cursor.after_meets quiet false ⟨[], true, true⟩ text
  rw [show Cursor.after false ⟨[], true, true⟩ text = .ok c from h] at meets
  rw [Cursor.next_line rfl]
  exact meets

theorem firstCursor_meets {later : List Char} (quiet : Quiet ('\x7d' :: ')' :: later))
    {source : String} (line : DropsLine source) {c : Cursor}
    (h : firstCursor (splitHashbang source.toList).1 (splitHashbang source.toList).2 = .ok c) :
    ∃ c', Cursor.next (.mark "\x7b") ('\n' :: (withoutHashbang source.toList ++
        '\n' :: '\x7d' :: ')' :: later)) = .ok c' ∧ c.Meets (')' :: later) c' := by
  cases hashbang : (splitHashbang source.toList).1 with
  | none =>
    obtain ⟨unhashed, same⟩ := splitHashbang_of_none hashbang
    rw [unhashed] at h
    rw [same]
    exact start_meets quiet h
  | some text =>
    rw [hashbang] at h
    change Cursor.next .ending _ = _ at h
    obtain empty | ⟨rest, more⟩ := withoutHashbang_of_some hashbang
    · rw [empty]
      rcases line with left | left <;>
        (rw [left, empty] at h
         cases h
         exact ⟨_, rfl, .inr ⟨rfl, rfl, rfl, _, rfl⟩⟩)
    · -- the line feed that ends the line opens no token, so reading starts behind it
      have start : Cursor.start rest = .ok c := by
        rcases line with left | left <;> (rw [left, more] at h; exact h)
      obtain ⟨c', starts, meets⟩ := start_meets quiet start
      refine ⟨c', ?_, meets⟩
      rw [Cursor.next_line rfl] at starts
      rw [more, List.cons_append, Cursor.next_line rfl, Cursor.after_line]
      exact starts

/-- What the wrapper leaves of a module is all that its function holds. -/
theorem parse_wrap_stripped (id : ContentId) (source : String) (mode : Instantiation)
    {stripped : Node} (parses : Script.parse true (stripHashbang source) = .ok stripped) :
    ∃ notes, Script.parse true (wrap id source mode) =
      .ok (program id mode (.of (.body notes) stripped.parts)) := by
  rw [Script.parse_eq, stripHashbang_toList] at parses
  obtain ⟨c, items, last, starts, read, rfl, finished⟩ := parseChars_ok parses
  rw [splitHashbang_withoutHashbang] at starts read
  obtain ⟨c', starts', meets⟩ := start_meets (calledText_quiet mode) starts
  exact parse_wrap_of_meets id source mode (Nat.le_succ _) starts' meets read finished

/-- A module that parses alone parses in its wrapper, where its directives and statements are all
that the module's own function holds, and nothing stands outside the declaration. -/
theorem parse_wrap (id : ContentId) (source : String) (mode : Instantiation) {alone : Node}
    (line : DropsLine source) (parses : Script.parse true source = .ok alone) :
    ∃ notes, Script.parse true (wrap id source mode) =
      .ok (program id mode (.of (.body notes) alone.parts)) := by
  rw [Script.parse_eq] at parses
  obtain ⟨c, items, last, starts, read, rfl, finished⟩ := parseChars_ok parses
  obtain ⟨c', starts', meets⟩ := firstCursor_meets (calledText_quiet mode) line starts
  have shorter : (splitHashbang source.toList).2.length ≤
      (withoutHashbang source.toList).length + 1 := by
    rcases line with left | left <;> rw [left]
    · exact Nat.le_succ _
    · exact Nat.le_refl _
  exact parse_wrap_of_meets id source mode shorter starts' meets read finished

def tool : String := "#!/usr/bin/env node\r\n'use strict';\nexports.a = 1;"

set_option maxRecDepth 100000 in
theorem parse_wrap_tool : DropsLine tool ∧ ∃ alone, Script.parse true tool = .ok alone ∧
    alone.parts.length = 2 ∧ ∃ notes, Script.parse true (wrap (.ofText tool) tool .memoized) =
      .ok (program (.ofText tool) .memoized (.of (.body notes) alone.parts)) := by
  have line : DropsLine tool := by decide +kernel
  have succeeds : ((Script.parse true tool).toOption.any fun alone => alone.parts.length == 2) =
      true := by decide +kernel
  cases parses : Script.parse true tool with
  | error e =>
    rw [parses] at succeeds
    cases succeeds
  | ok alone =>
    rw [parses] at succeeds
    exact ⟨line, alone, rfl, beq_iff_eq.mp succeeds, parse_wrap _ _ _ line parses⟩

/-- A script whose `#!` line ends with a return alone, so that the wrapper leaves out its first
statement too. -/
def cutShort : String := "#!x\rexports.a = 1;\nexports.b = 2;"

theorem program_injective {id : ContentId} {body body' : Node}
    (h : program id mode body = program id mode body') : body = body' := by
  cases mode <;>
    simpa [program, declaration, value, closure, anew, prepared, once, run, ownFunction,
      function, Node.of] using h

set_option maxRecDepth 100000 in
theorem cutShort_loses_statement : ∃ alone wrapped, Script.parse true cutShort = .ok alone ∧
    Script.parse true (wrap (.ofText cutShort) cutShort .reexecute) = .ok wrapped ∧
      ∀ notes, wrapped ≠ program (.ofText cutShort) .reexecute (.of (.body notes) alone.parts) := by
  have whole : ((Script.parse true cutShort).toOption.any fun alone => alone.parts.length == 2) =
      true := by decide +kernel
  have cut : ((Script.parse true (stripHashbang cutShort)).toOption.any fun stripped =>
      stripped.parts.length == 1) = true := by decide +kernel
  cases parses : Script.parse true cutShort with
  | error e =>
    rw [parses] at whole
    cases whole
  | ok alone =>
    cases parses' : Script.parse true (stripHashbang cutShort) with
    | error e =>
      rw [parses'] at cut
      cases cut
    | ok stripped =>
      rw [parses] at whole
      rw [parses'] at cut
      obtain ⟨notes, wrapped⟩ := parse_wrap_stripped (.ofText cutShort) cutShort .reexecute parses'
      refine ⟨alone, _, rfl, wrapped, fun notes' same => ?_⟩
      have body := program_injective same
      have parts : stripped.parts = alone.parts := (Node.mk.inj body).2.2
      have one : stripped.parts.length = 1 := beq_iff_eq.mp cut
      rw [parts, beq_iff_eq.mp whole] at one
      cases one

end Bundler.Wrapper
