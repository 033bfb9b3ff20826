import Bundler.Proofs.Script.Embedding.Statement

/-! What the grammar reads, one step after another. A reading of a piece of text gives a reading of
each construct around it, up to a whole function and the declaration of a constant. -/

namespace Bundler.Script

namespace Cursor

def onMark (mark : String) (rest : List Char) (isFirst : Bool) : Cursor :=
  ⟨mark.toList ++ rest, rest, .mark mark, isFirst, []⟩

def onWord (word : String) (rest : List Char) (isFirst : Bool) : Cursor :=
  ⟨word.toList ++ rest, rest, .name word false, isFirst, []⟩

end Cursor

namespace Parser

variable {α β : Type} {x : Parser α} {f : α → Parser β} {a : α} {b : β} {c d e : Cursor}

def Reads (x : Parser α) (c : Cursor) (a : α) (d : Cursor) : Prop := x.run c = .ok (a, d)

namespace Reads

theorem bind (first : Reads x c a d) (rest : Reads (f a) d b e) : Reads (x >>= f) c b e := by
  rw [Reads, StateT.run_bind, first]
  exact rest

theorem advance (moves : Cursor.next c.token c.rest = .ok d) : Reads advance c ⟨⟩ d := by
  simp only [Reads, Parser.advance, moveTo, StateT.run_bind, StateT.run_get, pure_bind, moves]
  rfl

theorem takeMark {text : String} (on : c.token = .mark text)
    (moves : Cursor.next c.token c.rest = .ok d) : Reads (takeMark text) c true d := by
  have there : (c.token == .mark text) = true := by
    rw [on]
    exact BEq.rfl
  have seen : Reads (atMark text) c true c := congrArg (fun b => Except.ok (b, c)) there
  exact seen.bind ((advance moves).bind rfl)

theorem expectMark {text : String} (on : c.token = .mark text)
    (moves : Cursor.next c.token c.rest = .ok d) : Reads (expectMark text) c ⟨⟩ d :=
  (takeMark on moves).bind rfl

theorem identifierName {scope : Scope} {name : String} (on : c.token = .name name false)
    (free : nameable scope name = true) (moves : Cursor.next c.token c.rest = .ok d) :
    Reads (identifierName scope) c name d := by
  have moved := advance moves
  obtain ⟨here, rest, token, afterBreak, notes⟩ := c
  cases on
  refine Reads.bind rfl ?_
  dsimp only
  rw [if_pos free]
  exact moved.bind rfl

theorem repeatWhile_stop {test : Parser Bool} {item : Parser α} {rounds : Nat}
    (h : Reads test c false c) : Reads (repeatWhile test item (rounds + 1)) c [] c :=
  h.bind rfl

theorem repeatWhile_step {test : Parser Bool} {item : Parser α} {rounds : Nat} {as : List α}
    (h : Reads test c true c) (one : Reads item c a d)
    (more : Reads (repeatWhile test item rounds) d as e) :
    Reads (repeatWhile test item (rounds + 1)) c (a :: as) e :=
  h.bind (one.bind (more.bind rfl))

end Reads

end Parser

namespace Grammar

open Parser

def plain : Scope := Scope.function false false

variable {k : Nat} {c d e : Cursor} {n : Node}

def Opens (c : Cursor) : Prop :=
  c.token = .mark "(" ∨ c.token = .name "function" false ∨ c.token = .mark "\x7b" ∨
    ∃ text raw lone, c.token = .string text raw lone

def Closes (c : Cursor) : Prop :=
  c.token = .mark ")" ∨ c.token = .mark ";" ∨ c.token = .mark "\x7d"

theorem Opens.function (h : c.token = .name "function" false) : Opens c := .inr (.inl h)

theorem Closes.semicolon (h : c.token = .mark ";") : Closes c := .inr (.inl h)

theorem reads_unary (opens : Opens c) (h : Reads (leftSide (deep k) plain) c n d)
    (closes : Closes d) : Reads (deep (k + 2) plain .unary) c n d := by
  obtain ⟨here, rest, token, afterBreak, notes⟩ := c
  obtain ⟨here', rest', token', afterBreak', notes'⟩ := d
  rcases opens with rfl | rfl | rfl | ⟨_, _, _, rfl⟩ <;> rcases closes with rfl | rfl | rfl <;>
    exact Reads.bind rfl (h.bind rfl)

theorem reads_binary (opens : Opens c) (h : Reads (leftSide (deep k) plain) c n d)
    (closes : Closes d) : Reads (deep (k + 3) plain (.binary .conditional)) c n d := by
  have operand := reads_unary opens h closes
  obtain ⟨here, rest, token, afterBreak, notes⟩ := c
  obtain ⟨here', rest', token', afterBreak', notes'⟩ := d
  rcases opens with rfl | rfl | rfl | ⟨_, _, _, rfl⟩ <;> rcases closes with rfl | rfl | rfl <;>
    exact Reads.bind rfl (operand.bind rfl)

theorem reads_conditional (opens : Opens c) (h : Reads (leftSide (deep k) plain) c n d)
    (closes : Closes d) : Reads (conditional (deep (k + 3)) plain) c n d := by
  have test := reads_binary opens h closes
  obtain ⟨here', rest', token', afterBreak', notes'⟩ := d
  rcases closes with rfl | rfl | rfl <;> exact test.bind rfl

theorem reads_assignment (opens : Opens c) (h : Reads (leftSide (deep k) plain) c n d)
    (closes : Closes d) : Reads (deep (k + 4) plain .assignment) c n d := by
  have operand := reads_conditional opens h closes
  have unassigned : assignOp? d.token = none ∧ d.token ≠ .mark "=>" := by
    rcases closes with closes | closes | closes <;> (rw [closes]; exact ⟨rfl, by decide⟩)
  have word : Reads (atWord "yield") c false c := by
    obtain ⟨here, rest, token, afterBreak, notes⟩ := c
    rcases opens with rfl | rfl | rfl | ⟨_, _, _, rfl⟩ <;> rfl
  refine word.bind (operand.bind (Reads.bind rfl ?_))
  split
  · exact (unassigned.2 ‹_›).elim
  · exact (unassigned.2 ‹_›).elim
  · rw [unassigned.1]
    rfl

theorem reads_expression (opens : Opens c) (h : Reads (leftSide (deep k) plain) c n d)
    (closes : Closes d) : Reads (deep (k + 5) plain .expression) c n d := by
  have first := reads_assignment opens h closes
  obtain ⟨here', rest', token', afterBreak', notes'⟩ := d
  rcases closes with rfl | rfl | rfl <;> exact first.bind rfl

theorem reads_functionTail {params body : Node} (paren : c.token = .mark "(")
    (ps : Reads (parameters (deep k) plain) c params d)
    (h : Reads (functionBody (deep k) plain) d body e) (scope : Scope) :
    Reads (functionTail (deep k) scope false false false) c
      (.of (.function false false false none) [params, body]) e := by
  obtain ⟨here, rest, token, afterBreak, notes⟩ := c
  cases paren
  exact Reads.bind rfl (Reads.bind rfl (Reads.bind rfl (ps.bind (h.bind rfl))))

theorem reads_function {params body : Node} {first : Cursor}
    (word : first.token = .name "function" false)
    (moves : Cursor.next first.token first.rest = .ok c) (paren : c.token = .mark "(")
    (ps : Reads (parameters (deep k) plain) c params d)
    (h : Reads (functionBody (deep k) plain) d body e) (closes : Closes e) :
    Reads (leftSide (deep k) plain) first
      (.of (.function false false false none) [params, body]) e := by
  have tail := reads_functionTail paren ps h plain
  have moved := Reads.advance moves
  obtain ⟨here, rest, token, afterBreak, notes⟩ := first
  obtain ⟨here', rest', token', afterBreak', notes'⟩ := e
  cases word
  rcases closes with rfl | rfl | rfl <;> exact Reads.bind (Reads.bind rfl (moved.bind tail)) rfl

theorem reads_paren {inner : Cursor} (paren : c.token = .mark "(")
    (moves : Cursor.next c.token c.rest = .ok inner) (word : inner.token = .name "function" false)
    (more : inner.here ≠ []) (h : Reads (deep k plain .assignment) inner n d)
    (isFunction : n.form = .function false false false none) (closing : d.token = .mark ")")
    (moves' : Cursor.next d.token d.rest = .ok e) (ends : e.token = .mark "(" ∨ e.token = .mark ";") :
    Reads (primary (deep k) plain) c (.of .paren [n]) e := by
  have opened := Reads.expectMark paren moves
  have closed := Reads.expectMark closing moves'
  have list : Reads (commaList ")" do
      if ← takeMark "..." then
        let target ← deep k plain.allowIn .assignment
        unless ← atMark ")" do fail
        return Node.of (.spread false) [target]
      else deep k plain.allowIn .assignment) inner ([n], false) d := by
    obtain ⟨here, rest, token, afterBreak, notes⟩ := inner
    obtain ⟨here', rest', token', afterBreak', notes'⟩ := d
    cases word
    cases closing
    obtain ⟨first, here, rfl⟩ := List.exists_cons_of_ne_nil more
    refine Reads.bind (a := [(n, false)]) (Reads.bind rfl ?_) rfl
    exact Reads.repeatWhile_step rfl (Reads.bind (Reads.bind rfl h) rfl)
      (Reads.repeatWhile_stop rfl)
  obtain ⟨here, rest, token, afterBreak, notes⟩ := c
  obtain ⟨form, notes', parts⟩ := n
  cases paren
  cases isFunction
  refine Reads.bind rfl (opened.bind (list.bind (closed.bind ?_)))
  obtain ⟨here', rest', token', afterBreak', notes''⟩ := e
  rcases ends with rfl | rfl <;> rfl

theorem reads_leftSide {base : Node} (h : Reads (primary (deep k) plain) c base d)
    (isParen : base.form = .paren)
    (linked : Reads (links (deep k) plain true (d.here.length + 1) base false) d (n, false) e) :
    Reads (leftSide (deep k) plain) c n e := by
  refine h.bind ?_
  obtain ⟨form, notes, parts⟩ := base
  cases isParen
  exact Reads.bind rfl (linked.bind rfl)

theorem reads_endStatement (semicolon : d.token = .mark ";")
    (moves : Cursor.next d.token d.rest = .ok e) : Reads endStatement d ⟨⟩ e := by
  have moved := Reads.advance moves
  obtain ⟨here, rest, token, afterBreak, notes⟩ := d
  cases semicolon
  exact Reads.bind (Reads.bind rfl (moved.bind rfl)) rfl

theorem reads_statement (unled : c.notes = []) (h : Reads (statementAt (deep k) plain false) c n d)
    (unled' : n.notes = []) : Reads (deep (k + 1) plain (.statement false)) c n d := by
  obtain ⟨here, rest, token, afterBreak, notes⟩ := c
  obtain ⟨form, notes', parts⟩ := n
  cases unled
  cases unled'
  exact Reads.bind rfl (h.bind rfl)

theorem reads_evaluate (paren : c.token = .mark "(") (unled : c.notes = [])
    (h : Reads (leftSide (deep k) plain) c n d) (isCall : n.form = .call false [])
    (semicolon : d.token = .mark ";") (moves : Cursor.next d.token d.rest = .ok e) :
    Reads (deep (k + 6) plain (.statement false)) c (.of .evaluate [n]) e := by
  have value := reads_expression (.inl paren) h (.semicolon semicolon)
  have ended := reads_endStatement semicolon moves
  refine reads_statement unled ?_ rfl
  obtain ⟨here, rest, token, afterBreak, notes⟩ := c
  obtain ⟨form, notes', parts⟩ := n
  cases paren
  cases isCall
  exact Reads.bind rfl (value.bind (ended.bind rfl))

theorem reads_return {inner : Cursor} (word : c.token = .name "return" false) (unled : c.notes = [])
    (moves : Cursor.next c.token c.rest = .ok inner) (isFunction : inner.token = .name "function" false)
    (sameLine : inner.afterBreak = false) (h : Reads (leftSide (deep k) plain) inner n d)
    (semicolon : d.token = .mark ";") (moves' : Cursor.next d.token d.rest = .ok e) :
    Reads (deep (k + 6) plain (.statement false)) c (.of .return_ [n]) e := by
  have value := reads_expression (.function isFunction) h (.semicolon semicolon)
  have ended := reads_endStatement semicolon moves'
  have moved := Reads.advance moves
  refine reads_statement unled ?_ rfl
  obtain ⟨here, rest, token, afterBreak, notes⟩ := c
  obtain ⟨here', rest', token', afterBreak', notes'⟩ := inner
  cases word
  cases isFunction
  cases sameLine
  exact Reads.bind rfl (moved.bind (Reads.bind rfl (value.bind (ended.bind rfl))))

theorem reads_declareTail {kind : DeclarationKind} {name : String} {named equals value : Cursor}
    (isName : named.token = .name name false) (free : nameable plain name = true)
    (moves : Cursor.next named.token named.rest = .ok equals) (isEquals : equals.token = .mark "=")
    (moves' : Cursor.next equals.token equals.rest = .ok value) (opens : Opens value)
    (h : Reads (leftSide (deep k) plain) value n d) (given : n.isAbsent = false)
    (semicolon : d.token = .mark ";") :
    Reads (declareTail (deep (k + 4)) plain kind) named
      (.of (.declare kind) [.of .declarator [.leaf (.identifier name), n]]) d := by
  have target : Reads (deep (k + 4) plain .pattern) named (.leaf (.identifier name)) equals := by
    have word := Reads.identifierName isName free moves
    obtain ⟨here, rest, token, afterBreak, notes⟩ := named
    cases isName
    exact Reads.bind rfl (Reads.bind rfl (word.bind rfl))
  have assigned := reads_assignment opens h (.semicolon semicolon)
  have first : Reads (declarator (deep (k + 4)) plain) named
      (.of .declarator [.leaf (.identifier name), n]) d :=
    target.bind ((Reads.takeMark isEquals moves').bind (assigned.bind rfl))
  have more : Reads (many (takeMark ",") (declarator (deep (k + 4)) plain)) d [] d := by
    obtain ⟨here, rest, token, afterBreak, notes⟩ := d
    cases semicolon
    rfl
  have all : Reads (declarators (deep (k + 4)) plain) named
      [.of .declarator [.leaf (.identifier name), n]] d := first.bind (more.bind rfl)
  have valued : [Node.of .declarator [.leaf (.identifier name), n]].any (lacksValue kind) = false := by
    simp [lacksValue, given, Node.of]
  refine all.bind ?_
  dsimp only
  rw [valued]
  rfl

theorem reads_declare {word : String} {kind : DeclarationKind} {named : Cursor}
    (declares : word = "const" ∧ kind = .const ∨ word = "var" ∧ kind = .var)
    (on : c.token = .name word false) (unled : c.notes = [])
    (moves : Cursor.next c.token c.rest = .ok named)
    (h : Reads (declareTail (deep k) plain kind) named n d) (unled' : n.notes = [])
    (semicolon : d.token = .mark ";") (moves' : Cursor.next d.token d.rest = .ok e) :
    Reads (deep (k + 1) plain (.statement false)) c n e := by
  have ended := reads_endStatement semicolon moves'
  have moved := Reads.advance moves
  refine reads_statement unled ?_ unled'
  have kind : Reads (declarationKind plain false) c (some kind) named := by
    obtain ⟨here, rest, token, afterBreak, notes⟩ := c
    cases on
    rcases declares with ⟨rfl, rfl⟩ | ⟨rfl, rfl⟩ <;> exact Reads.bind rfl (moved.bind rfl)
  obtain ⟨here, rest, token, afterBreak, notes⟩ := c
  cases on
  rcases declares with ⟨rfl, rfl⟩ | ⟨rfl, rfl⟩ <;>
    exact Reads.bind rfl (kind.bind (h.bind (ended.bind rfl)))

inductive Statements (parse : Grammar) : Cursor → List (Token × Node) → Cursor → Prop where
  | none (c : Cursor) : Statements parse c [] c
  | one {c d e : Cursor} {n : Node} {rest : List (Token × Node)} (starts : (c.token == .mark "\x7d") = false)
      (h : Reads (parse plain (.statement false)) c n d) (more : Statements parse d rest e) :
      Statements parse c ((c.token, n) :: rest) e

theorem Statements.reads_append {items more : List (Token × Node)}
    (h : Statements (deep k) c items d) (rounds : Nat)
    (rest : Reads (repeatWhile (return !(← atMark "\x7d")) (do
      let first ← token
      let statement ← deep k plain (.statement false)
      return (first, statement)) rounds) d more e) :
    Reads (repeatWhile (return !(← atMark "\x7d")) (do
      let first ← token
      let statement ← deep k plain (.statement false)
      return (first, statement)) (rounds + items.length)) c (items ++ more) e := by
  induction h with
  | none => exact rest
  | @one c d _ n items starts read _ ih =>
    have open_ : Reads (return !(← atMark "\x7d")) c true c :=
      congrArg (fun b => Except.ok (!b, c)) starts
    exact Reads.repeatWhile_step open_ (Reads.bind rfl (read.bind rfl)) (ih rest)

theorem Statements.reads {items : List (Token × Node)} (h : Statements (deep k) c items d)
    (closing : d.token = .mark "\x7d") {rounds : Nat} (enough : items.length < rounds) :
    Reads (repeatWhile (return !(← atMark "\x7d")) (do
      let first ← token
      let statement ← deep k plain (.statement false)
      return (first, statement)) rounds) c items d := by
  obtain ⟨more, rfl⟩ : ∃ n, rounds = n + 1 + items.length := ⟨rounds - (items.length + 1), by omega⟩
  obtain ⟨here, rest, token, afterBreak, notes⟩ := d
  cases closing
  have read := h.reads_append (more + 1) (Reads.repeatWhile_stop rfl)
  rwa [List.append_nil] at read

theorem reads_functionBody {inner : Cursor} {items : List Node} (brace : c.token = .mark "\x7b")
    (moves : Cursor.next c.token c.rest = .ok inner)
    (h : Reads (bodyItems (deep k) plain (return !(← atMark "\x7d"))) inner items d)
    (closing : d.token = .mark "\x7d") (moves' : Cursor.next d.token d.rest = .ok e) :
    Reads (functionBody (deep k) plain) c (.of (.body d.notes) items) e :=
  (Reads.expectMark brace moves).bind (h.bind (Reads.bind rfl
    ((Reads.expectMark closing moves').bind rfl)))

end Grammar

end Bundler.Script
