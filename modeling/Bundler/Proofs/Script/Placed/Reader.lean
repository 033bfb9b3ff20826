import Mathlib
import Bundler.Proofs.Script.Body
import Bundler.Proofs.Script.Placed

/-! In every script that is read an `if` stands only where a statement does. This is shown rule by rule
for a reader of whose goals it holds, and so for the grammar to any depth. -/

namespace Bundler.Script

open Std.Do

set_option mvcgen.warning false

namespace Parser

variable {α : Type} {x : Parser α} {P : α → Prop}

/-- What a reader comes to, if it does not fail, has a property. -/
abbrev Yields (x : Parser α) (P : α → Prop) : Prop := ⦃⌜True⌝⦄ x ⦃⇓? a => ⌜P a⌝⦄

theorem yields_iff : x.Yields P ↔ ∀ c a next, x.run c = .ok (a, next) → P a := by
  constructor
  · intro h c a next ran
    have holds := h c trivial
    simp only [wp, PredTrans.apply_pushArg, StateT.run] at holds
    unfold StateT.run at ran
    rw [ran] at holds
    exact holds
  · intro h c _
    simp only [wp, PredTrans.apply_pushArg]
    cases ran : x.run c with
    | error e => trivial
    | ok r => exact h c r.1 r.2 ran

theorem yields_any (x : Parser α) : x.Yields fun _ => True := yields_iff.mpr fun _ _ _ _ => trivial

@[spec]
theorem yields_fail : (fail : Parser α).Yields fun _ => False :=
  yields_iff.mpr fun _ _ _ ran => by cases ran

theorem yields_tooDeep : (throw .tooDeep : Parser α).Yields P :=
  yields_iff.mpr fun _ _ _ ran => by cases ran

@[spec]
theorem yields_lift (n : Option Node) : (lift n).Yields fun a => n = some a := by
  mvcgen [lift]
  all_goals simp

@[spec]
theorem yields_advance : advance.Yields fun _ => True := yields_any _

@[spec]
theorem yields_token : token.Yields fun _ => True := yields_any _

@[spec]
theorem yields_notes : notes.Yields fun _ => True := yields_any _

@[spec]
theorem yields_afterBreak : afterBreak.Yields fun _ => True := yields_any _

@[spec]
theorem yields_peek : peek.Yields fun _ => True := yields_any _

@[spec]
theorem yields_roundsLeft : roundsLeft.Yields fun _ => True := yields_any _

@[spec]
theorem yields_atMark (text : String) : (atMark text).Yields fun _ => True := yields_any _

@[spec]
theorem yields_atWord (text : String) : (atWord text).Yields fun _ => True := yields_any _

@[spec]
theorem yields_takeMark (text : String) : (takeMark text).Yields fun _ => True := yields_any _

@[spec]
theorem yields_takeWord (text : String) : (takeWord text).Yields fun _ => True := yields_any _

@[spec]
theorem yields_expectMark (text : String) : (expectMark text).Yields fun _ => True := yields_any _

@[spec]
theorem yields_expectWord (text : String) : (expectWord text).Yields fun _ => True := yields_any _

@[spec]
theorem yields_endStatement : endStatement.Yields fun _ => True := yields_any _

@[spec]
theorem yields_atIdentifier (scope : Scope) : (atIdentifier scope).Yields fun _ => True :=
  yields_any _

@[spec]
theorem yields_identifierName (scope : Scope) : (identifierName scope).Yields fun _ => True :=
  yields_any _

@[spec]
theorem yields_identifier (scope : Scope) : (identifier scope).Yields Node.Plain := by
  mvcgen [identifier]
  grind

theorem yields_repeatWhile (test : Parser Bool) (item : x.Yields P) (rounds : Nat) :
    (repeatWhile test x rounds).Yields fun xs => ∀ a ∈ xs, P a := by
  induction rounds with
  | zero => exact yields_tooDeep
  | succ rounds ih =>
    have tested := yields_any test
    mvcgen [repeatWhile, tested, item, ih]
    all_goals simp_all

theorem yields_many (test : Parser Bool) (item : x.Yields P) :
    (many test x).Yields fun xs => ∀ a ∈ xs, P a := by
  have rounds := yields_repeatWhile test item
  mvcgen [many, rounds]

theorem yields_commaList (closing : String) (item : x.Yields P) :
    (commaList closing x).Yields fun r => ∀ a ∈ r.1, P a := by
  have single : Parser.Yields (do
      let a ← x
      let comma ← takeMark ","
      unless comma || (← atMark closing) do fail
      return (a, comma)) fun r => P r.1 := by
    mvcgen [item]
  have items := fun test => yields_many test single
  mvcgen [commaList, items]
  rename_i items _ all
  intro a mem
  obtain ⟨r, inItems, rfl⟩ := List.mem_map.mp mem
  exact all r inItems

end Parser

namespace Grammar

open Bundler.Script.Parser

/-- A reader for smaller goals that puts no `if` where no statement stands. -/
structure Places (parse : Grammar) : Prop where
  statement (scope : Scope) (isAlone : Bool) :
    (parse scope (.statement isAlone)).Yields Node.Placed
  expression (scope : Scope) : (parse scope .expression).Yields Node.Plain
  assignment (scope : Scope) : (parse scope .assignment).Yields Node.Plain
  binary (scope : Scope) (floor : Precedence) : (parse scope (.binary floor)).Yields Node.Plain
  unary (scope : Scope) : (parse scope .unary).Yields Node.Plain
  leftSide (scope : Scope) : (parse scope .leftSide).Yields Node.Plain
  constructed (scope : Scope) : (parse scope .constructed).Yields Node.Plain
  pattern (scope : Scope) : (parse scope .pattern).Yields Node.Plain

variable {parse : Grammar}

theorem yields_propertyKey (h : parse.Places) (scope : Scope) :
    (propertyKey parse scope).Yields fun key => key.1.Plain := by
  have assignment := h.assignment
  mvcgen [propertyKey, assignment]
  all_goals grind

theorem yields_patternElement (h : parse.Places) (scope : Scope) :
    (patternElement parse scope).Yields Node.Plain := by
  have assignment := h.assignment
  have pattern := h.pattern
  mvcgen [patternElement, assignment, pattern]
  all_goals grind

theorem yields_restElement {target : Parser Node} (h : target.Yields Node.Plain)
    (closing : String) : (restElement target closing).Yields Node.Plain := by
  mvcgen [restElement, h]
  all_goals grind

theorem yields_arrayPatternItem (h : parse.Places) (scope : Scope) :
    (arrayPatternItem parse scope).Yields Node.Plain := by
  have rest := yields_restElement (h.pattern scope)
  have element := yields_patternElement h
  mvcgen [arrayPatternItem, rest, element]
  all_goals grind

theorem yields_patternPropertyItem (h : parse.Places) (scope : Scope) :
    (patternPropertyItem parse scope).Yields Node.Plain := by
  have rest := yields_restElement (yields_identifier scope)
  have key := yields_propertyKey h
  have element := yields_patternElement h
  have assignment := h.assignment
  mvcgen [patternPropertyItem, rest, key, element, assignment]
  all_goals grind

theorem yields_pattern (h : parse.Places) (scope : Scope) :
    (pattern parse scope).Yields Node.Plain := by
  have items := fun test => yields_many test (yields_arrayPatternItem h scope)
  have properties := fun closing => yields_commaList closing (yields_patternPropertyItem h scope)
  mvcgen [pattern, items, properties]
  all_goals grind

theorem yields_parameters (h : parse.Places) (scope : Scope) :
    (parameters parse scope).Yields Node.Plain := by
  have rest := yields_restElement (h.pattern scope)
  have element := yields_patternElement h
  have item : Parser.Yields (do
      if ← atMark "..." then restElement (parse scope .pattern) ")"
      else patternElement parse scope) Node.Plain := by
    mvcgen [rest, element]
  have items := fun closing => yields_commaList closing item
  mvcgen [parameters, items]
  all_goals grind

theorem placed_asDirective {first : Token} {statement directive : Node}
    (h : asDirective first statement = some directive) : directive.Placed := by
  unfold asDirective at h
  split at h
  · cases h
    exact .mk nofun nofun
  · cases h

theorem placed_markDirectives {items : List (Token × Node)} (h : ∀ item ∈ items, item.2.Placed) :
    ∀ n ∈ markDirectives items, n.Placed := by
  fun_induction markDirectives items with
  | case1 => exact nofun
  | case2 first statement rest directive same ih =>
    obtain ⟨-, later⟩ := List.forall_mem_cons.mp h
    exact List.forall_mem_cons.mpr ⟨placed_asDirective same, ih later⟩
  | case3 first statement rest other =>
    obtain ⟨own, later⟩ := List.forall_mem_cons.mp h
    exact List.forall_mem_cons.mpr ⟨own, List.forall_mem_map.mpr later⟩

theorem yields_bodyItems (h : parse.Places) (scope : Scope) (test : Parser Bool) :
    (bodyItems parse scope test).Yields fun items => ∀ n ∈ items, n.Placed := by
  have statement := h.statement
  have item : Parser.Yields (do
      let first ← token
      let statement ← parse scope (.statement false)
      return (first, statement)) fun item => item.2.Placed := by
    mvcgen [statement]
  have items := yields_many test item
  mvcgen [bodyItems, items]
  exact placed_markDirectives ‹_›

theorem yields_statements (h : parse.Places) (scope : Scope) :
    (statements parse scope).Yields fun items => ∀ n ∈ items, n.Placed :=
  yields_many _ (h.statement scope false)

theorem yields_functionBody (h : parse.Places) (scope : Scope) :
    (functionBody parse scope).Yields Node.Plain := by
  have items := yields_bodyItems h
  mvcgen [functionBody, items]
  exact Node.plain_list ‹_› nofun fun _ => rfl

theorem yields_block (h : parse.Places) (scope : Scope) :
    (block parse scope).Yields Node.Plain := by
  have items := yields_statements h
  mvcgen [block, items]
  exact Node.plain_list ‹_› nofun fun _ => rfl

theorem yields_functionTail (h : parse.Places) (scope : Scope)
    (isAsync isDeclaration needsName : Bool) :
    (functionTail parse scope isAsync isDeclaration needsName).Yields Node.Plain := by
  have parameters := yields_parameters h
  have body := yields_functionBody h
  mvcgen [functionTail, parameters, body]
  all_goals grind

theorem yields_methodTail (h : parse.Places) (m : Modifiers) {key : Node} (isComputed : Bool)
    (plain : key.Plain) : (methodTail parse m key isComputed).Yields Node.Plain := by
  have parameters := yields_parameters h
  have body := yields_functionBody h
  mvcgen [methodTail, parameters, body]
  all_goals grind

theorem yields_classMember (h : parse.Places) (scope : Scope) :
    (classMember parse scope).Yields Node.Plain := by
  have items := yields_statements h
  have read := yields_any (modifiers true)
  have key := yields_propertyKey h
  have method := yields_methodTail h
  have assignment := h.assignment
  mvcgen [classMember, items, read, key, method, assignment]
  case vc1 => exact Node.plain_withNotes.mpr (Node.plain_list ‹_› nofun fun _ => rfl)
  all_goals grind

theorem yields_classTail (h : parse.Places) (scope : Scope) (isDeclaration needsName : Bool) :
    (classTail parse scope isDeclaration needsName).Yields Node.Plain := by
  have semicolons := yields_any (many (atMark ";") advance)
  have classMember := yields_classMember h
  have member : Parser.Yields (do
      let member ← Grammar.classMember parse scope
      let _ ← many (atMark ";") advance
      return member) Node.Plain := by
    mvcgen [classMember, semicolons]
  have members := fun test => yields_many test member
  have leftSide := h.leftSide
  mvcgen [classTail, semicolons, members, leftSide]
  all_goals grind

theorem yields_objectItem (h : parse.Places) (scope : Scope) :
    (objectItem parse scope).Yields Node.Plain := by
  have read := yields_any (modifiers false)
  have key := yields_propertyKey h
  have method := yields_methodTail h
  have assignment := h.assignment
  mvcgen [objectItem, read, key, method, assignment]
  all_goals grind

theorem yields_objectLiteral (h : parse.Places) (scope : Scope) :
    (objectLiteral parse scope).Yields Node.Plain := by
  have items := fun closing => yields_commaList closing (yields_objectItem h scope)
  mvcgen [objectLiteral, items]
  all_goals grind

theorem yields_arrayItem (h : parse.Places) (scope : Scope) :
    (arrayItem parse scope).Yields Node.Plain := by
  have assignment := h.assignment
  mvcgen [arrayItem, assignment]
  all_goals grind

theorem yields_arrayLiteral (h : parse.Places) (scope : Scope) :
    (arrayLiteral parse scope).Yields Node.Plain := by
  have items := fun test => yields_many test (yields_arrayItem h scope)
  mvcgen [arrayLiteral, items]
  all_goals grind

theorem yields_templateRest (h : parse.Places) (scope : Scope) (rounds : Nat) :
    (templateRest parse scope rounds).Yields fun r => ∀ n ∈ r.1, n.Plain := by
  have expression := h.expression
  induction rounds with
  | zero => exact yields_tooDeep
  | succ rounds ih =>
    have moved := fun token rest => yields_any (moveTo token rest)
    mvcgen [templateRest, expression, moved, ih]
    all_goals grind

theorem yields_template (h : parse.Places) (scope : Scope) (isTagged : Bool) :
    (template parse scope isTagged).Yields Node.Plain := by
  have rest := yields_templateRest h
  mvcgen [template, rest]
  all_goals grind

theorem yields_regex : regex.Yields Node.Plain := by
  have moved := fun token rest => yields_any (moveTo token rest)
  mvcgen [regex, moved]
  all_goals grind

theorem yields_callArguments (h : parse.Places) (scope : Scope) :
    (callArguments parse scope).Yields fun r => ∀ n ∈ r.1, n.Plain := by
  have assignment := h.assignment
  have item : Parser.Yields (do
      let leading ← notes
      let item ← if ← takeMark "..." then
          pure (Node.of (.spread false) [← parse scope.allowIn .assignment])
        else parse scope.allowIn .assignment
      return item.withNotes leading) Node.Plain := by
    mvcgen [assignment]
    all_goals grind
  have items := fun closing => yields_commaList closing item
  mvcgen [callArguments, items]
  all_goals grind

theorem yields_parenthesised (h : parse.Places) (scope : Scope) :
    (parenthesised parse scope).Yields Node.Plain := by
  have assignment := h.assignment
  have item : Parser.Yields (do
      if ← takeMark "..." then
        let target ← parse scope.allowIn .assignment
        unless ← atMark ")" do fail
        return Node.of (.spread false) [target]
      else parse scope.allowIn .assignment) Node.Plain := by
    mvcgen [assignment]
    all_goals grind
  have items := fun closing => yields_commaList closing item
  mvcgen [parenthesised, items]
  case vc4 => exact Node.plain_alone ‹∀ n ∈ _, Node.Plain n› ‹_ = [_]› nofun
  case vc5 => exact Node.plain_of nofun (List.forall_mem_singleton.mpr (Node.plain_of nofun ‹_›))
  all_goals grind

theorem yields_importTail (h : parse.Places) (scope : Scope) :
    (importTail parse scope).Yields Node.Plain := by
  have assignment := h.assignment
  mvcgen [importTail, assignment]
  all_goals grind

theorem yields_asyncTail (h : parse.Places) (scope : Scope) :
    (asyncTail parse scope).Yields Node.Plain := by
  have tail := yields_functionTail h
  mvcgen [asyncTail, tail]
  all_goals grind

theorem yields_links (h : parse.Places) (scope : Scope) (mayCall : Bool) (rounds : Nat)
    (base : Node) (isOptional : Bool) (plain : base.Plain) :
    (links parse scope mayCall rounds base isOptional).Yields fun r => r.1.Plain := by
  have expression := h.expression
  have arguments := yields_callArguments h
  have quasi := yields_template h
  induction rounds generalizing base isOptional with
  | zero => exact yields_tooDeep
  | succ rounds ih =>
    mvcgen [links, expression, arguments, quasi, ih]
    all_goals grind

theorem yields_newTail (h : parse.Places) (scope : Scope) :
    (newTail parse scope).Yields Node.Plain := by
  have constructed := h.constructed
  have arguments := yields_callArguments h
  mvcgen [newTail, constructed, arguments]
  all_goals grind

theorem yields_chained (h : parse.Places) (scope : Scope) (base : Node) (plain : base.Plain) :
    (chained parse scope base).Yields Node.Plain := by
  have linked := yields_links h
  mvcgen [chained, linked]
  all_goals grind

theorem yields_primaryWord (h : parse.Places) (scope : Scope) (word : String) :
    (primaryWord parse scope word).Yields Node.Plain := by
  have function := yields_functionTail h
  have class_ := yields_classTail h
  have new := yields_newTail h
  have import_ := yields_importTail h
  have async := yields_asyncTail h
  mvcgen [primaryWord, function, class_, new, import_, async]
  all_goals grind

theorem yields_primary (h : parse.Places) (scope : Scope) :
    (primary parse scope).Yields Node.Plain := by
  have word := yields_primaryWord h
  have quasi := yields_template h
  have group := yields_parenthesised h
  have list := yields_arrayLiteral h
  have record := yields_objectLiteral h
  have expression := yields_regex
  mvcgen [primary, word, quasi, group, list, record, expression]
  all_goals grind

theorem yields_leftSide (h : parse.Places) (scope : Scope) :
    (leftSide parse scope).Yields Node.Plain := by
  have base := yields_primary h
  have chain := yields_chained h
  mvcgen [leftSide, base, chain]
  grind

theorem yields_constructed (h : parse.Places) (scope : Scope) :
    (constructed parse scope).Yields Node.Plain := by
  have base := yields_primary h
  have linked := yields_links h
  mvcgen [constructed, base, linked]
  all_goals grind

theorem yields_unary (h : parse.Places) (scope : Scope) :
    (unary parse scope).Yields Node.Plain := by
  have unary := h.unary
  have leftSide := h.leftSide
  mvcgen [Grammar.unary, unary, leftSide]
  all_goals grind [Node.Plain.simpleTarget?]

theorem yields_binaryRest (h : parse.Places) (scope : Scope) (floor : Precedence) (rounds : Nat)
    (left : Node) (plain : left.Plain) :
    (binaryRest parse scope floor rounds left).Yields Node.Plain := by
  have binary := h.binary
  induction rounds generalizing left with
  | zero => exact yields_tooDeep
  | succ rounds ih =>
    mvcgen [binaryRest, binary, ih]
    all_goals grind

theorem yields_binary (h : parse.Places) (scope : Scope) (floor : Precedence) :
    (binary parse scope floor).Yields Node.Plain := by
  have unary := h.unary
  have rest := yields_binaryRest h
  mvcgen [Grammar.binary, unary, rest]
  all_goals grind

theorem yields_conditional (h : parse.Places) (scope : Scope) :
    (conditional parse scope).Yields Node.Plain := by
  have binary := h.binary
  have assignment := h.assignment
  mvcgen [conditional, binary, assignment]
  all_goals grind

theorem yields_arrowTail (h : parse.Places) (scope : Scope) (isAsync : Bool) (parameters : Node)
    (plain : parameters.Plain) : (arrowTail parse scope isAsync parameters).Yields Node.Plain := by
  have body := yields_functionBody h
  have assignment := h.assignment
  mvcgen [arrowTail, body, assignment]
  all_goals grind

theorem yields_yieldTail (h : parse.Places) (scope : Scope) :
    (yieldTail parse scope).Yields Node.Plain := by
  have assignment := h.assignment
  mvcgen [yieldTail, assignment]
  all_goals grind

theorem yields_assignment (h : parse.Places) (scope : Scope) :
    (assignment parse scope).Yields Node.Plain := by
  have value := yields_yieldTail h
  have left := yields_conditional h
  have arrow := yields_arrowTail h
  have right := h.assignment
  mvcgen [Grammar.assignment, value, left, arrow, right]
  case vc1 =>
    rename_i plain _ _ _ head _ _ _
    intro _ found
    exact Node.plain_parameters (plain.below (head ▸ rfl)) found
  case vc2 =>
    intro _
    exact Node.plain_of nofun (List.forall_mem_singleton.mpr ‹_›)
  all_goals grind [Node.Plain.target?, Node.Plain.simpleTarget?]

theorem yields_expression (h : parse.Places) (scope : Scope) :
    (expression parse scope).Yields Node.Plain := by
  have assignment := h.assignment
  have more := fun test => yields_many test (h.assignment scope)
  mvcgen [Grammar.expression, assignment, more]
  all_goals grind

theorem yields_declarator (h : parse.Places) (scope : Scope) :
    (declarator parse scope).Yields Node.Plain := by
  have pattern := h.pattern
  have assignment := h.assignment
  mvcgen [declarator, pattern, assignment]
  all_goals grind

theorem yields_declarators (h : parse.Places) (scope : Scope) :
    (declarators parse scope).Yields fun items => ∀ n ∈ items, n.Plain := by
  have item := yields_declarator h
  have more := fun test => yields_many test (yields_declarator h scope)
  mvcgen [declarators, item, more]
  all_goals grind

theorem yields_declareTail (h : parse.Places) (scope : Scope) (kind : DeclarationKind) :
    (declareTail parse scope kind).Yields Node.Plain := by
  have items := yields_declarators h
  mvcgen [declareTail, items]
  all_goals grind

theorem yields_importDeclaration (scope : Scope) : (importDeclaration scope).Yields Node.Plain := by
  have source := yields_any sourceText
  have attributes := yields_any importAttributes
  have named := fun scope => yields_any (importNamed scope)
  mvcgen [importDeclaration, source, attributes, named]
  all_goals grind

theorem yields_exportDefaultTail (h : parse.Places) (scope : Scope) :
    (exportDefaultTail parse scope).Yields Node.Plain := by
  have function := yields_functionTail h
  have class_ := yields_classTail h
  have assignment := h.assignment
  mvcgen [exportDefaultTail, function, class_, assignment]
  all_goals grind

theorem yields_exportDeclaration (h : parse.Places) (scope : Scope) :
    (exportDeclaration parse scope).Yields Node.Plain := by
  have default_ := yields_exportDefaultTail h
  have name := yields_any externalName
  have source := yields_any sourceText
  have attributes := yields_any importAttributes
  have names := fun closing => yields_any (commaList closing exportSpecifier)
  have statement := h.statement
  mvcgen [exportDeclaration, default_, name, source, attributes, names, statement]
  all_goals grind [Node.Plain.mk]

theorem yields_condition (h : parse.Places) (scope : Scope) :
    (condition parse scope).Yields Node.Plain := by
  have expression := h.expression
  mvcgen [condition, expression]

theorem yields_alone (h : parse.Places) (scope : Scope) :
    (alone parse scope).Yields Node.Placed := by
  have statement := h.statement
  mvcgen [alone, statement]

theorem yields_ifTail (h : parse.Places) (scope : Scope) :
    (ifTail parse scope).Yields Node.Placed := by
  have test := yields_condition h
  have branch := yields_alone h
  mvcgen [ifTail, test, branch]
  all_goals grind

theorem yields_expressionUnless (h : parse.Places) (scope : Scope) (closing : String) :
    (expressionUnless parse scope closing).Yields Node.Plain := by
  have expression := h.expression
  mvcgen [expressionUnless, expression]
  all_goals grind

theorem yields_countingTail (h : parse.Places) (scope : Scope) (start : Node)
    (plain : start.Plain) : (countingTail parse scope start).Yields Node.Placed := by
  have expression := yields_expressionUnless h
  have body := yields_alone h
  mvcgen [countingTail, expression, body]
  all_goals grind

theorem yields_iteratingTail (h : parse.Places) (scope : Scope) (isAwait : Bool) (left : Node)
    (plain : left.Plain) : (iteratingTail parse scope isAwait left).Yields Node.Placed := by
  have assignment := h.assignment
  have expression := h.expression
  have body := yields_alone h
  mvcgen [iteratingTail, assignment, expression, body]
  all_goals grind

theorem yields_forTail (h : parse.Places) (scope : Scope) :
    (forTail parse scope).Yields Node.Placed := by
  have kind := fun scope isAlone => yields_any (declarationKind scope isAlone)
  have ahead := yields_any atIterating
  have items := yields_declarators h
  have expression := h.expression
  have counting := yields_countingTail h
  have iterating := yields_iteratingTail h
  mvcgen [forTail, kind, ahead, items, expression, counting, iterating]
  all_goals first | exact fun _ => Node.plain_of nofun ‹_› | grind [Node.Plain.target?]

theorem yields_doTail (h : parse.Places) (scope : Scope) :
    (doTail parse scope).Yields Node.Placed := by
  have body := yields_alone h
  have test := yields_condition h
  mvcgen [doTail, body, test]
  all_goals grind

theorem yields_switchCase (h : parse.Places) (scope : Scope) :
    (switchCase parse scope).Yields Node.Plain := by
  have expression := h.expression
  have items := fun test => yields_many test (h.statement scope.allowIn false)
  mvcgen [switchCase, expression, items]
  · exact ⟨Node.placed_case Node.plain_absent ‹_›, nofun⟩
  · exact ⟨Node.placed_case ‹_› ‹_›, nofun⟩

theorem yields_switchTail (h : parse.Places) (scope : Scope) :
    (switchTail parse scope).Yields Node.Plain := by
  have value := yields_condition h
  have cases_ := fun test => yields_many test (yields_switchCase h scope)
  mvcgen [switchTail, value, cases_]
  all_goals grind

theorem yields_tryTail (h : parse.Places) (scope : Scope) :
    (tryTail parse scope).Yields Node.Plain := by
  have block := yields_block h
  have pattern := h.pattern
  mvcgen [tryTail, block, pattern]
  all_goals grind

theorem yields_expressionStatement (h : parse.Places) (scope : Scope) :
    (expressionStatement parse scope).Yields Node.Placed := by
  have expression := h.expression
  have body := yields_alone h
  mvcgen [expressionStatement, expression, body]
  all_goals grind

theorem yields_wordStatement (h : parse.Places) (scope : Scope) (isAlone : Bool) (word : String)
    {rule : Parser Node} (same : wordStatement parse scope isAlone word = some rule) :
    rule.Yields Node.Placed := by
  have conditional := yields_ifTail h
  have loop := yields_forTail h
  have test := yields_condition h
  have body := yields_alone h
  have until_ := yields_doTail h
  have switch := yields_switchTail h
  have try_ := yields_tryTail h
  have function := yields_functionTail h
  have class_ := yields_classTail h
  have label := fun scope => yields_any (jumpLabel scope)
  have ended := yields_any atStatementEnd
  have expression := h.expression
  have export_ := yields_exportDeclaration h
  -- One rule for each word that a statement can start with.
  unfold wordStatement at same
  split at same <;> cases same
  all_goals
    mvcgen [conditional, loop, test, body, until_, switch, try_, function, class_, label, ended,
      expression, export_]
  all_goals grind

theorem yields_otherStatement (h : parse.Places) (scope : Scope) (isAlone : Bool) :
    (otherStatement parse scope isAlone).Yields Node.Placed := by
  have kind := fun scope isAlone => yields_any (declarationKind scope isAlone)
  have declaration := yields_declareTail h
  have function := yields_functionTail h
  have import_ := yields_importDeclaration
  have expression := yields_expressionStatement h
  mvcgen [otherStatement, kind, declaration, function, import_, expression]
  all_goals grind

theorem yields_statementAt (h : parse.Places) (scope : Scope) (isAlone : Bool) :
    (statementAt parse scope isAlone).Yields Node.Placed := by
  have block := yields_block h
  have other := yields_otherStatement h
  have expression := yields_expressionStatement h
  have word := fun word rule => @yields_wordStatement parse h scope isAlone word rule
  mvcgen [statementAt, block, other, expression]
  case vc3 => exact fun s => word _ _ ‹_› s trivial
  all_goals grind

theorem yields_statement (h : parse.Places) (scope : Scope) (isAlone : Bool) :
    (statement parse scope isAlone).Yields Node.Placed := by
  have at_ := yields_statementAt h
  mvcgen [Grammar.statement, at_]
  all_goals grind

theorem places_rules (h : parse.Places) : (rules parse).Places where
  statement := yields_statement h
  expression := yields_expression h
  assignment := yields_assignment h
  binary := yields_binary h
  unary := yields_unary h
  leftSide := yields_leftSide h
  constructed := yields_constructed h
  pattern := yields_pattern h

theorem places_deep (depth : Nat) : (deep depth).Places := by
  -- The grammar at a depth calls itself at the next lower one only.
  induction depth with
  | zero => constructor <;> intros <;> exact yields_tooDeep
  | succ depth ih => exact places_rules ih

end Grammar

/-- In a script that is read an `if` stands only where a statement does. -/
theorem plain_of_parse {text : String} {program : Node} (h : parse true text = .ok program) :
    program.Plain := by
  obtain ⟨c, items, last, -, read, rfl, -⟩ := parseChars_ok h
  have placed := Parser.yields_iff.mp
    (Grammar.yields_bodyItems (Grammar.places_deep _) _ _) c items last read
  exact Node.plain_list placed nofun fun _ => rfl

end Bundler.Script
