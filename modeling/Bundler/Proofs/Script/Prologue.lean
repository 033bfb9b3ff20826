import Bundler.Proofs.Settled

/-! Directives. A string that is a statement of its own is a directive only among the first of a body,
and a statement that is read elsewhere is none; nor does a guard come down to one. So pruning a body and
binding its requires leaves it the directives that it had. -/

namespace Bundler.Script

set_option mvcgen.warning false

def Form.mayDirect : Form → Bool
  | .directive _ | .string _ _ | .evaluate | .ifElse => true
  | _ => false

namespace Node

def directive? (n : Node) : Option String :=
  match n.form with
  | .directive raw => some raw
  | _ => none

def directives (body : Node) : List String := body.parts.filterMap directive?

def Simple (n : Node) : Prop := ∀ value lone, n.form = .string value lone → n.parts = []

/-- A statement that is neither a directive nor a guard that comes down to one. If it is a string, then
it is nothing else. -/
structure Undirected (n : Node) : Prop where
  settles (env : String) : (settle env n).bind directive? = none
  simple : n.form = .evaluate → ∀ part ∈ n.parts, part.Simple

variable {env : String} {n : Node}

theorem settle_of_form (h : n.form ≠ .ifElse) : settle env n = some n := by
  apply settle.eq_2
  rintro _ _ _ _ rfl
  exact h rfl

theorem directive?_eq_some {raw : String} : n.directive? = some raw ↔ n.form = .directive raw := by
  rw [directive?]
  split
  · rename_i same
    rw [same, Option.some_inj, Form.directive.injEq]
  · rename_i other
    exact ⟨nofun, fun same => (other _ same).elim⟩

theorem directive?_congr {n' : Node} (h : n.form = n'.form) : n.directive? = n'.directive? := by
  rw [directive?, directive?, h]

@[grind →]
theorem Simple.of_form (h : n.form.mayDirect = false) : n.Simple := by
  intro value lone isString
  rw [isString] at h
  cases h

namespace Undirected

theorem of_form (h : n.form.mayDirect = false) : n.Undirected where
  settles env := by
    have statement : n.form ≠ .ifElse := fun isIf => by rw [isIf] at h; cases h
    rw [settle_of_form statement, Option.bind_some]
    cases found : n.directive? with
    | none => rfl
    | some raw =>
      rw [directive?_eq_some.mp found] at h
      cases h
  simple isEvaluate := by
    rw [isEvaluate] at h
    cases h

theorem evaluate {value : Node} (h : value.Simple) : Undirected (.of .evaluate [value]) where
  settles env := by
    rw [settle_of_form (show Form.evaluate ≠ .ifElse from nofun)]
    rfl
  simple _ := List.forall_mem_singleton.mpr h

theorem ifElse {test consequent alternate : Node} (yes : consequent.Undirected)
    (no : alternate.Undirected) : Undirected (.of .ifElse [test, consequent, alternate]) where
  settles env := by
    rw [of, settle]
    split
    · exact yes.settles env
    · split
      · rfl
      · exact no.settles env
    · rfl
  simple := nofun

theorem withNotes (h : n.Undirected) (notes : List Comment) : (n.withNotes notes).Undirected where
  settles env := by
    rw [← h.settles env]
    fun_cases settle env n with
    | case1 own test consequent alternate holds => rw [Node.withNotes, settle, holds]
    | case2 own test consequent alternate fails gone =>
      rw [Node.withNotes, settle, fails, if_pos gone]
    | case3 own test consequent alternate fails left =>
      rw [Node.withNotes, settle, fails, if_neg left]
    | case4 own test consequent alternate undecided =>
      rw [Node.withNotes, settle, undecided]
      rfl
    | case5 n other =>
      have same : settle env (n.withNotes notes) = some (n.withNotes notes) := by
        apply settle.eq_2
        rintro _ test consequent alternate same
        obtain ⟨form, own, parts⟩ := n
        cases same
        exact other own test consequent alternate rfl
      rw [same]
      rfl
  simple := h.simple

end Undirected

end Node

namespace Grammar

open Bundler.Script.Parser

/-- A rule that comes to a node of one of the other forms. -/
abbrev Undirecting (rule : Parser Node) : Prop := rule.Yields fun n => n.form.mayDirect = false

theorem undirecting_importDeclaration (scope : Scope) : Undirecting (importDeclaration scope) := by
  have source := yields_any sourceText
  have attributes := yields_any importAttributes
  have named := fun scope => yields_any (importNamed scope)
  mvcgen [importDeclaration, source, attributes, named]

section

variable (parse : Grammar)

theorem undirecting_block (scope : Scope) : Undirecting (block parse scope) := by
  have items := fun scope => yields_any (statements parse scope)
  mvcgen [block, items]

theorem undirecting_functionTail (scope : Scope) (isAsync isDeclaration needsName : Bool) :
    Undirecting (functionTail parse scope isAsync isDeclaration needsName) := by
  have ps := fun scope => yields_any (parameters parse scope)
  have body := fun scope => yields_any (functionBody parse scope)
  mvcgen [functionTail, ps, body]

theorem undirecting_classTail (scope : Scope) (isDeclaration needsName : Bool) :
    Undirecting (classTail parse scope isDeclaration needsName) := by
  have goal := fun scope goal => yields_any (parse scope goal)
  have commas := yields_any (many (atMark ";") advance)
  have members := fun test (item : Parser Node) => yields_any (many test item)
  mvcgen [classTail, goal, commas, members]

theorem undirecting_declareTail (scope : Scope) (kind : DeclarationKind) :
    Undirecting (declareTail parse scope kind) := by
  have items := fun scope => yields_any (declarators parse scope)
  mvcgen [declareTail, items]

theorem undirecting_exportDeclaration (scope : Scope) :
    Undirecting (exportDeclaration parse scope) := by
  have goal := fun scope goal => yields_any (parse scope goal)
  have function := fun scope isAsync isDeclaration needsName =>
    yields_any (functionTail parse scope isAsync isDeclaration needsName)
  have class_ := fun scope isDeclaration needsName =>
    yields_any (classTail parse scope isDeclaration needsName)
  have name := yields_any externalName
  have source := yields_any sourceText
  have attributes := yields_any importAttributes
  have names := fun closing => yields_any (commaList closing exportSpecifier)
  mvcgen [exportDeclaration, exportDefaultTail, goal, function, class_, name, source, attributes,
    names]
  all_goals
    intros
    contradiction

theorem undirecting_forTail (scope : Scope) : Undirecting (forTail parse scope) := by
  have kind := fun scope isAlone => yields_any (declarationKind scope isAlone)
  have ahead := yields_any atIterating
  have items := fun scope => yields_any (declarators parse scope)
  have goal := fun scope goal => yields_any (parse scope goal)
  have part := fun scope closing => yields_any (expressionUnless parse scope closing)
  have body := fun scope => yields_any (alone parse scope)
  mvcgen [forTail, countingTail, iteratingTail, kind, ahead, items, goal, part, body]

theorem undirecting_doTail (scope : Scope) : Undirecting (doTail parse scope) := by
  have body := fun scope => yields_any (alone parse scope)
  have test := fun scope => yields_any (condition parse scope)
  mvcgen [doTail, body, test]

theorem undirecting_switchTail (scope : Scope) : Undirecting (switchTail parse scope) := by
  have value := fun scope => yields_any (condition parse scope)
  have cases_ := fun test scope => yields_any (many test (switchCase parse scope))
  mvcgen [switchTail, value, cases_]

theorem undirecting_tryTail (scope : Scope) : Undirecting (tryTail parse scope) := by
  have inner := fun scope => yields_any (block parse scope)
  have goal := fun scope goal => yields_any (parse scope goal)
  mvcgen [tryTail, inner, goal]

@[grind ←]
theorem simple_of {form : Form} {parts : List Node} (h : ∀ value lone, form ≠ .string value lone) :
    (Node.of form parts).Simple := fun value lone isString => (h value lone isString).elim

@[grind ←]
theorem simple_leaf (form : Form) : (Node.leaf form).Simple := fun _ _ _ => rfl

theorem simple_primary (scope : Scope) : (primary parse scope).Yields Node.Simple := by
  have goal := fun scope goal => yields_any (parse scope goal)
  have function := undirecting_functionTail parse
  have class_ := undirecting_classTail parse
  have arguments := fun scope => yields_any (callArguments parse scope)
  have items := fun closing (item : Parser Node) => yields_any (commaList closing item)
  have elements := fun test (item : Parser Node) => yields_any (many test item)
  have rest := fun scope rounds => yields_any (templateRest parse scope rounds)
  have moved := fun token rest => yields_any (moveTo token rest)
  mvcgen [primary, primaryWord, identifier, newTail, importTail, asyncTail, template, parenthesised,
    arrayLiteral, objectLiteral, regex, goal, function, class_, arguments, items, elements, rest, moved]
  all_goals grind

theorem simple_links (scope : Scope) (mayCall : Bool) (rounds : Nat) (base : Node)
    (isOptional : Bool) (simple : base.Simple) :
    (links parse scope mayCall rounds base isOptional).Yields fun r => r.1.Simple := by
  have goal := fun scope goal => yields_any (parse scope goal)
  have arguments := fun scope => yields_any (callArguments parse scope)
  have quasi := fun scope isTagged => yields_any (template parse scope isTagged)
  induction rounds generalizing base isOptional with
  | zero => exact yields_tooDeep
  | succ rounds ih =>
    mvcgen [links, goal, arguments, quasi, ih]
    all_goals grind

theorem simple_leftSide (scope : Scope) : (leftSide parse scope).Yields Node.Simple := by
  have base := simple_primary parse
  have linked := simple_links parse
  mvcgen [leftSide, chained, base, linked]
  all_goals grind

theorem simple_binaryRest (scope : Scope) (floor : Precedence) (rounds : Nat) (left : Node)
    (simple : left.Simple) : (binaryRest parse scope floor rounds left).Yields Node.Simple := by
  have goal := fun scope goal => yields_any (parse scope goal)
  induction rounds generalizing left with
  | zero => exact yields_tooDeep
  | succ rounds ih =>
    mvcgen [binaryRest, goal, ih]
    all_goals grind

end

/-- A reader for smaller goals that takes no statement for a directive and gives strings no parts. -/
structure Undirects (parse : Grammar) : Prop where
  statement (scope : Scope) (isAlone : Bool) :
    (parse scope (.statement isAlone)).Yields Node.Undirected
  expression (scope : Scope) : (parse scope .expression).Yields Node.Simple
  assignment (scope : Scope) : (parse scope .assignment).Yields Node.Simple
  binary (scope : Scope) (floor : Precedence) : (parse scope (.binary floor)).Yields Node.Simple
  unary (scope : Scope) : (parse scope .unary).Yields Node.Simple
  leftSide (scope : Scope) : (parse scope .leftSide).Yields Node.Simple

section

variable {parse : Grammar} (h : parse.Undirects)
include h

theorem simple_unary (scope : Scope) :
    (unary parse scope).Yields Node.Simple := by
  have operand := fun scope => yields_any (parse scope .unary)
  have leftSide := h.leftSide
  mvcgen [Grammar.unary, operand, leftSide]
  all_goals grind

theorem simple_binary (scope : Scope) (floor : Precedence) :
    (binary parse scope floor).Yields Node.Simple := by
  have unary := h.unary
  have rest := simple_binaryRest parse
  mvcgen [Grammar.binary, unary, rest]
  all_goals grind

theorem simple_assignment (scope : Scope) :
    (assignment parse scope).Yields Node.Simple := by
  have goal := fun scope => yields_any (parse scope .assignment)
  have left := h.binary
  have body := fun scope => yields_any (functionBody parse scope)
  mvcgen [Grammar.assignment, yieldTail, conditional, arrowTail, goal, left, body]
  all_goals grind

theorem simple_expression (scope : Scope) :
    (expression parse scope).Yields Node.Simple := by
  have assignment := h.assignment
  have more := fun test (item : Parser Node) => yields_any (many test item)
  mvcgen [Grammar.expression, assignment, more]
  all_goals grind

theorem undirected_expressionStatement (scope : Scope) :
    (expressionStatement parse scope).Yields Node.Undirected := by
  have value := h.expression
  have body := fun scope => yields_any (alone parse scope)
  mvcgen [expressionStatement, value, body]
  all_goals first | exact .of_form rfl | exact .evaluate ‹_›

theorem undirected_ifTail (scope : Scope) :
    (ifTail parse scope).Yields Node.Undirected := by
  have test := fun scope => yields_any (condition parse scope)
  have branch := fun scope => h.statement scope true
  mvcgen [ifTail, alone, test, branch]
  · exact .ifElse ‹_› ‹_›
  · exact .ifElse ‹_› (.of_form rfl)

theorem undirected_wordStatement (scope : Scope) (isAlone : Bool)
    (word : String) {rule : Parser Node} (same : wordStatement parse scope isAlone word = some rule) :
    rule.Yields Node.Undirected := by
  have guard := undirected_ifTail h
  have loop := undirecting_forTail parse
  have test := fun scope => yields_any (condition parse scope)
  have body := fun scope => yields_any (alone parse scope)
  have until_ := undirecting_doTail parse
  have switch := undirecting_switchTail parse
  have try_ := undirecting_tryTail parse
  have function := undirecting_functionTail parse
  have class_ := undirecting_classTail parse
  have label := fun scope => yields_any (jumpLabel scope)
  have ended := yields_any atStatementEnd
  have goal := fun scope goal => yields_any (parse scope goal)
  have export_ := undirecting_exportDeclaration parse
  -- One rule for each word that a statement can start with.
  unfold wordStatement at same
  split at same <;> cases same
  all_goals
    mvcgen [guard, loop, test, body, until_, switch, try_, function, class_, label, ended, goal,
      export_]
  all_goals first | exact fun _ => .of_form | exact .of_form rfl

theorem undirected_otherStatement (scope : Scope) (isAlone : Bool) :
    (otherStatement parse scope isAlone).Yields Node.Undirected := by
  have kind := fun scope isAlone => yields_any (declarationKind scope isAlone)
  have declaration := undirecting_declareTail parse
  have function := undirecting_functionTail parse
  have import_ := undirecting_importDeclaration
  have expression := undirected_expressionStatement h
  mvcgen [otherStatement, kind, declaration, function, import_, expression]
  all_goals first | exact fun _ => .of_form | exact .of_form ‹_›

theorem undirected_statementAt (scope : Scope) (isAlone : Bool) :
    (statementAt parse scope isAlone).Yields Node.Undirected := by
  have block := undirecting_block parse
  have other := undirected_otherStatement h
  have expression := undirected_expressionStatement h
  have word := fun word rule => @undirected_wordStatement parse h scope isAlone word rule
  mvcgen [statementAt, block, other, expression]
  case vc2 => exact .of_form rfl
  case vc3 => exact fun s => word _ _ ‹_› s trivial
  all_goals exact fun _ => .of_form

theorem undirected_statement (scope : Scope) (isAlone : Bool) :
    (statement parse scope isAlone).Yields Node.Undirected := by
  have at_ := undirected_statementAt h
  mvcgen [Grammar.statement, at_]
  exact .withNotes ‹_› _

theorem undirects_rules : (rules parse).Undirects where
  statement := undirected_statement h
  expression := simple_expression h
  assignment := simple_assignment h
  binary := simple_binary h
  unary := simple_unary h
  leftSide := simple_leftSide parse

end

theorem undirects_deep (depth : Nat) : (deep depth).Undirects := by
  induction depth with
  | zero => constructor <;> intros <;> exact yields_tooDeep
  | succ depth ih => exact undirects_rules ih

end Grammar

namespace Node

/-- Pruning leaves a part of a body the directive that it is, and makes it none. -/
def Directs (n : Node) : Prop := ∀ env, (settle env n).bind directive? = n.directive?

variable {n : Node}

theorem Undirected.directive?_eq_none (h : n.Undirected) : n.directive? = none := by
  by_cases guard : n.form = .ifElse
  · rw [directive?, guard]
  · have itself := h.settles ""
    rwa [settle_of_form guard, Option.bind_some] at itself

theorem Undirected.directs (h : n.Undirected) : n.Directs :=
  fun env => (h.settles env).trans h.directive?_eq_none.symm

theorem directs_of_form (h : n.form ≠ .ifElse) : n.Directs := by
  intro env
  rw [settle_of_form h, Option.bind_some]

theorem directs_asDirective {first : Token} {statement directive : Node}
    (h : Grammar.asDirective first statement = some directive) : directive.Directs := by
  unfold Grammar.asDirective at h
  split at h
  · cases h
    exact directs_of_form nofun
  · cases h

theorem directs_markDirectives {items : List (Token × Node)}
    (h : ∀ item ∈ items, item.2.Undirected) : ∀ n ∈ Grammar.markDirectives items, n.Directs := by
  fun_induction Grammar.markDirectives items with
  | case1 => exact fun _ mem => absurd mem List.not_mem_nil
  | case2 first statement rest directive same ih =>
    obtain ⟨-, later⟩ := List.forall_mem_cons.mp h
    exact List.forall_mem_cons.mpr ⟨directs_asDirective same, ih later⟩
  | case3 first statement rest other =>
    obtain ⟨own, later⟩ := List.forall_mem_cons.mp h
    exact List.forall_mem_cons.mpr
      ⟨own.directs, List.forall_mem_map.mpr fun item mem => (later item mem).directs⟩

end Node

namespace Grammar

open Bundler.Script.Parser

variable {parse : Grammar}

theorem undirected_found (h : parse.Undirects) (scope : Scope) (test : Parser Bool) :
    (many test do
      let first ← token
      let statement ← parse scope (.statement false)
      return (first, statement)).Yields fun found => ∀ item ∈ found, item.2.Undirected := by
  have statement := h.statement scope false
  have item : Parser.Yields (do
      let first ← token
      let statement ← parse scope (.statement false)
      return (first, statement)) fun item => item.2.Undirected := by
    mvcgen [statement]
  exact yields_many test item

theorem directs_bodyItems (h : parse.Undirects) (scope : Scope) (test : Parser Bool) :
    (bodyItems parse scope test).Yields fun items => ∀ n ∈ items, n.Directs := by
  have found := undirected_found h
  mvcgen [bodyItems, found]
  exact Node.directs_markDirectives ‹_›

end Grammar

namespace Node

theorem directives_live {body : Node} (listed : body.form.slot = .listed)
    (h : ∀ part ∈ body.parts, part.Directs) (env : String) :
    (body.live env).directives = body.directives := by
  have each : ∀ part ∈ body.parts,
      (settle env part).bind (directive? ∘ live env) = part.directive? := by
    intro part mem
    rw [← h part mem env]
    congr
    funext kept
    exact directive?_congr (by rw [live_settled])
  rw [live_settled, listed, settledParts, directives, directives, List.filterMap_map,
    List.filterMap_filterMap]
  exact List.filterMap_congr each

theorem directives_fill {body : Node} (other : body.requireSpecifier? = none)
    (answers : List (Option ContentId)) : (body.fill answers).1.directives = body.directives := by
  rw [fill_of_other answers other, directives, directives]
  have parts := forall₂_fillParts body.parts answers
  generalize body.parts = ns, (fillParts body.parts answers).1 = filled at parts
  induction parts with
  | nil => rfl
  | cons one _ ih =>
    rw [List.filterMap_cons, List.filterMap_cons, ih,
      ← directive?_congr (transparent_fill.form one)]

end Node

theorem directives_of_parse {text : String} {alone : Node} (h : parse true text = .ok alone)
    (notes : List Comment) (env : String) (answers : List (Option ContentId)) :
    (((Node.of (.body notes) alone.parts).live env).fill answers).1.directives = alone.directives := by
  obtain ⟨c, items, last, -, read, rfl, -⟩ := parseChars_ok h
  have directs := Parser.yields_iff.mp
    (Grammar.directs_bodyItems (Grammar.undirects_deep _) _ _) c items last read
  rw [Node.directives_fill rfl, Node.directives_live rfl directs]
  rfl

namespace Node

/-- A directive as the statement that it is behind others; anything else is the same there. -/
inductive Demoted : Node → Node → Prop where
  | same (n : Node) : Demoted n n
  | string (raw value : String) (lone : Bool) (notes own : List Comment) :
      Demoted ⟨.directive raw, notes, []⟩ ⟨.evaluate, notes, [⟨.string value lone, own, []⟩]⟩

theorem Demoted.finished {n n' : Node} (h : Demoted n n') (finished : n.isUnfinished = false) :
    n'.isUnfinished = false := by
  cases h with
  | same => exact finished
  | string => rfl

theorem forall₂_demoted {found : List (Token × Node)} (h : ∀ item ∈ found, item.2.Undirected) :
    List.Forall₂ Demoted (Grammar.markDirectives found) (found.map (·.2)) := by
  fun_induction Grammar.markDirectives found with
  | case1 => exact .nil
  | case2 first statement rest directive marked ih =>
    obtain ⟨own, later⟩ := List.forall_mem_cons.mp h
    refine .cons ?_ (ih later)
    unfold Grammar.asDirective at marked
    split at marked
    · rename_i raw _ notes value lone notes' parts
      cases marked
      have leaf := own.simple rfl _ (List.mem_singleton_self _) value lone rfl
      dsimp only at leaf ⊢
      rw [leaf]
      exact .string raw value lone notes notes'
    · cases marked
  | case3 first statement rest => exact List.forall₂_same.mpr fun n _ => .same n

end Node

end Bundler.Script
