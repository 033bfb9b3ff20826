import Bundler.Proofs.Script.Embedding
import Bundler.Script.Parse.Function

/-! Patterns, functions and classes in a text and in a longer one. -/

namespace Bundler.Script

namespace Grammar

open Parser

/-- The second reader reads in the longer text what the first reads in the shorter. -/
structure Carries (later : List Char) (parse parse' : Grammar) : Prop where
  quiet : Quiet ('\x7d' :: later)
  reads : ∀ {p : Meeting} scope goal, Embeds p later (parse scope goal) (parse' scope goal)
  stops : ∀ scope goal, Stops (parse scope goal)

variable {later : List Char} {parse parse' : Grammar} {p : Meeting}

namespace Carries

theorem propertyKey_stops (scope : Scope) : Stops (propertyKey parse scope) := .token .fail .fail

theorem propertyKey (h : Carries later parse parse') (scope : Scope) :
    Embeds p later (propertyKey parse scope) (propertyKey parse' scope) := by
  refine .at_ (.either (.token_inside fun t _ => ?_) (.of_stops (propertyKey_stops scope)))
  split
  · exact .moved h.quiet (.pure _)
  · exact .moved h.quiet (.pure _)
  · exact .moved h.quiet (.pure _)
  · exact .moved h.quiet (.pure _)
  · exact .moved h.quiet (.pure _)
  · exact .moved h.quiet ((h.reads _ _).bind fun _ => (Embeds.expectMark h.quiet _).bind fun _ => .pure _)
  · exact .fail

theorem patternElement (h : Carries later parse parse') (scope : Scope) :
    Embeds p later (patternElement parse scope) (patternElement parse' scope) := by
  refine (h.reads _ _).bind fun target => (Embeds.takeMark h.quiet (by decide)).bind fun given => ?_
  exact .ite ((h.reads _ _).bind fun value => .pure _) (.pure _)

theorem restElement (h : Carries later parse parse') {target target' : Parser Node}
    (reads : Embeds .either later target target') (closing : String) :
    Embeds p later (restElement target closing) (restElement target' closing) := by
  refine (Embeds.expectMark h.quiet _).bind fun _ => reads.bind fun target => ?_
  exact .needMark (fun _ => .fail_bind) fun there => .ite (.pure _) .fail_bind

theorem arrayPatternItem (h : Carries later parse parse') (scope : Scope) :
    Embeds p later (arrayPatternItem parse scope) (arrayPatternItem parse' scope) := by
  refine .atMark (by decide) fun isRest => .ite (h.restElement (h.reads _ _) _) ?_
  refine (Embeds.takeMark h.quiet (by decide)).bind fun isHole => .ite (.pure _) ?_
  refine (h.patternElement scope).bind fun element => ?_
  refine (Embeds.takeMark h.quiet (by decide)).bind fun comma => ?_
  exact .atMark (by decide) fun last => .ite (.pure _) .fail_bind

theorem patternElement_stops (h : Carries later parse parse') (scope : Scope) :
    Stops (Grammar.patternElement parse scope) :=
  (h.stops _ _).bind

theorem arrayPatternItem_stops (h : Carries later parse parse') (scope : Scope) :
    Stops (Grammar.arrayPatternItem parse scope) :=
  .behind (.atMark (by decide)) (.behind (.takeMark (by decide)) (h.patternElement_stops scope).bind)

theorem patternPropertyItem (h : Carries later parse parse') (scope : Scope) :
    Embeds p later (patternPropertyItem parse scope) (patternPropertyItem parse' scope) := by
  refine .atMark (by decide) fun isRest => .ite (h.restElement (.identifier h.quiet _) _) ?_
  refine .either (.token_inside fun first _ => ?_) (.of_stops ?_)
  · refine (h.propertyKey scope).bind fun ⟨key, isComputed⟩ => ?_
    refine (Embeds.takeMark h.quiet (by decide)).bind fun colon => .ite ?_ ?_
    · exact (h.patternElement scope).bind fun value => .pure _
    · cases first with
      | name text hasEscape =>
        refine .ite ?_ .fail_bind
        refine (Embeds.takeMark h.quiet (by decide)).bind fun given => .ite ?_ (.pure _)
        exact (h.reads _ _).bind fun value => .pure _
      | _ => exact .fail
  · exact .token (propertyKey_stops scope).bind (propertyKey_stops scope).bind

theorem patternPropertyItem_stops (scope : Scope) :
    Stops (Grammar.patternPropertyItem parse scope) := by
  refine .behind (.atMark (by decide)) ?_
  exact .token (propertyKey_stops scope).bind (propertyKey_stops scope).bind

theorem pattern (h : Carries later parse parse') (scope : Scope) :
    Embeds p later (pattern parse scope) (pattern parse' scope) := by
  refine (Embeds.takeMark h.quiet (by decide)).bind fun isArray => .ite ?_ ?_
  · refine (Embeds.until_ (h.arrayPatternItem scope) (h.arrayPatternItem_stops scope) _).bind
      fun items => ?_
    exact (Embeds.expectMark h.quiet _).bind fun _ => .pure _
  refine (Embeds.takeMark h.quiet (by decide)).bind fun isObject => .ite ?_ (.identifier h.quiet _)
  refine (Embeds.commaList h.quiet (h.patternPropertyItem scope) (patternPropertyItem_stops scope)
    _).bind fun ⟨items, _⟩ => ?_
  exact (Embeds.expectMark h.quiet _).bind fun _ => .pure _

theorem pattern_stops (scope : Scope) : Stops (Grammar.pattern parse scope) :=
  .behind (.takeMark (by decide)) (.behind (.takeMark (by decide)) (.identifier scope))

theorem parameters (h : Carries later parse parse') (scope : Scope) :
    Embeds p later (parameters parse scope) (parameters parse' scope) := by
  refine (Embeds.expectMark h.quiet _).bind fun _ => ?_
  refine (Embeds.commaList h.quiet ?_ ?_ _).bind fun ⟨items, _⟩ => ?_
  · exact .atMark (by decide) fun isRest =>
      .ite (h.restElement (h.reads _ _) _) (h.patternElement scope)
  · exact .behind (.atMark (by decide)) (h.patternElement_stops scope)
  · exact (Embeds.expectMark h.quiet _).bind fun _ => .pure _

theorem parameters_stops (scope : Scope) : Stops (Grammar.parameters parse scope) :=
  (Stops.expectMark (by decide)).bind

theorem statements (h : Carries later parse parse') (scope : Scope) :
    Embeds p later (statements parse scope) (statements parse' scope) :=
  .until_ (h.reads _ _) (h.stops _ _) _

theorem bodyItem_stops (h : Carries later parse parse') (scope : Scope) :
    Stops (do
      let first ← token
      let statement ← parse scope (.statement false)
      return (first, statement)) :=
  .token (h.stops _ _).bind (h.stops _ _).bind

theorem bodyItem (h : Carries later parse parse') (scope : Scope) :
    Embeds .either later
      (do
        let first ← token
        let statement ← parse scope (.statement false)
        return (first, statement))
      (do
        let first ← token
        let statement ← parse' scope (.statement false)
        return (first, statement)) := by
  refine .either (.token_inside fun first _ => ?_) (.of_stops (h.bodyItem_stops scope))
  exact (h.reads _ _).bind fun statement => .pure _

theorem bodyItems (h : Carries later parse parse') (scope : Scope) :
    Embeds p later (bodyItems parse scope (return !(← atMark "\x7d")))
      (bodyItems parse' scope (return !(← atMark "\x7d"))) :=
  (Embeds.until_ (h.bodyItem scope) (h.bodyItem_stops scope) _).bind fun _ => .pure _

theorem functionBody (h : Carries later parse parse') (scope : Scope) :
    Embeds p later (functionBody parse scope) (functionBody parse' scope) := by
  refine (Embeds.expectMark h.quiet _).bind fun _ => (h.bodyItems _).bind fun items => ?_
  exact .closing h.quiet _ fun closing => .pure _

theorem block (h : Carries later parse parse') (scope : Scope) :
    Embeds p later (block parse scope) (block parse' scope) := by
  refine (Embeds.expectMark h.quiet _).bind fun _ => (h.statements _).bind fun items => ?_
  exact (Embeds.expectMark h.quiet _).bind fun _ => .pure _

theorem functionTail (h : Carries later parse parse') (scope : Scope)
    (isAsync isDeclaration needsName : Bool) :
    Embeds p later (functionTail parse scope isAsync isDeclaration needsName)
      (functionTail parse' scope isAsync isDeclaration needsName) := by
  refine (Embeds.takeMark h.quiet (by decide)).bind fun isGenerator => ?_
  refine (Embeds.atIdentifier _).bind fun named => ?_
  refine .ite ((Embeds.identifierName h.quiet _).bind fun name => (Embeds.pure _).bind ?_)
    ((Embeds.pure none).bind ?_)
  all_goals
    exact fun name => (h.parameters _).bind fun ps => (h.functionBody _).bind fun body => .pure _

theorem functionTail_stops (scope : Scope) (isAsync isDeclaration needsName : Bool) :
    Stops (Grammar.functionTail parse scope isAsync isDeclaration needsName) := by
  refine .behind (.takeMark (by decide)) (.behind (.atIdentifier _) ?_)
  cases needsName with
  | true => exact (Stops.identifierName _).bind
  | false => exact .behind (.pure none) (parameters_stops _).bind

theorem takeModifier (h : Carries later parse parse') (word : String) (sameLine allowsStar : Bool) :
    Embeds p later (takeModifier word sameLine allowsStar)
      (takeModifier word sameLine allowsStar) := by
  refine .at_ (.either (.atWord_inside word fun there => .ite ?_ (.pure _))
    (.atWord_atEnd word (.pure _)))
  refine .peek_inside h.quiet fun next next' ahead => ?_
  cases ahead with
  | same => exact .ite ((Embeds.advance h.quiet).bind fun _ => .pure _) (.pure _)
  | last => cases allowsStar <;> exact .pure _

theorem takeModifier_skips (word : String) (sameLine allowsStar : Bool) :
    Skips (Grammar.takeModifier word sameLine allowsStar) false :=
  (Skips.atWord word).bind (.pure _)

theorem modifiers (h : Carries later parse parse') (inClass : Bool) :
    Embeds p later (modifiers inClass) (modifiers inClass) := by
  refine .join (h.takeModifier _ _ _) (.pure _) fun isStatic => ?_
  refine (h.takeModifier _ _ _).bind fun isGetter => .ite (.pure _) ?_
  refine (h.takeModifier _ _ _).bind fun isSetter => .ite (.pure _) ?_
  refine .join (h.takeModifier _ _ _) (.pure _) fun isAccessor => ?_
  refine .join (.pure _) (h.takeModifier _ _ _) fun isAsync => ?_
  exact .join (.pure _) (Embeds.takeMark h.quiet (by decide)) fun isGenerator => .pure _

theorem modifiers_skips (inClass : Bool) :
    Skips (Grammar.modifiers inClass) ⟨false, .plain, false, false, false⟩ := by
  have plain : Skips (do
      let isAsync ← Grammar.takeModifier "async" true true
      let isGenerator ← takeMark "*"
      return (⟨false, .plain, isAsync, isGenerator, false⟩ : Modifiers))
      ⟨false, .plain, false, false, false⟩ :=
    (takeModifier_skips _ _ _).bind ((Skips.takeMark (by decide)).bind (.pure _))
  cases inClass with
  | false =>
    exact (Skips.pure false).bind ((takeModifier_skips _ _ _).bind ((takeModifier_skips _ _ _).bind
      ((Skips.pure false).bind plain)))
  | true =>
    exact (takeModifier_skips _ _ _).bind ((takeModifier_skips _ _ _).bind
      ((takeModifier_skips _ _ _).bind ((takeModifier_skips _ _ _).bind plain)))

theorem methodTail (h : Carries later parse parse') (m : Modifiers) (key : Node)
    (isComputed : Bool) :
    Embeds p later (methodTail parse m key isComputed) (methodTail parse' m key isComputed) := by
  refine (h.parameters _).bind fun ps => .ite ?_ .fail_bind
  exact (h.functionBody _).bind fun body => .pure _

theorem classMember_stops (scope : Scope) : Stops (Grammar.classMember parse scope) := by
  refine .notes fun leading => .peek fun ⟨next, lineBreak⟩ => .behind (.atWord _) ?_
  exact .behind (modifiers_skips true) (propertyKey_stops scope).bind

theorem classMember (h : Carries later parse parse') (scope : Scope) :
    Embeds p later (classMember parse scope) (classMember parse' scope) := by
  refine .at_ (.either (.notes_inside fun leading => ?_) (.of_stops (classMember_stops scope)))
  refine .peek_inside h.quiet fun next next' ahead => .atWord_inside _ fun isStatic => ?_
  refine .ite_of (congrArg (isStatic && ·) (ahead.token_eq _ (by decide) (by decide))) ?_ ?_
  · refine (Embeds.advance h.quiet).bind fun _ => (Embeds.expectMark h.quiet _).bind fun _ => ?_
    refine (h.statements _).bind fun items => (Embeds.expectMark h.quiet _).bind fun _ => .pure _
  refine (h.modifiers true).bind fun m => (h.propertyKey scope).bind fun ⟨key, isComputed⟩ => ?_
  refine .atMark (by decide) fun isMethod => .ite ?_ (.ite ?_ .fail_bind)
  · exact (h.methodTail _ _ _).bind fun method => .pure _
  · refine (Embeds.takeMark h.quiet (by decide)).bind fun given => .join (h.reads _ _) (.pure _)
      fun value => ?_
    exact (Embeds.endStatement h.quiet).bind fun _ => .pure _

theorem classTail (h : Carries later parse parse') (scope : Scope) (isDeclaration needsName : Bool) :
    Embeds p later (classTail parse scope isDeclaration needsName)
      (classTail parse' scope isDeclaration needsName) := by
  refine (Embeds.atWord _).bind fun extends_ => .join (.pure _) (.atIdentifier _) fun named => ?_
  refine .ite ((Embeds.identifierName h.quiet _).bind fun name => (Embeds.pure _).bind ?_)
    ((Embeds.pure none).bind ?_)
  all_goals
    intro name
    refine (Embeds.takeWord h.quiet _).bind fun derived => .join (h.reads _ _) (.pure _) fun base => ?_
    refine (Embeds.expectMark h.quiet _).bind fun _ => (Embeds.semicolons h.quiet).bind fun _ => ?_
    refine (Embeds.until_ ?_ (classMember_stops scope).bind _).bind fun members => ?_
    · refine (h.classMember scope).bind fun member => ?_
      exact (Embeds.semicolons h.quiet).bind fun _ => .pure _
    · exact (Embeds.expectMark h.quiet _).bind fun _ => .pure _

end Carries

end Grammar

end Bundler.Script
