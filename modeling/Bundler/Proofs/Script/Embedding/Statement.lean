import Bundler.Proofs.Script.Embedding.Expression
import Bundler.Script.Parse

/-! Declarations, statements and the whole grammar in a text and in a longer one. -/

namespace Bundler.Script.Grammar

open Parser

namespace Carries

variable {later : List Char} {parse parse' : Grammar} {p : Meeting}

theorem declarator (h : Carries later parse parse') (scope : Scope) :
    Embeds p later (declarator parse scope) (declarator parse' scope) := by
  refine (h.reads _ _).bind fun target => (Embeds.takeMark h.quiet (by decide)).bind fun given => ?_
  exact .join (h.reads _ _) (.pure _) fun value => .pure _

theorem declarators (h : Carries later parse parse') (scope : Scope) :
    Embeds p later (declarators parse scope) (declarators parse' scope) := by
  refine (h.declarator scope).bind fun first => ?_
  exact (Embeds.commas h.quiet (h.declarator scope)).bind fun more => .pure _

theorem declareTail (h : Carries later parse parse') (scope : Scope) (kind : DeclarationKind) :
    Embeds p later (declareTail parse scope kind) (declareTail parse' scope kind) :=
  (h.declarators scope).bind fun _ => .ite .fail_bind (.pure _)

theorem startsLet (quiet : Quiet ('\x7d' :: later)) (isAlone : Bool) {α : Type}
    {f g : Bool → Parser α} (h : ∀ starts, Embeds .inside later (f starts) (g starts)) :
    Embeds .inside later (startsLet isAlone >>= f) (startsLet isAlone >>= g) := by
  rw [Grammar.startsLet, bind_assoc, bind_assoc]
  refine .peek_inside quiet fun next next' ahead => ?_
  cases ahead with
  | same =>
    obtain ⟨t, lineBreak⟩ := next
    cases t <;> exact h _
  | last => cases isAlone <;> exact h false

theorem startsUsing (quiet : Quiet ('\x7d' :: later)) {α : Type}
    {f g : Bool → Parser α} (h : ∀ starts, Embeds .inside later (f starts) (g starts)) :
    Embeds .inside later (startsUsing >>= f) (startsUsing >>= g) := by
  rw [Grammar.startsUsing, bind_assoc, bind_assoc]
  refine .peek_inside quiet fun next next' ahead => ?_
  cases ahead with
  | same =>
    obtain ⟨t, lineBreak⟩ := next
    cases t <;> exact h _
  | last => exact h false

theorem startsUsing_atEnd {α : Type} {f g : Bool → Parser α}
    (h : Embeds .atEnd (')' :: later) (f false) (g false)) :
    Embeds .atEnd (')' :: later) (Grammar.startsUsing >>= f) (Grammar.startsUsing >>= g) := by
  rintro ⟨here, rest, token, afterBreak, notes⟩ _ ⟨rfl, rfl, rfl, notes', rfl⟩ b next ran
  exact h _ _ ⟨rfl, rfl, rfl, notes', rfl⟩ b next ran

/-- The word is taken when no declaration starts with it, except in the last case, where what was
taken is put back. -/
theorem declarationKind (h : Carries (')' :: later) parse parse') (scope : Scope) (isAlone : Bool) :
    Embeds p (')' :: later) (declarationKind scope isAlone) (declarationKind scope isAlone) := by
  refine .at_ (.token (fun t _ => ?_) (.pure _))
  have taken {kind : DeclarationKind} :
      Embeds .inside (')' :: later) (do advance; return some kind) (do advance; return some kind) :=
    (Embeds.advance h.quiet).bind fun _ => .pure _
  split
  · exact taken
  · exact .ite .fail_bind taken
  · exact startsLet h.quiet isAlone fun starts => .ite (.ite .fail_bind taken) (.pure _)
  · exact startsUsing h.quiet fun starts => .ite taken (.pure _)
  · refine .peek_inside h.quiet fun next next' ahead => .ite_of ?_ ?_ (.pure _)
    · have same := ahead.onLine_eq (.name "using" false) (by decide) (by decide)
      rw [Bool.and_assoc, same, ← Bool.and_assoc]
    refine .cursor_inside fun c c' inside => (Embeds.advance h.quiet).bind fun _ => ?_
    have restored {p : Meeting} : Embeds p (')' :: later)
        (do set c; return (none : Option DeclarationKind)) (do set c'; return none) := by
      intro _ _ _ kind last ran
      cases ran
      exact ⟨c', rfl, .inl inside⟩
    refine .either (startsUsing h.quiet fun starts => .ite taken restored) ?_
    exact startsUsing_atEnd restored
  · exact .pure _

theorem externalName_stops : Stops externalName := .token .fail .fail

theorem externalName (quiet : Quiet ('\x7d' :: later)) :
    Embeds p later externalName externalName := by
  refine .at_ (.token (fun t _ => ?_) .fail)
  cases t with
  | name text hasEscape => exact (Embeds.advance quiet).bind fun _ => .pure _
  | string value raw lone => exact (Embeds.advance quiet).bind fun _ => .pure _
  | _ => exact .fail

theorem sourceText (quiet : Quiet ('\x7d' :: later)) :
    Embeds p later sourceText sourceText := by
  refine .at_ (.token (fun t _ => ?_) .fail)
  cases t with
  | string value raw lone => exact (Embeds.advance quiet).bind fun _ => .pure _
  | _ => exact .fail

theorem importAttributes (quiet : Quiet ('\x7d' :: later)) :
    Embeds p later importAttributes importAttributes := by
  refine (Embeds.takeWord quiet _).bind fun given => .ite ?_ (.pure _)
  refine (Embeds.expectMark quiet _).bind fun _ => ?_
  refine (Embeds.commaList quiet ((externalName quiet).bind fun key => ?_)
    externalName_stops.bind _).bind fun ⟨items, _⟩ => ?_
  · exact (Embeds.expectMark quiet _).bind fun _ => (sourceText quiet).bind fun value => .pure _
  · exact (Embeds.expectMark quiet _).bind fun _ => .pure _

theorem importSpecifier (quiet : Quiet ('\x7d' :: later)) (scope : Scope) :
    Embeds p later (importSpecifier scope) (importSpecifier scope) := by
  refine (externalName quiet).bind fun imported => (Embeds.takeWord quiet _).bind fun renamed => ?_
  refine .ite ?_ (.ite .fail_bind (.pure _))
  exact (Embeds.identifierName quiet _).bind fun name => .pure _

theorem importNamed (quiet : Quiet ('\x7d' :: later)) (scope : Scope) :
    Embeds p later (importNamed scope) (importNamed scope) := by
  refine (Embeds.takeMark quiet (by decide)).bind fun isAll => .ite ?_ ?_
  · refine (Embeds.expectWord quiet _).bind fun _ => ?_
    exact (Embeds.identifierName quiet _).bind fun name => .pure _
  refine (Embeds.expectMark quiet _).bind fun _ => ?_
  refine (Embeds.commaList quiet (importSpecifier quiet scope) externalName_stops.bind _).bind
    fun ⟨items, _⟩ => ?_
  exact (Embeds.expectMark quiet _).bind fun _ => .pure _

theorem sourced (quiet : Quiet ('\x7d' :: later))
    (n : String → List (ExternalName × String) → Node) :
    Embeds p later
      (do
        let source ← Grammar.sourceText
        let attributes ← Grammar.importAttributes
        endStatement
        return n source attributes)
      (do
        let source ← Grammar.sourceText
        let attributes ← Grammar.importAttributes
        endStatement
        return n source attributes) := by
  refine (sourceText quiet).bind fun source => (importAttributes quiet).bind fun attributes => ?_
  exact (Embeds.endStatement quiet).bind fun _ => .pure _

theorem importNamed_stops (scope : Scope) : Stops (Grammar.importNamed scope) :=
  .behind (.takeMark (by decide)) (Stops.expectMark (by decide)).bind

theorem importDeclaration_stops (scope : Scope) : Stops (Grammar.importDeclaration scope) := by
  have clause {β : Type} {f : Bool → Parser β} (h : Stops (f false)) :
      Stops (do f (← atIdentifier scope)) :=
    .behind (.atIdentifier scope) h
  exact .token (clause (importNamed_stops scope).bind) (clause (importNamed_stops scope).bind)

theorem importDeclaration (quiet : Quiet ('\x7d' :: later)) (scope : Scope) :
    Embeds p later (importDeclaration scope) (importDeclaration scope) := by
  refine .at_ (.either (.token_inside fun t _ => ?_) (.of_stops (importDeclaration_stops scope)))
  split
  · exact sourced quiet _
  refine (Embeds.atIdentifier _).bind fun named => .ite ?_ ?_
  · refine (Embeds.identifierName quiet _).bind fun name => ?_
    refine (Embeds.takeMark quiet (by decide)).bind fun comma => .join (importNamed quiet scope)
      (.pure _) fun more => (Embeds.pure _).bind fun bindings => ?_
    exact (Embeds.expectWord quiet _).bind fun _ => sourced quiet _
  · refine (importNamed quiet scope).bind fun bindings => ?_
    exact (Embeds.expectWord quiet _).bind fun _ => sourced quiet _

theorem exportSpecifier (quiet : Quiet ('\x7d' :: later)) :
    Embeds p later exportSpecifier exportSpecifier := by
  refine (externalName quiet).bind fun name => (Embeds.takeWord quiet _).bind fun renamed => ?_
  exact .ite ((externalName quiet).bind fun outer => .pure _) (.pure _)

theorem exportDefaultTail (h : Carries (')' :: later) parse parse') (scope : Scope) :
    Embeds p (')' :: later) (exportDefaultTail parse scope) (exportDefaultTail parse' scope) := by
  refine (Embeds.takeWord h.quiet _).bind fun isFunction => .ite ?_ ?_
  · exact (h.functionTail _ _ _ _).bind fun n => .pure _
  refine (Embeds.takeWord h.quiet _).bind fun isClass => .ite ?_ ?_
  · exact (h.classTail _ _ _).bind fun n => .pure _
  refine .either (.peek_inside h.quiet fun next next' ahead => .atWord_inside _ fun isAsync => ?_)
    (.of_stops ?_)
  · refine .ite_of ?_ ?_ ?_
    · have same := ahead.onLine_eq (.name "function" false) (by decide) (by decide)
      rw [Bool.and_assoc, same, ← Bool.and_assoc]
    · refine (Embeds.advance h.quiet).bind fun _ => .either ?_ (.advance_atEnd ?_)
      · refine (Embeds.advance h.quiet).bind fun _ => ?_
        exact (h.functionTail _ _ _ _).bind fun n => .pure _
      · exact (functionTail_stops _ _ _ _).bind
    · refine (h.reads _ _).bind fun value => ?_
      exact (Embeds.endStatement h.quiet).bind fun _ => .pure _
  · exact .peek fun next => .behind (.atWord _) (h.stops _ _).bind

theorem exportDeclaration (h : Carries (')' :: later) parse parse') (scope : Scope) :
    Embeds p (')' :: later) (exportDeclaration parse scope) (exportDeclaration parse' scope) := by
  refine (Embeds.takeWord h.quiet _).bind fun isDefault => .ite (h.exportDefaultTail scope) ?_
  refine (Embeds.takeMark h.quiet (by decide)).bind fun isAll => .ite ?_ ?_
  · refine (Embeds.takeWord h.quiet _).bind fun named => .ite ?_ ((Embeds.pure _).bind ?_)
    · refine (externalName h.quiet).bind fun name => (Embeds.pure _).bind fun name => ?_
      exact (Embeds.expectWord h.quiet _).bind fun _ => sourced h.quiet _
    · exact fun name => (Embeds.expectWord h.quiet _).bind fun _ => sourced h.quiet _
  refine (Embeds.takeMark h.quiet (by decide)).bind fun isList => .ite ?_ ?_
  · refine (Embeds.commaList h.quiet (exportSpecifier h.quiet) externalName_stops.bind _).bind
      fun ⟨names, _⟩ => (Embeds.expectMark h.quiet _).bind fun _ => ?_
    refine (Embeds.takeWord h.quiet _).bind fun isFrom => .ite (sourced h.quiet _) ?_
    exact .ite .fail_bind ((Embeds.endStatement h.quiet).bind fun _ => .pure _)
  · refine (h.reads _ _).bind fun declaration => ?_
    split
    · exact .pure _
    · exact .pure _
    · exact .pure _
    · exact .fail

theorem condition (h : Carries (')' :: later) parse parse') (scope : Scope) :
    Embeds p (')' :: later) (condition parse scope) (condition parse' scope) := by
  refine (Embeds.expectMark h.quiet _).bind fun _ => (h.reads _ _).bind fun test => ?_
  exact (Embeds.expectMark h.quiet _).bind fun _ => .pure _

theorem alone (h : Carries (')' :: later) parse parse') (scope : Scope) :
    Embeds p (')' :: later) (alone parse scope) (alone parse' scope) := h.reads _ _

theorem ifTail (h : Carries (')' :: later) parse parse') (scope : Scope) :
    Embeds p (')' :: later) (ifTail parse scope) (ifTail parse' scope) := by
  refine (h.condition scope).bind fun test => (h.alone scope).bind fun consequent => ?_
  refine (Embeds.takeWord h.quiet _).bind fun hasElse => ?_
  exact .join (h.alone scope) (.pure _) fun alternate => .pure _

theorem expressionUnless (h : Carries (')' :: later) parse parse') (scope : Scope) {closing : String}
    (other : closing ≠ "\x7d") :
    Embeds p (')' :: later) (expressionUnless parse scope closing)
      (expressionUnless parse' scope closing) :=
  .atMark other fun _ => .ite (.pure _) (h.reads _ _)

theorem countingTail (h : Carries (')' :: later) parse parse') (scope : Scope) (start : Node) :
    Embeds p (')' :: later) (countingTail parse scope start) (countingTail parse' scope start) := by
  refine (Embeds.expectMark h.quiet _).bind fun _ => ?_
  refine (h.expressionUnless _ (by decide)).bind fun test => ?_
  refine (Embeds.expectMark h.quiet _).bind fun _ => ?_
  refine (h.expressionUnless _ (by decide)).bind fun step => ?_
  refine (Embeds.expectMark h.quiet _).bind fun _ => ?_
  exact (h.alone scope).bind fun body => .pure _

theorem iteratingTail (h : Carries (')' :: later) parse parse') (scope : Scope) (isAwait : Bool)
    (left : Node) :
    Embeds p (')' :: later) (iteratingTail parse scope isAwait left)
      (iteratingTail parse' scope isAwait left) := by
  refine (Embeds.takeWord h.quiet _).bind fun isOf => .ite ?_ ?_
  · refine (h.reads _ _).bind fun right => (Embeds.expectMark h.quiet _).bind fun _ => ?_
    exact (h.alone scope).bind fun body => .pure _
  refine (Embeds.expectWord h.quiet _).bind fun _ => .ite .fail_bind ?_
  refine (h.reads _ _).bind fun right => (Embeds.expectMark h.quiet _).bind fun _ => ?_
  exact (h.alone scope).bind fun body => .pure _

theorem atIterating : Embeds p later atIterating atIterating :=
  (Embeds.atWord _).bind fun _ => (Embeds.atWord _).bind fun _ => .pure _

theorem forTail (h : Carries (')' :: later) parse parse') (scope : Scope) :
    Embeds p (')' :: later) (forTail parse scope) (forTail parse' scope) := by
  refine .join (Embeds.takeWord h.quiet _) (.pure _) fun isAwait => ?_
  refine (Embeds.expectMark h.quiet _).bind fun _ => .atMark (by decide) fun isEmpty => .ite ?_ ?_
  · exact .ite .fail_bind (h.countingTail scope _)
  refine (h.declarationKind scope false).bind fun kind => ?_
  cases kind with
  | some kind =>
    refine (h.declarators _).bind fun items => atIterating.bind fun iterates => .ite ?_ ?_
    · exact h.iteratingTail scope isAwait _
    · exact .ite .fail_bind (h.countingTail scope _)
  | none =>
    refine (h.reads _ _).bind fun start => atIterating.bind fun iterates => .ite ?_ ?_
    · exact .lift _ fun target => h.iteratingTail scope isAwait target
    · exact .ite .fail_bind (h.countingTail scope start)

theorem doTail (h : Carries (')' :: later) parse parse') (scope : Scope) :
    Embeds p (')' :: later) (doTail parse scope) (doTail parse' scope) := by
  refine (h.alone scope).bind fun body => (Embeds.expectWord h.quiet _).bind fun _ => ?_
  refine (h.condition scope).bind fun test => ?_
  exact (Embeds.takeMark h.quiet (by decide)).bind fun _ => .pure _

theorem switchCase_stops (scope : Scope) : Stops (Grammar.switchCase parse scope) :=
  .behind (.takeWord _) (Stops.expectWord _).bind

theorem caseItems (h : Carries (')' :: later) parse parse') (scope : Scope) :
    Embeds p (')' :: later)
      (many (return !((← atMark "\x7d") || (← atWord "case") || (← atWord "default")))
        (parse scope (.statement false)))
      (many (return !((← atMark "\x7d") || (← atWord "case") || (← atWord "default")))
        (parse' scope (.statement false))) := by
  refine .many (.either ?_ ?_)
  · simp only [turn, bind_assoc, pure_bind]
    refine .atMark_inside _ fun brace => .atWord_inside _ fun isCase => ?_
    refine .atWord_inside _ fun isDefault => .ite ((h.reads _ _).bind fun statement => .pure _) ?_
    exact .pure _
  · simp only [turn, bind_assoc, pure_bind]
    refine .atMark_atEnd _ (.behind (.atWord _) (.behind (.atWord _) ?_))
    exact .of_stops (h.stops _ _).bind

theorem switchCase (h : Carries (')' :: later) parse parse') (scope : Scope) :
    Embeds p (')' :: later) (switchCase parse scope) (switchCase parse' scope) := by
  refine (Embeds.takeWord h.quiet _).bind fun isDefault => .ite ((Embeds.pure _).bind ?_) ?_
  · intro test
    refine (Embeds.expectMark h.quiet _).bind fun _ => ?_
    exact (h.caseItems _).bind fun items => .pure _
  · refine (Embeds.expectWord h.quiet _).bind fun _ => (h.reads _ _).bind fun test => ?_
    refine (Embeds.expectMark h.quiet _).bind fun _ => ?_
    exact (h.caseItems _).bind fun items => .pure _

theorem switchTail (h : Carries (')' :: later) parse parse') (scope : Scope) :
    Embeds p (')' :: later) (switchTail parse scope) (switchTail parse' scope) := by
  refine (h.condition scope).bind fun value => (Embeds.expectMark h.quiet _).bind fun _ => ?_
  refine (Embeds.until_ (h.switchCase scope) (switchCase_stops scope) _).bind fun cases => ?_
  exact (Embeds.expectMark h.quiet _).bind fun _ => .pure _

theorem finalBlock (h : Carries (')' :: later) parse parse') (scope : Scope) (body caught : Node) :
    Embeds p (')' :: later)
      (do
        let final ← if ← takeWord "finally" then Grammar.block parse scope else pure .absent
        if caught.isAbsent && final.isAbsent then fail
        return Node.of .try_ [body, caught, final])
      (do
        let final ← if ← takeWord "finally" then Grammar.block parse' scope else pure .absent
        if caught.isAbsent && final.isAbsent then fail
        return Node.of .try_ [body, caught, final]) := by
  refine (Embeds.takeWord h.quiet _).bind fun hasFinally => ?_
  exact .join (h.block scope) (.pure _) fun final => .ite .fail_bind (.pure _)

theorem tryTail (h : Carries (')' :: later) parse parse') (scope : Scope) :
    Embeds p (')' :: later) (tryTail parse scope) (tryTail parse' scope) := by
  refine (h.block scope).bind fun body => (Embeds.takeWord h.quiet _).bind fun hasCatch => ?_
  refine .ite ((Embeds.takeMark h.quiet (by decide)).bind fun isBound => .ite ?_ ?_)
    ((Embeds.pure _).bind (h.finalBlock scope body))
  · refine (h.reads _ _).bind fun binding => (Embeds.expectMark h.quiet _).bind fun _ => ?_
    refine (Embeds.pure _).bind fun binding => (h.block scope).bind fun handler => ?_
    exact (Embeds.pure _).bind (h.finalBlock scope body)
  · refine (Embeds.pure _).bind fun binding => (h.block scope).bind fun handler => ?_
    exact (Embeds.pure _).bind (h.finalBlock scope body)

theorem jumpLabel (h : Carries (')' :: later) parse parse') (scope : Scope) :
    Embeds p (')' :: later) (jumpLabel scope) (jumpLabel scope) := by
  refine .at_ (.either (.afterBreak_inside fun broken => ?_) (.afterBreak_atEnd fun broken => ?_))
  · refine (Embeds.atIdentifier _).bind fun named => .ite ?_ (.pure _)
    exact (Embeds.identifierName h.quiet _).bind fun name => .pure _
  · cases broken <;> exact .atIdentifier_atEnd _ (.pure none)

theorem atStatementEnd : Embeds p later atStatementEnd atStatementEnd := by
  refine .at_ (.either (.atMark_inside _ fun isEmpty => .atMark_inside _ fun brace => ?_) ?_)
  · exact .token_inside fun t _ => .afterBreak_inside fun broken => .pure _
  · exact .atMark_atEnd _ (.atMark_atEnd _ (.token_atEnd (.afterBreak_atEnd fun broken => .pure true)))

theorem expressionStatement_stops (h : Carries (')' :: later) parse parse') (scope : Scope) :
    Stops (Grammar.expressionStatement parse scope) := (h.stops _ _).bind

theorem expressionStatement (h : Carries (')' :: later) parse parse') (scope : Scope) :
    Embeds p (')' :: later) (expressionStatement parse scope) (expressionStatement parse' scope) := by
  refine (h.reads _ _).bind fun value => ?_
  split
  · refine (Embeds.takeMark h.quiet (by decide)).bind fun isLabel => .ite ?_ ?_
    · exact (h.alone scope).bind fun body => .pure _
    · exact (Embeds.endStatement h.quiet).bind fun _ => .pure _
  · exact (Embeds.endStatement h.quiet).bind fun _ => .pure _

theorem wordStatement (h : Carries (')' :: later) parse parse') (scope : Scope) (isAlone : Bool)
    (word : String) :
    Option.Rel (Embeds .either (')' :: later)) (wordStatement parse scope isAlone word)
      (wordStatement parse' scope isAlone word) := by
  unfold Grammar.wordStatement
  split
  · exact .some (h.ifTail scope)
  · exact .some (h.forTail scope)
  · exact .some ((h.condition scope).bind fun test => (h.alone scope).bind fun body => .pure _)
  · exact .some (h.doTail scope)
  · exact .some ((h.condition scope).bind fun object => (h.alone scope).bind fun body => .pure _)
  · exact .some (h.switchTail scope)
  · exact .some (h.tryTail scope)
  · exact .some (.atMark (by decide) fun star => .ite .fail_bind (h.functionTail _ _ _ _))
  · exact .some (.ite .fail_bind (h.classTail _ _ _))
  · refine .some ((h.jumpLabel scope).bind fun label => ?_)
    exact (Embeds.endStatement h.quiet).bind fun _ => .pure _
  · refine .some ((h.jumpLabel scope).bind fun label => ?_)
    exact (Embeds.endStatement h.quiet).bind fun _ => .pure _
  · refine .some (.ite (atStatementEnd.bind fun bare => ?_) .fail_bind)
    refine .join (.pure _) (h.reads _ _) fun value => ?_
    exact (Embeds.endStatement h.quiet).bind fun _ => .pure _
  · refine .some (.either (.afterBreak_inside fun broken => .ite .fail_bind ?_) (.of_stops ?_))
    · refine (h.reads _ _).bind fun value => ?_
      exact (Embeds.endStatement h.quiet).bind fun _ => .pure _
    · refine .afterBreak fun broken => ?_
      cases broken with
      | true => exact Stops.fail.bind
      | false => exact (h.stops _ _).bind
  · exact .some ((Embeds.endStatement h.quiet).bind fun _ => .pure _)
  · exact .some (h.exportDeclaration scope)
  · exact .none

theorem otherStatement (h : Carries (')' :: later) parse parse') (scope : Scope) (isAlone : Bool) :
    Embeds p (')' :: later) (otherStatement parse scope isAlone)
      (otherStatement parse' scope isAlone) := by
  refine (h.declarationKind scope isAlone).bind fun kind => ?_
  cases kind with
  | some kind =>
    refine (h.declareTail scope kind).bind fun declaration => ?_
    exact (Embeds.endStatement h.quiet).bind fun _ => .pure _
  | none =>
    refine .either (.peek_inside h.quiet fun next next' ahead => ?_) (.of_stops ?_)
    · refine .atWord_inside _ fun isAsync => .ite_of ?_ (.ite .fail_bind ?_) ?_
      · have same := ahead.onLine_eq (.name "function" false) (by decide) (by decide)
        rw [Bool.and_assoc, same, ← Bool.and_assoc]
      · refine (Embeds.advance h.quiet).bind fun _ => .either ?_ (.advance_atEnd ?_)
        · exact (Embeds.advance h.quiet).bind fun _ => h.functionTail _ _ _ _
        · exact functionTail_stops _ _ _ _
      · refine .atWord_inside _ fun isImport => .ite_of ?_ ?_ (h.expressionStatement scope)
        · have paren := ahead.token_eq (.mark "(") (by decide) (by decide)
          have dot := ahead.token_eq (.mark ".") (by decide) (by decide)
          simp only [bne, paren, dot]
        · exact (Embeds.advance h.quiet).bind fun _ => importDeclaration h.quiet scope
    · exact .peek fun next => .behind (.atWord _) (.behind (.atWord _) (h.stops _ _).bind)

theorem statementAt_stops (h : Carries (')' :: later) parse parse') (scope : Scope)
    (isAlone : Bool) : Stops (Grammar.statementAt parse scope isAlone) :=
  .token (h.expressionStatement_stops scope) (h.expressionStatement_stops scope)

theorem statementAt (h : Carries (')' :: later) parse parse') (scope : Scope) (isAlone : Bool) :
    Embeds p (')' :: later) (statementAt parse scope isAlone) (statementAt parse' scope isAlone) := by
  refine .at_ (.either (.token_inside fun t _ => ?_) (.of_stops (h.statementAt_stops scope isAlone)))
  split
  · exact h.block scope
  · exact (Embeds.advance h.quiet).bind fun _ => .pure _
  · rename_i word _
    have rules := h.wordStatement scope isAlone word
    revert rules
    generalize Grammar.wordStatement parse scope isAlone word = rule
    generalize Grammar.wordStatement parse' scope isAlone word = rule'
    intro rules
    cases rules with
    | none => exact h.otherStatement scope isAlone
    | some rules => exact (Embeds.advance h.quiet).bind fun _ => rules
  · exact h.expressionStatement scope

theorem statement_stops (h : Carries (')' :: later) parse parse') (scope : Scope) (isAlone : Bool) :
    Stops (Grammar.statement parse scope isAlone) :=
  .notes fun _ => (h.statementAt_stops _ _).bind

theorem statement (h : Carries (')' :: later) parse parse') (scope : Scope) (isAlone : Bool) :
    Embeds p (')' :: later) (statement parse scope isAlone) (statement parse' scope isAlone) := by
  refine .at_ (.either (.notes_inside fun leading => ?_) (.of_stops (h.statement_stops scope isAlone)))
  exact (h.statementAt _ _).bind fun n => .pure _

theorem rules (h : Carries (')' :: later) parse parse') :
    Carries (')' :: later) (rules parse) (rules parse') where
  quiet := h.quiet
  reads scope goal :=
    match goal with
    | .statement isAlone => h.statement scope isAlone
    | .expression => h.expression scope
    | .assignment => h.assignment scope
    | .binary floor => h.binary scope floor
    | .unary => h.unary scope
    | .leftSide => h.leftSide scope
    | .constructed => h.constructed scope
    | .pattern => h.pattern scope
  stops scope goal :=
    match goal with
    | .statement isAlone => h.statement_stops scope isAlone
    | .expression => h.expression_stops scope
    | .assignment => h.assignment_stops scope
    | .binary floor => h.binary_stops scope floor
    | .unary => h.unary_stops scope
    | .leftSide => leftSide_stops scope
    | .constructed => constructed_stops scope
    | .pattern => pattern_stops scope

end Carries

/-- A deeper grammar reads what a shallower one reads, also in a longer text. -/
theorem deep_carries {later : List Char} (quiet : Quiet ('\x7d' :: ')' :: later)) {depth depth' : Nat}
    (deeper : depth ≤ depth') : Carries (')' :: later) (deep depth) (deep depth') := by
  induction depth generalizing depth' with
  | zero => exact ⟨quiet, fun _ _ => .throw _, fun _ _ _ _ _ => nofun⟩
  | succ depth ih =>
    obtain ⟨depth', rfl⟩ : ∃ n, depth' = n + 1 := ⟨depth' - 1, by omega⟩
    exact (ih (Nat.le_of_succ_le_succ deeper)).rules

end Bundler.Script.Grammar
