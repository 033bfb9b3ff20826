import Bundler.Proofs.Script.Embedding.Function
import Bundler.Script.Parse.Expression

/-! Expressions in a text and in a longer one. -/

namespace Bundler.Script.Grammar

open Parser

namespace Carries

variable {later : List Char} {parse parse' : Grammar} {p : Meeting}

theorem objectItem_stops (scope : Scope) :
    Stops (Grammar.objectItem parse scope) := by
  refine .behind (.takeMark (by decide)) (.behind (modifiers_skips false) ?_)
  exact .token (propertyKey_stops _).bind (propertyKey_stops _).bind

theorem objectItem (h : Carries later parse parse') (scope : Scope) :
    Embeds p later (objectItem parse scope) (objectItem parse' scope) := by
  refine (Embeds.takeMark h.quiet (by decide)).bind fun isSpread => .ite ?_ ?_
  · exact (h.reads _ _).bind fun value => .pure _
  refine (h.modifiers false).bind fun m => .either (.token_inside fun first _ => ?_) (.of_stops ?_)
  · refine (h.propertyKey _).bind fun ⟨key, isComputed⟩ => .atMark (by decide) fun isMethod => ?_
    refine .ite (h.methodTail _ _ _) (.ite .fail ?_)
    refine (Embeds.takeMark h.quiet (by decide)).bind fun colon => .ite ?_ ?_
    · exact (h.reads _ _).bind fun value => .pure _
    · cases first with
      | name text hasEscape =>
        refine .ite ?_ .fail_bind
        refine (Embeds.takeMark h.quiet (by decide)).bind fun given => .ite ?_ (.pure _)
        exact (h.reads _ _).bind fun value => .pure _
      | _ => exact .fail
  · exact .token (propertyKey_stops _).bind (propertyKey_stops _).bind

theorem objectLiteral (h : Carries later parse parse') (scope : Scope) :
    Embeds p later (objectLiteral parse scope) (objectLiteral parse' scope) := by
  refine (Embeds.expectMark h.quiet _).bind fun _ => ?_
  refine (Embeds.commaList h.quiet (h.objectItem scope) (objectItem_stops scope) _).bind
    fun ⟨items, trailing⟩ => ?_
  exact (Embeds.expectMark h.quiet _).bind fun _ => .pure _

theorem arrayItem (h : Carries later parse parse') (scope : Scope) :
    Embeds p later (arrayItem parse scope) (arrayItem parse' scope) := by
  refine (Embeds.takeMark h.quiet (by decide)).bind fun isHole => .ite (.pure _) ?_
  refine (Embeds.takeMark h.quiet (by decide)).bind fun isSpread => .ite ?_ ?_
  · refine (h.reads _ _).bind fun value => (Embeds.pure _).bind fun element => ?_
    refine (Embeds.takeMark h.quiet (by decide)).bind fun comma => ?_
    exact .atMark (by decide) fun last => .ite (.pure _) .fail_bind
  · refine (h.reads _ _).bind fun element => ?_
    refine (Embeds.takeMark h.quiet (by decide)).bind fun comma => ?_
    exact .atMark (by decide) fun last => .ite (.pure _) .fail_bind

theorem arrayItem_stops (h : Carries later parse parse') (scope : Scope) :
    Stops (Grammar.arrayItem parse scope) :=
  .behind (.takeMark (by decide)) (.behind (.takeMark (by decide)) (h.stops _ _).bind)

theorem arrayLiteral (h : Carries later parse parse') (scope : Scope) :
    Embeds p later (arrayLiteral parse scope) (arrayLiteral parse' scope) := by
  refine (Embeds.expectMark h.quiet _).bind fun _ => ?_
  refine (Embeds.until_ (h.arrayItem scope) (h.arrayItem_stops scope) _).bind fun items => ?_
  exact (Embeds.expectMark h.quiet _).bind fun _ => .pure _

theorem templateRest (h : Carries later parse parse') (scope : Scope) {rounds rounds' : Nat}
    (enough : rounds ≤ rounds') :
    Embeds p later (templateRest parse scope rounds) (templateRest parse' scope rounds') := by
  induction rounds generalizing rounds' p with
  | zero => exact .throw _
  | succ rounds ih =>
    obtain ⟨rounds', rfl⟩ : ∃ n, rounds' = n + 1 := ⟨rounds' - 1, by omega⟩
    refine (h.reads _ _).bind fun value => .either (.cursor_inside fun c c' inside => ?_) ?_
    · rw [inside.token_eq, inside.drop_one, Token.templateFrom_line h.quiet]
      refine .ite ?_ .fail_bind
      rcases Token.templateFrom (c.here.drop 1) with _ | ⟨t, rest⟩
      · exact .fail
      cases t with
      | template raw cooked isLast =>
        refine (Embeds.moveTo h.quiet _ _).bind fun _ => .ite (.pure _) ?_
        exact (ih (Nat.le_of_succ_le_succ enough)).bind fun ⟨values, quasis⟩ => .pure _
      | _ => exact .fail
    · rintro ⟨here, rest, token, afterBreak, notes⟩ _ ⟨-, -, ending, -⟩ b next ran
      cases ending
      cases ran

theorem regex (quiet : Quiet ('\x7d' :: later)) : Embeds .inside later regex regex := by
  refine .cursor_inside fun c c' inside => ?_
  rw [inside.drop_one]
  cases read : Token.readRegex (c.here.drop 1) with
  | none => exact .fail
  | some found =>
    obtain ⟨body, flags, rest⟩ := found
    rw [Token.readRegex_line read]
    exact (Embeds.moveTo quiet _ _).bind fun _ => .pure _

theorem template (h : Carries later parse parse') (scope : Scope) (isTagged : Bool) :
    Embeds p later (template parse scope isTagged) (template parse' scope isTagged) := by
  refine .at_ (.token (fun t _ => ?_) .fail)
  cases t with
  | template raw cooked isLast =>
    refine (Embeds.advance h.quiet).bind fun _ => .join (.pure _) ?_ fun ⟨values, quasis⟩ => ?_
    · exact .roundsLeft fun _ _ enough => h.templateRest scope enough
    · exact .ite (.pure _) .fail_bind
  | _ => exact .fail

theorem callArguments (h : Carries later parse parse') (scope : Scope) :
    Embeds p later (callArguments parse scope) (callArguments parse' scope) := by
  refine (Embeds.expectMark h.quiet _).bind fun _ => ?_
  have stops : Stops (do
      let leading ← notes
      let item ← if ← takeMark "..." then
          pure (Node.of (.spread false) [← parse scope.allowIn .assignment])
        else parse scope.allowIn .assignment
      return item.withNotes leading) :=
    .notes fun leading => .behind (.takeMark (by decide)) (h.stops _ _).bind
  refine (Embeds.commaList h.quiet (.either (.notes_inside fun leading => ?_) (.of_stops stops))
    stops _).bind fun ⟨items, trailing⟩ => .closing h.quiet _ fun closing => .pure _
  refine (Embeds.takeMark h.quiet (by decide)).bind fun isSpread => .ite ?_ ?_
  · exact (h.reads _ _).bind fun value => (Embeds.pure _).bind fun item => .pure _
  · exact (h.reads _ _).bind fun item => .pure _

theorem parenthesised (h : Carries later parse parse') (scope : Scope) :
    Embeds p later (parenthesised parse scope) (parenthesised parse' scope) := by
  refine (Embeds.expectMark h.quiet _).bind fun _ => ?_
  refine (Embeds.commaList h.quiet ?_ ?_ _).bind fun ⟨items, trailing⟩ => ?_
  · refine (Embeds.takeMark h.quiet (by decide)).bind fun isSpread => .ite ?_ (h.reads _ _)
    refine (h.reads _ _).bind fun target => .atMark (by decide) fun last => ?_
    exact .ite (.pure _) .fail_bind
  · exact .behind (.takeMark (by decide)) (h.stops _ _)
  refine (Embeds.expectMark h.quiet _).bind fun _ => .atMark (by decide) fun isArrow => ?_
  refine .ite (.pure _) (.ite .fail ?_)
  rcases items with _ | ⟨item, _ | _⟩
  · exact .fail
  · exact .pure _
  · exact .pure _

theorem importTail (h : Carries later parse parse') (scope : Scope) :
    Embeds p later (importTail parse scope) (importTail parse' scope) := by
  refine (Embeds.takeMark h.quiet (by decide)).bind fun isMeta => .ite ?_ ?_
  · exact (Embeds.expectWord h.quiet _).bind fun _ => .pure _
  refine (Embeds.expectMark h.quiet _).bind fun _ => (h.reads _ _).bind fun source => ?_
  refine (Embeds.takeMark h.quiet (by decide)).bind fun comma => .atMark (by decide) fun last => ?_
  refine .ite ((h.reads _ _).bind fun options => ?_) ((Embeds.pure _).bind fun options => ?_)
  · refine (Embeds.takeMark h.quiet (by decide)).bind fun _ => (Embeds.pure _).bind fun options => ?_
    exact (Embeds.expectMark h.quiet _).bind fun _ => .pure _
  · exact (Embeds.expectMark h.quiet _).bind fun _ => .pure _

theorem asyncTail (h : Carries later parse parse') (scope : Scope) :
    Embeds p later (asyncTail parse scope) (asyncTail parse' scope) := by
  refine .at_ (.either (.afterBreak_inside fun broken => ?_) (.afterBreak_atEnd fun broken => ?_))
  · refine .ite (.pure _) ((Embeds.takeWord h.quiet _).bind fun isFunction => ?_)
    refine .ite (h.functionTail _ _ _ _) ((Embeds.atIdentifier _).bind fun named => ?_)
    refine .ite ((Embeds.identifier h.quiet _).bind fun parameter => ?_) (.pure _)
    refine .either ?_ (.atMark_atEnd _ (.afterBreak_atEnd fun broken => .fail_bind))
    exact .atMark_inside _ fun arrow => .afterBreak_inside fun broken => .ite (.pure _) .fail_bind
  · cases broken with
    | true => exact .pure _
    | false => exact .behind (.takeWord _) (.behind (.atIdentifier _) (.pure _))

theorem links (h : Carries later parse parse') (scope : Scope) (mayCall : Bool)
    {rounds rounds' : Nat} (enough : rounds ≤ rounds') (base : Node) (isOptional : Bool) :
    Embeds p later (links parse scope mayCall rounds base isOptional)
      (links parse' scope mayCall rounds' base isOptional) := by
  induction rounds generalizing rounds' p base isOptional with
  | zero => exact .throw _
  | succ rounds ih =>
    obtain ⟨rounds', rfl⟩ : ∃ n, rounds' = n + 1 := ⟨rounds' - 1, by omega⟩
    have again {p : Meeting} (n : Node) (o : Bool) :
        Embeds p later (Grammar.links parse scope mayCall rounds n o)
          (Grammar.links parse' scope mayCall rounds' n o) :=
      ih (Nat.le_of_succ_le_succ enough) n o
    unfold Grammar.links
    refine .at_ (.token (fun t _ => ?_) (.pure _))
    split
    · refine (Embeds.advance h.quiet).bind fun _ => .token (fun t _ => ?_) .fail
      cases t with
      | name text hasEscape => exact (Embeds.advance h.quiet).bind fun _ => again _ _
      | privateName text => exact (Embeds.advance h.quiet).bind fun _ => again _ _
      | _ => exact .fail
    · refine .ite ((Embeds.advance h.quiet).bind fun _ => .token (fun t _ => ?_) .fail) .fail_bind
      split
      · exact (Embeds.advance h.quiet).bind fun _ => again _ _
      · exact (Embeds.advance h.quiet).bind fun _ => again _ _
      · refine (Embeds.advance h.quiet).bind fun _ => (h.reads _ _).bind fun key => ?_
        exact (Embeds.expectMark h.quiet _).bind fun _ => again _ _
      · exact (h.callArguments scope).bind fun ⟨args, closing⟩ => again _ _
      · exact .fail
    · refine (Embeds.advance h.quiet).bind fun _ => (h.reads _ _).bind fun key => ?_
      exact (Embeds.expectMark h.quiet _).bind fun _ => again _ _
    · refine .ite (.afterBreak_inside fun broken => ?_) (.pure _)
      refine (h.callArguments scope).bind fun ⟨args, closing⟩ => ?_
      exact .atMark (by decide) fun isArrow => .ite (.pure _) (again _ _)
    · exact .ite .fail ((h.template scope true).bind fun quasi => again _ _)
    · exact .pure _

theorem newTail (h : Carries later parse parse') (scope : Scope) :
    Embeds p later (newTail parse scope) (newTail parse' scope) := by
  refine (Embeds.takeMark h.quiet (by decide)).bind fun isTarget => .ite ?_ ?_
  · exact (Embeds.expectWord h.quiet _).bind fun _ => .pure _
  refine (h.reads _ _).bind fun callee => .atMark (by decide) fun isCall => .ite ?_ (.pure _)
  exact (h.callArguments scope).bind fun ⟨args, closing⟩ => .pure _

theorem chained (h : Carries later parse parse') (scope : Scope) (base : Node) :
    Embeds p later (chained parse scope base) (chained parse' scope base) :=
  .roundsLeft fun _ _ enough => (h.links scope true enough base false).bind fun _ => .pure _

theorem primaryWord (h : Carries later parse parse') (scope : Scope) (word : String) :
    Embeds .inside later (primaryWord parse scope word) (primaryWord parse' scope word) := by
  unfold Grammar.primaryWord
  split
  · exact .moved h.quiet (.pure _)
  · exact .moved h.quiet (.pure _)
  · exact .moved h.quiet (.pure _)
  · exact .moved h.quiet (.pure _)
  · exact .moved h.quiet (h.functionTail _ _ _ _)
  · exact .moved h.quiet (h.classTail _ _ _)
  · exact .moved h.quiet (h.newTail _)
  · exact .moved h.quiet (h.importTail _)
  · refine .moved h.quiet (.atMark (by decide) fun isCall => .atMark (by decide) fun isMember => ?_)
    exact .atMark (by decide) fun isIndex => .ite (.pure _) .fail_bind
  · exact .moved h.quiet (h.asyncTail _)
  · exact Embeds.identifier h.quiet scope

theorem primary_stops (scope : Scope) : Stops (Grammar.primary parse scope) := .token .fail .fail

theorem primary (h : Carries later parse parse') (scope : Scope) :
    Embeds p later (primary parse scope) (primary parse' scope) := by
  refine .at_ (.token (fun t _ => ?_) .fail)
  have moved {n : Node} : Embeds .inside later (do advance; return n) (do advance; return n) :=
    (Embeds.advance h.quiet).bind fun _ => .pure _
  split
  · exact .ite (Embeds.identifier h.quiet scope) (h.primaryWord scope _)
  · exact moved
  · exact moved
  · exact moved
  · exact h.template scope false
  · exact h.parenthesised scope
  · exact h.arrayLiteral scope
  · exact h.objectLiteral scope
  · exact regex h.quiet
  · exact regex h.quiet
  · exact .fail

theorem leftSide_stops (scope : Scope) : Stops (Grammar.leftSide parse scope) :=
  (primary_stops scope).bind

theorem leftSide (h : Carries later parse parse') (scope : Scope) :
    Embeds p later (leftSide parse scope) (leftSide parse' scope) := by
  refine (h.primary scope).bind fun base => ?_
  split
  · exact .pure _
  · exact h.chained scope base

theorem constructed_stops (scope : Scope) : Stops (Grammar.constructed parse scope) :=
  .behind (.atWord _) (primary_stops scope).bind

theorem constructed (h : Carries later parse parse') (scope : Scope) :
    Embeds p later (constructed parse scope) (constructed parse' scope) := by
  refine (Embeds.atWord _).bind fun isImport => .ite .fail_bind ((h.primary scope).bind fun base => ?_)
  split
  · exact .fail
  · exact .roundsLeft fun _ _ enough => (h.links scope false enough base false).bind fun _ => .pure _

theorem unary_stops (h : Carries later parse parse') (scope : Scope) :
    Stops (Grammar.unary parse scope) := by
  obtain ⟨hasIn, yields, awaits, returns⟩ := scope
  cases awaits <;> exact .token (h.stops _ _).bind (h.stops _ _).bind

theorem unary (h : Carries later parse parse') (scope : Scope) :
    Embeds p later (unary parse scope) (unary parse' scope) := by
  refine .at_ (.either (.token_inside fun t _ => ?_) (.of_stops (h.unary_stops scope)))
  split
  · exact (Embeds.advance h.quiet).bind fun _ => (h.reads _ _).bind fun operand => .pure _
  · refine (Embeds.advance h.quiet).bind fun _ => (h.reads _ _).bind fun operand => ?_
    exact Embeds.lift _ fun _ => .pure _
  · refine .ite ?_ ((h.reads _ _).bind fun operand => .token (fun t _ => ?_) (.pure _))
    · exact (Embeds.advance h.quiet).bind fun _ => (h.reads _ _).bind fun operand => .pure _
    · split
      · refine .afterBreak_inside fun broken => .ite (.pure _) ?_
        exact (Embeds.advance h.quiet).bind fun _ => Embeds.lift _ fun _ => .pure _
      · exact .pure _

theorem binaryRest (h : Carries later parse parse') (scope : Scope) (floor : Precedence)
    {rounds rounds' : Nat} (enough : rounds ≤ rounds') (left : Node) :
    Embeds p later (binaryRest parse scope floor rounds left)
      (binaryRest parse' scope floor rounds' left) := by
  induction rounds generalizing rounds' p left with
  | zero => exact .throw _
  | succ rounds ih =>
    obtain ⟨rounds', rfl⟩ : ∃ n, rounds' = n + 1 := ⟨rounds' - 1, by omega⟩
    refine .at_ (.token (fun t _ => ?_) (.pure _))
    split
    · exact .pure _
    · refine .ite (.pure _) ((Embeds.advance h.quiet).bind fun _ => (h.reads _ _).bind fun right => ?_)
      exact .ite (ih (Nat.le_of_succ_le_succ enough) _) .fail_bind

theorem binary_stops (h : Carries later parse parse') (scope : Scope) (floor : Precedence) :
    Stops (Grammar.binary parse scope floor) :=
  .token (h.stops _ _).bind (h.stops _ _).bind

theorem binary (h : Carries later parse parse') (scope : Scope) (floor : Precedence) :
    Embeds p later (binary parse scope floor) (binary parse' scope floor) := by
  refine .at_ (.either (.token_inside fun t _ => ?_) (.of_stops (h.binary_stops scope floor)))
  split
  · refine (Embeds.advance h.quiet).bind fun _ => .token (fun t _ => .ite ?_ .fail_bind) .fail_bind
    exact .roundsLeft fun _ _ enough => h.binaryRest scope floor enough _
  · refine (h.reads _ _).bind fun left => ?_
    exact .roundsLeft fun _ _ enough => h.binaryRest scope floor enough _

theorem conditional_stops (h : Carries later parse parse') (scope : Scope) :
    Stops (Grammar.conditional parse scope) := (h.stops _ _).bind

theorem conditional (h : Carries later parse parse') (scope : Scope) :
    Embeds p later (conditional parse scope) (conditional parse' scope) := by
  refine (h.reads _ _).bind fun test => ?_
  refine (Embeds.takeMark h.quiet (by decide)).bind fun isChoice => .ite ?_ (.pure _)
  refine (h.reads _ _).bind fun consequent => (Embeds.expectMark h.quiet _).bind fun _ => ?_
  exact (h.reads _ _).bind fun alternate => .pure _

theorem arrowTail_stops (scope : Scope) (isAsync : Bool) (parameters : Node) :
    Stops (Grammar.arrowTail parse scope isAsync parameters) := by
  refine .afterBreak fun broken => ?_
  cases broken with
  | true => exact Stops.fail.bind
  | false => exact (Stops.expectMark (by decide)).bind

theorem arrowTail (h : Carries later parse parse') (scope : Scope) (isAsync : Bool)
    (parameters : Node) :
    Embeds p later (arrowTail parse scope isAsync parameters)
      (arrowTail parse' scope isAsync parameters) := by
  refine .at_ (.either (.afterBreak_inside fun broken => .ite .fail_bind ?_)
    (.of_stops (arrowTail_stops scope isAsync parameters)))
  refine (Embeds.expectMark h.quiet _).bind fun _ => .atMark (by decide) fun isBlock => ?_
  exact .join (h.functionBody _) (h.reads _ _) fun body => .pure _

theorem yieldTail (h : Carries later parse parse') (scope : Scope) :
    Embeds p later (yieldTail parse scope) (yieldTail parse' scope) := by
  refine .at_ (.either (.afterBreak_inside fun broken => .ite (.pure _) ?_)
    (.afterBreak_atEnd fun broken => ?_))
  · refine (Embeds.takeMark h.quiet (by decide)).bind fun isAll => .ite ?_ (.token (fun t _ => ?_) ?_)
    · exact (h.reads _ _).bind fun value => .pure _
    · split
      · exact .pure _
      · exact .ite (.pure _) ((h.reads _ _).bind fun value => .pure _)
      · exact .pure _
      · exact (h.reads _ _).bind fun value => .pure _
    · exact .pure _
  · cases broken with
    | true => exact .pure _
    | false => exact .behind (.takeMark (by decide)) (.ending (.pure _))

theorem assignment_stops (h : Carries later parse parse') (scope : Scope) :
    Stops (Grammar.assignment parse scope) := by
  obtain ⟨hasIn, yields, awaits, returns⟩ := scope
  cases yields <;> exact .behind (.atWord _) (h.conditional_stops _).bind

theorem assignment (h : Carries later parse parse') (scope : Scope) :
    Embeds p later (assignment parse scope) (assignment parse' scope) := by
  refine .at_ (.either (.atWord_inside _ fun isYield => .ite ?_ ?_)
    (.of_stops (h.assignment_stops scope)))
  · exact (Embeds.advance h.quiet).bind fun _ => h.yieldTail scope
  refine (h.conditional scope).bind fun left => .token (fun t _ => ?_) ?_
  · split
    · exact Embeds.lift _ fun ps => h.arrowTail _ _ _
    · exact h.arrowTail _ _ _
    · split
      · exact .pure _
      · refine Embeds.lift _ fun target => (Embeds.advance h.quiet).bind fun _ => ?_
        exact (h.reads _ _).bind fun value => .pure _
  · split
    · contradiction
    · contradiction
    · change Embeds .atEnd later (pure left) _
      split
      · contradiction
      · contradiction
      · exact .pure left

theorem expression_stops (h : Carries later parse parse') (scope : Scope) :
    Stops (Grammar.expression parse scope) := (h.stops _ _).bind

theorem expression (h : Carries later parse parse') (scope : Scope) :
    Embeds p later (expression parse scope) (expression parse' scope) := by
  refine (h.reads _ _).bind fun first => ?_
  exact (Embeds.commas h.quiet (h.reads _ _)).bind fun more => .pure _

end Carries

end Bundler.Script.Grammar
