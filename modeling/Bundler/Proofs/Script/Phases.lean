import Bundler.Require

/-! Binding the requires of a program in one walk comes to the same as three steps: settle all
guards, ask for the specifiers that are left in the order of the text, and put the answers in their
places. -/

namespace Bundler.Script.Node

theorem ind {P : Node → Prop}
    (step : ∀ form notes parts, (∀ n ∈ parts, P n) → P ⟨form, notes, parts⟩) (n : Node) : P n :=
  @Node.rec P (fun ns => ∀ n ∈ ns, P n) step (fun _ h => nomatch h)
    (fun _ _ first rest => List.forall_mem_cons.mpr ⟨first, rest⟩) n

theorem foldParts_eq {α : Type} (combine : Node → List α → α) (parts : List Node) :
    foldParts combine parts = parts.map (fold combine) := by
  induction parts with
  | nil => rfl
  | cons n rest ih => rw [foldParts, ih, List.map_cons]

theorem bare_comm {f : Node → Node}
    (kept : ∀ notes inner, f ⟨.paren, notes, [inner]⟩ = ⟨.paren, notes, [f inner]⟩)
    (made : ∀ n notes inner, f n = ⟨.paren, notes, [inner]⟩ →
      ∃ before, n = ⟨.paren, notes, [before]⟩) (n : Node) : (f n).bare = f n.bare := by
  fun_induction bare n with
  | case1 notes inner ih =>
    rw [kept]
    exact ih
  | case2 n other =>
    apply bare.eq_2
    intro notes inner same
    obtain ⟨before, rfl⟩ := made n notes inner same
    exact other notes before rfl

theorem requireSpecifier?_eq_some {n : Node} {specifier : String} :
    n.requireSpecifier? = some specifier ↔ ∃ isOptional closing notes calleeNotes lone textNotes,
      n = ⟨.call isOptional closing, notes,
        [⟨.identifier "require", calleeNotes, []⟩, ⟨.string specifier lone, textNotes, []⟩]⟩ := by
  constructor
  · intro h
    unfold requireSpecifier? at h
    split at h
    · cases h
      exact ⟨_, _, _, _, _, _, rfl⟩
    · cases h
  · rintro ⟨_, _, _, _, _, _, rfl⟩
    rfl

theorem requireSpecifier?_form {n : Node} {specifier : String}
    (h : n.requireSpecifier? = some specifier) :
    ∃ isOptional closing, n.form = .call isOptional closing := by
  obtain ⟨isOptional, closing, _, _, _, _, rfl⟩ := requireSpecifier?_eq_some.mp h
  exact ⟨isOptional, closing, rfl⟩

theorem requireSpecifier?_part {n part : Node} {specifier : String}
    (h : n.requireSpecifier? = some specifier) (mem : part ∈ n.parts) :
    part.parts = [] ∧ part.requireSpecifier? = none := by
  obtain ⟨_, _, _, _, _, _, rfl⟩ := requireSpecifier?_eq_some.mp h
  simp only [List.mem_cons, List.not_mem_nil, or_false] at mem
  rcases mem with rfl | rfl <;> exact ⟨rfl, rfl⟩

/-- To settle a statement is to decide one guard after another. -/
theorem settle_eq (env : String) (n : Node) :
    settle env n = match pruneOnce env n with
      | .unchanged kept => some kept
      | .replaced branch => settle env branch
      | .removed => none := by
  fun_cases settle env n with
  | case1 _ _ _ _ holds => simp only [pruneOnce, holds]
  | case2 _ _ _ _ fails gone => simp only [pruneOnce, fails, if_pos gone]
  | case3 _ _ _ _ fails stays => simp only [pruneOnce, fails, if_neg stays]
  | case4 _ _ _ _ undecided => simp only [pruneOnce, undecided]
  | case5 n other => rw [pruneOnce.eq_2 env n other]

theorem pruneOnce_of_settled {env : String} {n kept : Node} (h : settle env n = some kept) :
    pruneOnce env kept = .unchanged kept := by
  fun_induction settle env n with
  | case1 _ _ _ _ _ ih => exact ih h
  | case2 => cases h
  | case3 _ _ _ _ _ _ ih => exact ih h
  | case4 _ _ _ _ undecided =>
    cases h
    simp only [pruneOnce, undecided]
  | case5 n other =>
    cases h
    exact pruneOnce.eq_2 env _ other

theorem condition_of_settled {env : String} {n test consequent alternate : Node}
    {notes : List Comment}
    (h : settle env n = some ⟨.ifElse, notes, [test, consequent, alternate]⟩) :
    condition env test = none := by
  have once := pruneOnce_of_settled h
  rw [pruneOnce] at once
  split at once
  · cases once
  · split at once <;> cases once
  · assumption

theorem settle_settled {env : String} {n kept : Node} (h : settle env n = some kept) :
    settle env kept = some kept := by
  rw [settle_eq, pruneOnce_of_settled h]

theorem pruned_inner (env : String) (n : Node) :
    n.pruned env .inner = some ⟨n.form, n.notes, prunedParts env n.form.slot n.parts⟩ := by
  rw [pruned.eq_def]
  split
  · rw [verdict, if_pos rfl]
    rfl
  · rfl

theorem live_eq (env : String) (n : Node) :
    n.live env = ⟨n.form, n.notes, prunedParts env n.form.slot n.parts⟩ := by
  rw [live, pruned_inner, Option.getD_some]

theorem pruned_statement {env : String} {slot : Slot} (h : slot ≠ .inner) (n : Node) :
    n.pruned env slot = (settle env n).map (live env) := by
  fun_induction settle env n with
  | case1 _ _ _ _ holds ih =>
    rw [pruned, verdict, if_neg h, holds]
    exact ih
  | case2 _ _ _ _ fails gone =>
    rw [pruned, verdict, if_neg h, fails]
    exact if_pos gone
  | case3 _ _ _ _ fails stays ih =>
    rw [pruned, verdict, if_neg h, fails]
    exact (if_neg stays).trans ih
  | case4 _ _ _ _ undecided =>
    rw [pruned, verdict, if_neg h, undecided, Option.map_some, live_eq]
    rfl
  | case5 n other =>
    rw [pruned.eq_def, Option.map_some, live_eq]
    split
    · exact (other _ _ _ _ rfl).elim
    · rfl

/-- The parts of a node with the statements among them settled where they stand: one that comes to
nothing leaves a list, and an empty statement where there has to be one. -/
def settledParts (env : String) (slot : Slot) (parts : List Node) : List Node :=
  match slot with
  | .listed => parts.filterMap (settle env)
  | .single => parts.map fun n => (settle env n).getD (leaf .empty)
  | .inner => parts

theorem prunedParts_eq (env : String) (slot : Slot) (parts : List Node) :
    prunedParts env slot parts = (settledParts env slot parts).map (live env) := by
  induction parts with
  | nil => cases slot <;> rfl
  | cons n rest ih =>
    rw [prunedParts, ih]
    cases slot with
    | inner =>
      rw [pruned_inner, ← live_eq]
      rfl
    | listed =>
      rw [pruned_statement (by decide)]
      cases settled : settle env n <;> simp [keep, settledParts, settled]
    | single =>
      rw [pruned_statement (by decide)]
      cases settled : settle env n <;> simp [keep, settledParts, settled, live_eq]
      rfl

/-- To prune a tree is to settle the parts of each node from the top down. -/
theorem live_settled (env : String) (n : Node) :
    n.live env = ⟨n.form, n.notes, (settledParts env n.form.slot n.parts).map (live env)⟩ := by
  rw [live_eq, prunedParts_eq]

theorem live_eq_leaf {env : String} {n : Node} {form : Form} {notes : List Comment}
    (h : form.slot = .inner) : n.live env = ⟨form, notes, []⟩ ↔ n = ⟨form, notes, []⟩ := by
  obtain ⟨ownForm, ownNotes, parts⟩ := n
  rw [live_settled, Node.mk.injEq, Node.mk.injEq]
  constructor
  · rintro ⟨rfl, rfl, none⟩
    rw [h, settledParts, List.map_eq_nil_iff] at none
    exact ⟨rfl, rfl, none⟩
  · rintro ⟨rfl, rfl, rfl⟩
    exact ⟨rfl, rfl, by rw [h]; rfl⟩

theorem requireSpecifier?_live (env : String) (n : Node) :
    (n.live env).requireSpecifier? = n.requireSpecifier? := by
  refine Option.ext fun specifier => ⟨fun h => ?_, fun h => ?_⟩
  · obtain ⟨isOptional, closing, notes, _, _, _, same⟩ := requireSpecifier?_eq_some.mp h
    obtain ⟨form, ownNotes, parts⟩ := n
    rw [live_settled, Node.mk.injEq] at same
    obtain ⟨rfl, rfl, below⟩ := same
    rw [show (Form.call isOptional closing).slot = .inner from rfl, settledParts] at below
    obtain ⟨callee, _, rfl, first, below⟩ := List.map_eq_cons_iff.mp below
    obtain ⟨text, _, rfl, second, below⟩ := List.map_eq_cons_iff.mp below
    rw [(live_eq_leaf rfl).mp first, (live_eq_leaf rfl).mp second, List.map_eq_nil_iff.mp below]
    rfl
  · obtain ⟨_, _, _, _, _, _, rfl⟩ := requireSpecifier?_eq_some.mp h
    rfl

theorem live_of_requires {env : String} {n : Node} {specifier : String}
    (h : n.requireSpecifier? = some specifier) : n.live env = n := by
  obtain ⟨_, _, _, _, _, _, rfl⟩ := requireSpecifier?_eq_some.mp h
  rfl

mutual

/-- The tree with its requires answered from a list, and the answers that are left over. -/
def fill : Node → List (Option ContentId) → Node × List (Option ContentId)
  | ⟨form, notes, parts⟩, answers =>
    match requireSpecifier? ⟨form, notes, parts⟩ with
    | some _ => (answered answers.head?.join ⟨form, notes, parts⟩, answers.tail)
    | none =>
      let (parts, answers) := fillParts parts answers
      (⟨form, notes, parts⟩, answers)

def fillParts : List Node → List (Option ContentId) → List Node × List (Option ContentId)
  | [], answers => ([], answers)
  | n :: rest, answers =>
    let (first, answers) := n.fill answers
    let (rest, answers) := fillParts rest answers
    (first :: rest, answers)

end

section

variable {isOptional : Bool} {closing notes calleeNotes textNotes : List Comment}
  {specifier : String} {lone : Bool}

/-- `require("specifier")` becomes a call of the binding that keeps all but the argument. -/
theorem bindTo_require (id : ContentId) :
    bindTo id ⟨.call isOptional closing, notes,
      [⟨.identifier "require", calleeNotes, []⟩, ⟨.string specifier lone, textNotes, []⟩]⟩ =
    ⟨.call isOptional closing, notes, [⟨.identifier id.binding, calleeNotes, []⟩]⟩ := rfl

/-- The first answer goes to the call, which stays as it is written if there is no module for it. -/
theorem fill_require (target : Option ContentId) (answers : List (Option ContentId)) :
    fill ⟨.call isOptional closing, notes,
      [⟨.identifier "require", calleeNotes, []⟩, ⟨.string specifier lone, textNotes, []⟩]⟩
      (target :: answers) =
    (match target with
      | some id => ⟨.call isOptional closing, notes, [⟨.identifier id.binding, calleeNotes, []⟩]⟩
      | none => ⟨.call isOptional closing, notes,
        [⟨.identifier "require", calleeNotes, []⟩, ⟨.string specifier lone, textNotes, []⟩]⟩,
      answers) := by
  rw [fill, requireSpecifier?_eq_some.mpr ⟨_, _, _, _, _, _, rfl⟩]
  cases target with
  | some id => rw [List.head?_cons, Option.join_some, answered, bindTo_require, List.tail_cons]
  | none => rfl

end

mutual

theorem fill_append (n : Node) (answers more : List (Option ContentId))
    (h : answers.length = n.requires.length) :
    n.fill (answers ++ more) = ((n.fill answers).1, more) := by
  obtain ⟨form, notes, parts⟩ := n
  rw [requires] at h
  rw [fill, fill]
  cases one : requireSpecifier? ⟨form, notes, parts⟩ with
  | some specifier =>
    rw [one] at h
    obtain ⟨target, rfl⟩ := List.length_eq_one_iff.mp h
    rfl
  | none =>
    rw [one] at h
    dsimp only
    rw [fillParts_append parts answers more h]

theorem fillParts_append (ns : List Node) (answers more : List (Option ContentId))
    (h : answers.length = (requiresOf ns).length) :
    fillParts ns (answers ++ more) = ((fillParts ns answers).1, more) := by
  match ns with
  | [] =>
    rw [List.length_eq_zero_iff.mp h]
    rfl
  | n :: rest =>
    rw [requiresOf, List.length_append] at h
    have split := List.take_append_drop n.requires.length answers
    have first : (answers.take n.requires.length).length = n.requires.length := by
      rw [List.length_take]; omega
    have later : (answers.drop n.requires.length).length = (requiresOf rest).length := by
      rw [List.length_drop]; omega
    rw [← split, List.append_assoc, fillParts, fillParts, fill_append n _ _ first,
      fill_append n _ _ first]
    dsimp only
    rw [fillParts_append rest _ _ later]

end

mutual

def substitute (target : String → Option ContentId) : Node → Node
  | ⟨form, notes, parts⟩ =>
    match requireSpecifier? ⟨form, notes, parts⟩ with
    | some specifier => answered (target specifier) ⟨form, notes, parts⟩
    | none => ⟨form, notes, substituteParts target parts⟩

def substituteParts (target : String → Option ContentId) : List Node → List Node
  | [] => []
  | n :: rest => n.substitute target :: substituteParts target rest

end

mutual

theorem fill_map (target : String → Option ContentId) (n : Node) :
    (n.fill (n.requires.map target)).1 = n.substitute target := by
  obtain ⟨form, notes, parts⟩ := n
  rw [requires, fill, substitute]
  cases one : requireSpecifier? ⟨form, notes, parts⟩ with
  | some specifier => rfl
  | none =>
    dsimp only
    rw [fillParts_map target parts]

theorem fillParts_map (target : String → Option ContentId) (ns : List Node) :
    (fillParts ns ((requiresOf ns).map target)).1 = substituteParts target ns := by
  match ns with
  | [] => rfl
  | n :: rest =>
    rw [requiresOf, List.map_append, fillParts, fill_append n _ _ (List.length_map _),
      substituteParts, ← fill_map target n, ← fillParts_map target rest]

end

section

variable {ε α β : Type} {m : Type → Type} [Monad m]

theorem mapM_bind_congr [LawfulMonad m] {γ : Type} (f : α → m β) (l : List α)
    {k k' : List β → m γ} (h : ∀ answers, answers.length = l.length → k answers = k' answers) :
    (l.mapM f >>= k) = (l.mapM f >>= k') := by
  induction l generalizing k k' with
  | nil => simpa only [List.mapM_nil, pure_bind] using h [] rfl
  | cons a l ih =>
    simp only [List.mapM_cons, bind_assoc, pure_bind]
    exact bind_congr fun b => ih fun answers same => h (b :: answers) (congrArg (· + 1) same)

def finished (result : α × Option ε) : Except ε α :=
  match result.2 with
  | some e => .error e
  | none => .ok result.1

/-- A walk comes to the same as a computation that stops at its first failure, and once it has
failed it does nothing more. -/
structure Remembers (x : Rewriting ε m α) (y : ExceptT ε m α) : Prop where
  same : finished <$> x.run none = y.run
  quiet : ∀ e, ∃ a, x.run (some e) = pure (a, some e)

variable [LawfulMonad m]

namespace Remembers

theorem pure (a : α) : Remembers (pure a : Rewriting ε m α) (Pure.pure a) where
  same := by simp [finished]
  quiet e := ⟨a, rfl⟩

theorem bind {x : Rewriting ε m α} {y : ExceptT ε m α} {f : α → Rewriting ε m β}
    {g : α → ExceptT ε m β} (first : Remembers x y) (rest : ∀ a, Remembers (f a) (g a)) :
    Remembers (x >>= f) (y >>= g) where
  same := by
    rw [ExceptT.run_bind, ← first.same, StateT.run_bind, map_bind, map_eq_pure_bind, bind_assoc]
    refine bind_congr fun ⟨a, failure⟩ => ?_
    rw [pure_bind]
    cases failure with
    | none => exact (rest a).same
    | some e =>
      obtain ⟨b, quiet⟩ := (rest a).quiet e
      rw [quiet, map_pure]
      rfl
  quiet e := by
    obtain ⟨a, quiet⟩ := first.quiet e
    obtain ⟨b, after⟩ := (rest a).quiet e
    exact ⟨b, by rw [StateT.run_bind, quiet, pure_bind, after]⟩

theorem unlessFailed {x : Rewriting ε m α} {y : ExceptT ε m α} (a : α)
    (h : finished <$> x.run none = y.run) :
    Remembers (do if (← get).isSome then Pure.pure a else x) y where
  same := by simpa using h
  quiet e := ⟨a, by simp⟩

end Remembers

variable (env : String) (ask : String → ExceptT ε m (Option ContentId))

/-- The three steps: prune a tree, ask for the specifiers that are left, in the order of the text and
until one fails, and put the answers in their places. -/
def phases (n : Node) : ExceptT ε m Node :=
  (fun answers => ((n.live env).fill answers).1) <$> (n.live env).requires.mapM ask

def phasesOf (ns : List Node) : ExceptT ε m (List Node) :=
  (fun answers => (fillParts (ns.map (live env)) answers).1) <$>
    (requiresOf (ns.map (live env))).mapM ask

theorem phasesOf_nil : phasesOf env ask [] = pure [] := by
  simp [phasesOf, requiresOf, fillParts]

theorem phasesOf_cons (n : Node) (rest : List Node) :
    phasesOf env ask (n :: rest) = do
      let first ← phases env ask n
      let rest ← phasesOf env ask rest
      return first :: rest := by
  simp only [phasesOf, phases, List.map_cons, requiresOf, List.mapM_append, map_eq_pure_bind,
    bind_assoc, pure_bind]
  refine mapM_bind_congr ask _ fun answers same => bind_congr fun more => ?_
  rw [fillParts, fill_append _ answers more same]

theorem phases_call {n : Node} {specifier : String} (h : n.requireSpecifier? = some specifier) :
    phases env ask n = (fun target => answered target n) <$> ask specifier := by
  obtain ⟨form, notes, parts⟩ := n
  rw [phases, live_of_requires h, requires, h]
  simp [fill, h]

theorem phases_other {n : Node} (h : n.requireSpecifier? = none) :
    phases env ask n =
      (fun parts => ⟨n.form, n.notes, parts⟩) <$>
        phasesOf env ask (settledParts env n.form.slot n.parts) := by
  have kept := requireSpecifier?_live env n
  rw [live_settled, h] at kept
  rw [phases, phasesOf, live_settled, requires, kept]
  simp [fill, kept]

variable (answer : String → m (Except ε (Option ContentId)))

theorem rewriteCall_same (specifier : String) (call : Node) :
    finished <$> (rewriteCall answer specifier call).run none =
      ((fun target => answered target call) <$> ExceptT.mk (answer specifier)).run := by
  rw [ExceptT.run_map, ExceptT.run_mk, map_eq_pure_bind, map_eq_pure_bind, rewriteCall,
    StateT.run_bind, StateT.run_monadLift, bind_assoc, bind_assoc]
  refine bind_congr fun result => ?_
  cases result <;> simp [finished, Except.map]

theorem visitEach_remembers (slot : Slot) {parts : List Node} (settled : Node → Node)
    (each : ∀ n ∈ parts, Remembers
      (if slot = .inner then visitNode env answer n else visitStatement env answer n)
      (phases env (ExceptT.mk <| answer ·) (settled n))) :
    Remembers (visitEach env answer slot parts)
      (phasesOf env (ExceptT.mk <| answer ·) (parts.map settled)) := by
  induction parts with
  | nil =>
    rw [visitEach, List.map_nil, phasesOf_nil]
    exact .pure []
  | cons n rest ih =>
    obtain ⟨first, later⟩ := List.forall_mem_cons.mp each
    rw [visitEach, List.map_cons, phasesOf_cons]
    exact first.bind fun n => (ih later).bind fun rest => .pure (n :: rest)

theorem visitStatement_remembers {n : Node}
    (h : Remembers (visitNode env answer ((settle env n).getD (leaf .empty)))
      (phases env (ExceptT.mk <| answer ·) ((settle env n).getD (leaf .empty)))) :
    Remembers (visitStatement env answer n)
      (phases env (ExceptT.mk <| answer ·) ((settle env n).getD (leaf .empty))) := by
  have settled : (settleInPlace env n).1 = (settle env n).getD (leaf .empty) := by
    unfold settleInPlace
    cases settle env n <;> rfl
  rw [visitStatement, settled]
  exact .unlessFailed n h.same

theorem visitParts_remembers (form : Form) (notes : List Comment) (parts : List Node)
    (smaller : ∀ n, sizeOf n < sizeOf (Node.mk form notes parts) →
      Remembers (visitNode env answer n) (phases env (ExceptT.mk <| answer ·) n)) :
    Remembers
      (if form.slot = .listed then visitStatements env answer parts
        else visitEach env answer form.slot parts)
      (phasesOf env (ExceptT.mk <| answer ·) (settledParts env form.slot parts)) := by
  have below {part : Node} (mem : part ∈ parts) :
      sizeOf part < sizeOf (Node.mk form notes parts) := by
    have := List.sizeOf_lt_of_mem mem
    rw [mk.sizeOf_spec]
    omega
  have settledBelow {part : Node} (mem : part ∈ parts) :
      sizeOf ((settle env part).getD (leaf .empty)) < sizeOf (Node.mk form notes parts) :=
    Nat.lt_of_le_of_lt (sizeOf_settled_le env part) (below mem)
  cases form.slot with
  | listed =>
    -- the list is settled before it is visited, and to settle its statements again changes nothing
    have kept : ∀ n ∈ parts.filterMap (settle env), Remembers (visitStatement env answer n)
        (phases env (ExceptT.mk <| answer ·) n) := by
      intro n mem
      obtain ⟨part, inParts, settled⟩ := List.mem_filterMap.mp mem
      have size := settledBelow inParts
      rw [settled, Option.getD_some] at size
      have visited := visitStatement_remembers env answer (n := n)
      rw [settle_settled settled, Option.getD_some] at visited
      exact visited (smaller n size)
    have each := visitEach_remembers env answer .listed id kept
    rw [List.map_id] at each
    rw [if_pos rfl, visitStatements, settleAll_eq]
    exact .unlessFailed parts each.same
  | single =>
    rw [if_neg (by decide)]
    exact visitEach_remembers env answer .single _ fun part mem =>
      visitStatement_remembers env answer (smaller _ (settledBelow mem))
  | inner =>
    have each := visitEach_remembers env answer .inner id fun part mem =>
      smaller part (below mem)
    rw [List.map_id] at each
    rwa [if_neg (by decide)]

/-- A walk comes to the three steps. -/
theorem visitNode_remembers (n : Node) :
    Remembers (visitNode env answer n) (phases env (ExceptT.mk <| answer ·) n) := by
  -- by induction on the size, for what a statement is settled to is visited, and not its parts
  induction size : sizeOf n using Nat.strongRecOn generalizing n with
  | ind size ih =>
    subst size
    obtain ⟨form, notes, parts⟩ := n
    have below := visitParts_remembers env answer form notes parts
      fun n smaller => ih _ smaller n rfl
    cases one : requireSpecifier? ⟨form, notes, parts⟩ with
    | some specifier =>
      obtain ⟨isOptional, closing, rfl⟩ := requireSpecifier?_form one
      rw [visitNode, phases_call env _ one, one]
      exact .unlessFailed _ (rewriteCall_same answer specifier _)
    | none =>
      have walked : Remembers
          (do
            let parts ←
              (if form.slot = .listed then visitStatements env answer parts
                else visitEach env answer form.slot parts)
            return ⟨form, notes, parts⟩)
          (phases env (ExceptT.mk <| answer ·) ⟨form, notes, parts⟩) := by
        rw [phases_other env _ one, map_eq_pure_bind]
        exact below.bind fun parts => .pure _
      by_cases isCall : ∃ isOptional closing, form = .call isOptional closing
      · obtain ⟨isOptional, closing, rfl⟩ := isCall
        rw [visitNode, one]
        exact .unlessFailed _ walked.same
      · rwa [visitNode.eq_2 _ _ _ _ _ fun isOptional closing same =>
          isCall ⟨isOptional, closing, same⟩]

end

end Bundler.Script.Node
