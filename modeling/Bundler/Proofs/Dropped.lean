import Bundler.Proofs.Run
import Mathlib.Data.List.Forall2

/-! Branches that a decided guard drops have no say in a build. Two programs that differ only inside
such branches are the same once they are pruned, so their walks ask for the same modules, end in the
same context and come to the same program or to the same failure. -/

namespace Bundler

namespace Script.Node

theorem isEnvironment_iff {n : Node} : n.isEnvironment ↔
    ∃ notes object innerNotes processNotes parts, n = ⟨.member "NODE_ENV" false, notes, [object]⟩ ∧
      object.bare =
        ⟨.member "env" false, innerNotes, [⟨.identifier "process", processNotes, parts⟩]⟩ := by
  constructor
  · intro h
    unfold isEnvironment at h
    split at h
    · split at h
      · exact ⟨_, _, _, _, _, rfl, ‹_›⟩
      · cases h
    · cases h
  · rintro ⟨notes, object, innerNotes, processNotes, parts, rfl, inside⟩
    simp only [isEnvironment, inside]

/-- What relates trees of the same form, and their parts wherever a test is looked into. -/
structure Transparent (R : Node → Node → Prop) : Prop where
  form {n n' : Node} (h : R n n') : n.form = n'.form
  parts {n n' : Node} (h : R n n') (slot : n.form.slot = .inner)
    (noCall : ∀ isOptional closing, n.form ≠ .call isOptional closing) :
    List.Forall₂ R n.parts n'.parts

namespace Transparent

variable {R : Node → Node → Prop} {n n' : Node}

theorem flip (t : Transparent R) : Transparent fun n n' => R n' n where
  form h := (t.form h).symm
  parts h slot noCall :=
    (t.parts h (t.form h ▸ slot) fun o c => t.form h ▸ noCall o c).flip

theorem single (t : Transparent R) {form : Form} {notes : List Comment} {part : Node}
    (h : R ⟨form, notes, [part]⟩ n') (slot : form.slot = .inner)
    (noCall : ∀ isOptional closing, form ≠ .call isOptional closing) :
    ∃ notes part', n' = ⟨form, notes, [part']⟩ ∧ R part part' := by
  obtain ⟨form', notes', parts'⟩ := n'
  cases t.form h
  obtain _ | ⟨first, _ | _⟩ := t.parts h slot noCall
  exact ⟨notes', _, rfl, first⟩

theorem bare (t : Transparent R) (h : R n n') : R n.bare n'.bare := by
  fun_induction Node.bare n generalizing n' with
  | case1 notes inner ih =>
    obtain ⟨notes', inner', rfl, same⟩ := t.single h rfl (by simp)
    rw [Node.bare]
    exact ih same
  | case2 n other =>
    rw [Node.bare.eq_2]
    · exact h
    · rintro notes' inner' rfl
      obtain ⟨notes, inner, rfl, -⟩ := t.flip.single h rfl (by simp)
      exact other notes inner rfl

theorem isEnvironment (t : Transparent R) (h : R n n') : n.isEnvironment = n'.isEnvironment := by
  have one {R : Node → Node → Prop} (t : Transparent R) {n n' : Node} (h : R n n')
      (accesses : n.isEnvironment) : n'.isEnvironment := by
    obtain ⟨_, object, _, _, _, rfl, inside⟩ := isEnvironment_iff.mp accesses
    obtain ⟨notes, object', rfl, objects⟩ := t.single h rfl (by simp)
    have objects := t.bare objects
    rw [inside] at objects
    obtain ⟨innerNotes, ⟨form, processNotes, parts⟩, inside', process⟩ :=
      t.single objects rfl (by simp)
    cases t.form process
    exact isEnvironment_iff.mpr ⟨_, _, _, _, _, rfl, inside'⟩
  exact Bool.eq_iff_iff.mpr ⟨one t h, one t.flip h⟩

theorem fixedText? (t : Transparent R) (h : R n n') : n.fixedText? = n'.fixedText? := by
  obtain ⟨form, notes, parts⟩ := n
  obtain ⟨form', notes', parts'⟩ := n'
  cases t.form h
  unfold Node.fixedText?
  split
  · rename_i same
    cases same
    rfl
  · rename_i same
    cases same
    obtain _ | _ := t.parts h rfl (by simp)
    rfl
  · rename_i noString noTemplate
    split
    · rename_i same
      cases same
      exact (noString _ _ _ _ rfl).elim
    · rename_i same
      cases same
      obtain _ | _ := t.parts h rfl (by simp)
      exact (noTemplate _ _ rfl).elim
    · rfl

theorem condition (t : Transparent R) (env : String) (h : R n n') :
    condition env n = condition env n' := by
  have outside := t.bare h
  unfold Node.condition
  split
  · rename_i op notes left right same
    rw [same] at outside
    generalize n'.bare = compared at outside
    obtain ⟨form', notes', parts'⟩ := compared
    cases t.form outside
    obtain _ | ⟨lefts, _ | ⟨rights, _ | _⟩⟩ := t.parts outside rfl (by simp)
    have lefts := t.bare lefts
    have rights := t.bare rights
    simp only [t.isEnvironment lefts, t.isEnvironment rights, t.fixedText? lefts,
      t.fixedText? rights]
  · rename_i other
    split
    · rename_i op notes' left' right' same
      rw [same] at outside
      generalize n.bare = compared at other outside
      obtain ⟨form, notes, parts⟩ := compared
      cases t.form outside
      obtain _ | ⟨_, _ | ⟨_, _ | _⟩⟩ := t.parts outside rfl (by simp)
      exact (other _ _ _ _ rfl).elim
    · rfl

end Transparent

theorem transparent_live (env : String) : Transparent fun n n' => n' = n.live env where
  form h := by rw [h, live_settled]
  parts h slot _ := by
    rw [h, live_settled, slot]
    exact List.forall₂_map_right_iff.mpr (List.forall₂_same.mpr fun _ _ => rfl)

theorem condition_live (env : String) (test : Node) :
    condition env (test.live env) = condition env test :=
  ((transparent_live env).condition env rfl).symm

mutual

/-- Two trees, where they stand in a program, that differ at most inside branches that are dropped
because a guard is decided: the branch for the other outcome may be anything, or missing. -/
inductive Alike (env : String) : Slot → Node → Node → Prop where
  | node {slot : Slot} {form : Form} {notes : List Comment} {parts parts' : List Node}
      (below : AlikeParts env form.slot parts parts') :
      Alike env slot ⟨form, notes, parts⟩ ⟨form, notes, parts'⟩
  | holds {slot : Slot} {notes : List Comment}
      {test consequent consequent' alternate alternate' : Node}
      (decided : verdict env slot test = some true) (kept : Alike env slot consequent consequent') :
      Alike env slot ⟨.ifElse, notes, [test, consequent, alternate]⟩
        ⟨.ifElse, notes, [test, consequent', alternate']⟩
  | fails {slot : Slot} {notes : List Comment}
      {test consequent consequent' alternate alternate' : Node}
      (decided : verdict env slot test = some false) (kept : Alike env slot alternate alternate') :
      Alike env slot ⟨.ifElse, notes, [test, consequent, alternate]⟩
        ⟨.ifElse, notes, [test, consequent', alternate']⟩

inductive AlikeParts (env : String) : Slot → List Node → List Node → Prop where
  | nil {slot : Slot} : AlikeParts env slot [] []
  | cons {slot : Slot} {n n' : Node} {rest rest' : List Node} (first : Alike env slot n n')
      (later : AlikeParts env slot rest rest') : AlikeParts env slot (n :: rest) (n' :: rest')

end

/-- What makes one tree as good as another where a program is pruned. -/
structure Interchangeable (env : String) (slot : Slot) (n n' : Node) : Prop where
  absent : n.isAbsent = n'.isAbsent
  decided : condition env n = condition env n'
  remains : n.pruned env slot = n'.pruned env slot

section

variable {env : String} {slot : Slot} {notes : List Comment}

theorem prunedParts_eq_of_each {parts parts' : List Node}
    (each : List.Forall₂ (Interchangeable env slot) parts parts') :
    prunedParts env slot parts = prunedParts env slot parts' := by
  induction each with
  | nil => rfl
  | cons first _ ih => rw [prunedParts, prunedParts, first.remains, ih]

namespace Interchangeable

theorem of_single {n n' : Node} (h : Interchangeable env .single n n') (statement : slot ≠ .inner) :
    Interchangeable env slot n n' := by
  refine ⟨h.absent, h.decided, ?_⟩
  have alone : Slot.single ≠ .inner := by decide
  have same := h.remains
  rw [pruned_statement alone, pruned_statement alone] at same
  rw [pruned_statement statement, pruned_statement statement, same]

variable {test test' consequent consequent' alternate alternate' : Node}

theorem of_holds (holds : verdict env slot test = some true)
    (kept : Interchangeable env slot consequent consequent') :
    Interchangeable env slot ⟨.ifElse, notes, [test, consequent, alternate]⟩
      ⟨.ifElse, notes, [test, consequent', alternate']⟩ := by
  refine ⟨rfl, rfl, ?_⟩
  rw [pruned, pruned, holds]
  exact kept.remains

theorem of_fails (fails : verdict env slot test = some false)
    (kept : Interchangeable env slot alternate alternate') :
    Interchangeable env slot ⟨.ifElse, notes, [test, consequent, alternate]⟩
      ⟨.ifElse, notes, [test, consequent', alternate']⟩ := by
  refine ⟨rfl, rfl, ?_⟩
  rw [pruned, pruned, fails]
  dsimp only
  rw [kept.absent, kept.remains]

theorem of_ifElse (tests : Interchangeable env .single test test')
    (consequents : Interchangeable env .single consequent consequent')
    (alternates : Interchangeable env .single alternate alternate') :
    pruned env slot ⟨.ifElse, notes, [test, consequent, alternate]⟩ =
      pruned env slot ⟨.ifElse, notes, [test', consequent', alternate']⟩ := by
  have verdicts : verdict env slot test = verdict env slot test' := by
    rw [verdict, verdict, tests.decided]
  by_cases inner : slot = .inner
  · have parts := prunedParts_eq_of_each
      (.cons tests (.cons consequents (.cons alternates .nil)))
    subst inner
    rw [pruned_inner, pruned_inner]
    exact congrArg (fun parts => some (Node.mk .ifElse notes parts)) parts
  · cases outcome : verdict env slot test with
    | none =>
      have parts := prunedParts_eq_of_each
        (.cons tests (.cons consequents (.cons alternates .nil)))
      rw [pruned, pruned, ← verdicts, outcome]
      exact congrArg (fun parts => some (Node.mk .ifElse notes parts)) parts
    | some holds =>
      rw [pruned, pruned, ← verdicts, outcome]
      cases holds with
      | true => exact (consequents.of_single inner).remains
      | false =>
        dsimp only
        rw [alternates.absent, (alternates.of_single inner).remains]

theorem of_parts {form : Form} {parts parts' : List Node}
    (each : List.Forall₂ (Interchangeable env form.slot) parts parts') :
    Interchangeable env slot ⟨form, notes, parts⟩ ⟨form, notes, parts'⟩ := by
  have below := prunedParts_eq_of_each each
  have lives : live env ⟨form, notes, parts⟩ = live env ⟨form, notes, parts'⟩ := by
    rw [live_eq, live_eq, below]
  refine ⟨rfl, ?_, ?_⟩
  · rw [← condition_live, lives, condition_live]
  · by_cases guard : form = .ifElse ∧ parts.length = 3
    · obtain ⟨rfl, three⟩ := guard
      obtain ⟨test, consequent, alternate, rfl⟩ := List.length_eq_three.mp three
      obtain _ | ⟨tests, _ | ⟨consequents, _ | ⟨alternates, _ | _⟩⟩⟩ := each
      exact of_ifElse tests consequents alternates
    · have plain {ps : List Node} (length : ps.length = parts.length) :
          pruned env slot ⟨form, notes, ps⟩ =
            some ⟨form, notes, prunedParts env form.slot ps⟩ := by
        apply pruned.eq_2
        rintro test consequent alternate rfl rfl
        exact guard ⟨rfl, length.symm⟩
      rw [plain rfl, plain each.length_eq.symm, below]

end Interchangeable

mutual

theorem Alike.interchangeable {slot : Slot} {n n' : Node} :
    Alike env slot n n' → Interchangeable env slot n n'
  | .node below => .of_parts below.interchangeable
  | .holds decided kept => .of_holds decided kept.interchangeable
  | .fails decided kept => .of_fails decided kept.interchangeable

theorem AlikeParts.interchangeable {slot : Slot} {parts parts' : List Node} :
    AlikeParts env slot parts parts' → List.Forall₂ (Interchangeable env slot) parts parts'
  | .nil => .nil
  | .cons first later => .cons first.interchangeable later.interchangeable

end

/-- Nothing is left of the differences once a program is pruned. -/
theorem Alike.live_eq {n n' : Node} (h : Alike env .inner n n') : n.live env = n'.live env := by
  rw [live, live, h.interchangeable.remains, pruned_inner]
  rfl

end

end Script.Node

namespace Polling

def plan : Plan := .ofConfig (.ofString "/") .default_

/-- `require("…");` -/
def required (specifier : String) : Script.Node :=
  .of .evaluate [.of (.call false [])
    [.leaf (.identifier "require"), .leaf (.string specifier false)]]

/-- `process.env.NODE_ENV === "…"` -/
def compared (value : String) : Script.Node :=
  .of (.binary .identical)
    [.of (.member "NODE_ENV" false) [.of (.member "env" false) [.leaf (.identifier "process")]],
      .leaf (.string value false)]

/-- `if (process.env.NODE_ENV === "…") … else …` -/
def guarded (value : String) (consequent alternative : Script.Node) : Script.Node :=
  .of .ifElse [compared value, consequent, alternative]

def program (test production : Script.Node) : Script.Node :=
  .of (.program none []) [.of .whileLoop [.leaf .this,
    guarded "test" test (guarded "production" production (required "fs"))]]

theorem alike (test test' production production' : Script.Node) :
    (program test production).Alike plan.env .inner (program test' production') := by
  have last : (required "fs").Alike plan.env .single (required "fs") :=
    .node (.cons (.node (.cons (.node .nil) (.cons (.node .nil) .nil))) .nil)
  have otherwise : (guarded "production" production (required "fs")).Alike plan.env .single
      (guarded "production" production' (required "fs")) := .fails (by decide) last
  have body : (guarded "test" test (guarded "production" production (required "fs"))).Alike plan.env
      .single (guarded "test" test' (guarded "production" production' (required "fs"))) :=
    .fails (by decide) otherwise
  exact .node (.cons (.node (.cons (.node .nil) (.cons body .nil))) .nil)

end Polling

namespace Build

/-- Programs that differ only inside dropped branches are rewritten alike: with the same outcome, in
the same context and to the same program. -/
theorem bindProgram_of_alike {plan : Plan} {program program' : Script.Node}
    (alike : program.Alike plan.env .inner program') (d : Disk) (depth : Nat) (base : Path)
    (c : Context) :
    (bindProgram plan (includeModule plan d depth base) program : Build _).run.run c =
      (bindProgram plan (includeModule plan d depth base) program' : Build _).run.run c := by
  rw [bindProgram_eq, bindProgram_eq, alike.live_eq]

/-- Requires that lead nowhere are no hindrance in a dropped branch. -/
theorem bindProgram_of_alike_polling :
    (Polling.program (Polling.required "./gone") (Polling.required "./lost")).Alike
      Polling.plan.env .inner (Polling.program (.leaf .empty) (.leaf .debugger)) ∧
    (bindProgram Polling.plan (includeModule Polling.plan default 1 (.ofString "/"))
        (Polling.program (Polling.required "./gone") (Polling.required "./lost")) :
          Build _).run.run .empty =
      (bindProgram Polling.plan (includeModule Polling.plan default 1 (.ofString "/"))
        (Polling.program (.leaf .empty) (.leaf .debugger)) : Build _).run.run .empty ∧
    ∃ bound c, (bindProgram Polling.plan (includeModule Polling.plan default 1 (.ofString "/"))
        (Polling.program (.leaf .empty) (.leaf .debugger)) : Build _).run.run .empty =
      (.ok bound, c) ∧ c.externals = ["fs"] := by
  have alike := Polling.alike (Polling.required "./gone") (.leaf .empty)
    (Polling.required "./lost") (.leaf .debugger)
  refine ⟨alike, bindProgram_of_alike alike _ _ _ _, ?_⟩
  have succeeds : (match (bindProgram Polling.plan
        (includeModule Polling.plan default 1 (.ofString "/"))
        (Polling.program (.leaf .empty) (.leaf .debugger)) : Build _).run.run .empty with
      | (.ok _, c) => c.externals == ["fs"]
      | (.error _, _) => false) = true := by decide +kernel
  split at succeeds
  · rename_i bound c ran
    exact ⟨bound, c, ran, beq_iff_eq.mp succeeds⟩
  · cases succeeds

end Build

end Bundler
