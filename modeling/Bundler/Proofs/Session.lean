import Bundler.Proofs.Built

/-! Several builds on one context, of which some may fail, and what all contexts have in common that
they go through. -/

namespace Bundler

/-- A build of a session, on the disk as it is at that time. -/
structure Session.Step where
  disk : Disk
  entry : Path

namespace Session

def run (plan : Plan) (c : Context) (steps : List Step) : Context :=
  steps.foldl (fun c s => ((Build.entry plan s.disk s.entry).run.run c).2) c

/-- The contexts that some builds go through, those inside the walks of modules too. -/
def trace (plan : Plan) (h : History) (steps : List Step) : History :=
  steps.foldl (fun h s => ((Build.buildEntry plan s.disk s.entry : Traced _).run.run h).2) h

theorem trace_now (plan : Plan) (steps : List Step) (h : History) :
    (trace plan h steps).now = run plan h.now steps := by
  induction steps generalizing h with
  | nil => rfl
  | cons step steps ih =>
    have same := congrArg Prod.snd (Traced.Follows.entry plan step.disk step.entry h)
    rw [run, List.foldl_cons, same]
    exact ih _

/-- What each step keeps holds of all contexts of a session, if it holds of the first. -/
theorem forall_trace {inv : Context → Prop} (kept : Kept inv) (plan : Plan) (steps : List Step)
    {h : History} (holds : ∀ c ∈ h.states, inv c) : ∀ c ∈ (trace plan h steps).states, inv c := by
  induction steps generalizing h with
  | nil => exact holds
  | cons step steps ih => exact ih (kept.buildEntry _ plan step.disk step.entry h holds rfl).1

/-- In every context of a session, calls are bound to modules that are in the graph or being
walked, and no module is both. A step that succeeds leaves the modules being walked as they were,
so after a build in an empty context all calls have a definition. -/
theorem bound_accounted (plan : Plan) :
    (∀ steps, (trace plan (.start .empty) steps).now = run plan .empty steps ∧
      ∀ c ∈ (trace plan (.start .empty) steps).states,
        (∀ id ∈ c.bound, c.graph.contains id ∨ id ∈ c.inProgress) ∧
        ∀ id ∈ c.inProgress, ¬ c.graph.contains id) ∧
    (∀ d depth base specifier c target c',
      (Build.includeModule plan d depth base specifier : Build _).run.run c = (.ok target, c') →
      c'.inProgress = c.inProgress) ∧
    (∀ d path c script c', (Build.entry plan d path).run.run c = (.ok script, c') →
      c'.inProgress = c.inProgress) ∧
    ∀ d path script c, (Build.entry plan d path).run.run .empty = (.ok script, c) →
      c.inProgress = [] ∧
      (∀ id ∈ c.bound, c.graph.contains id) ∧
      (∀ id, script.Calls plan d id → c.graph.contains id) ∧
      (∀ m ∈ c.graph.modules, ∀ id, m.Calls plan d id → c.graph.contains id) ∧
      ∀ shim, ∃ code, Emit.emit script c.graph c.bound ⟨false, shim⟩ = .ok code := by
  refine ⟨fun steps => ⟨trace_now plan steps _, fun c mem => ?_⟩, ?_, ?_, ?_⟩
  · have first : ∀ c ∈ (History.start .empty).states, c.Accounted := by
      rintro c mem
      exact List.mem_singleton.mp mem ▸ .empty
    have holds := forall_trace Context.Accounted.kept plan steps first c mem
    exact ⟨fun id bound => Context.knows_iff.mp (holds.bound id bound), holds.apart⟩
  · intro d depth base specifier c target c' ran
    have keeps := Kept.always.includeModule c.inProgress plan d depth base specifier
    exact (keeps.of_follows (.includeModule plan d depth base specifier) trivial rfl ran).1
  · intro d path c script c' ran
    have keeps := Kept.always.buildEntry c.inProgress plan d path
    exact keeps.of_follows (.entry plan d path) trivial rfl ran
  · intro d path script c ran
    have built := Build.built_of_entry ran
    refine ⟨built.finished, built.contains_of_bound, built.entered, fun m mem id calls => ?_,
      fun shim => ⟨_, built.emit_eq shim⟩⟩
    exact built.contains_of_calls mem calls

end Session

end Bundler
