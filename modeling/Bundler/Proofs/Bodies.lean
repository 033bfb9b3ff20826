import Bundler.Proofs.Containment
import Bundler.Proofs.Recorded

/-! What the modules of a session consist of. Each is its own text, as the cache has it, in a wrapper
around it; pruning and the answers to requires change the body of the module's own function and leave
the wrapper as it is. -/

namespace Bundler

namespace Wrapper

open Script

variable (id : ContentId) (mode : Instantiation)

theorem live_program (env : String) (notes : List Comment) (parts : List Node) :
    (program id mode (.of (.body notes) parts)).live env =
      program id mode ((Node.of (.body notes) parts).live env) := by
  cases mode <;> rfl

theorem fill_program (body : Node) (answers : List (Option ContentId)) :
    ((program id mode body).fill answers).1 = program id mode (body.fill answers).1 := by
  cases mode <;> rfl

end Wrapper

/-- The text that is kept for the path of a module is a script, and the module is known by it. -/
def Module.Sourced (c : Context) (m : Module) : Prop :=
  ∃ text alone, c.cache.get? m.path = some text ∧ ContentId.ofText text = m.id ∧
    Script.parse true text = .ok alone

def Context.Sourced (c : Context) : Prop := ∀ m ∈ c.graph.modules, m.Sourced c

section

variable {plan : Plan} {d : Disk} {c c' : Context}

theorem Module.Sourced.mono {m : Module} (h : m.Sourced c) (more : c'.Retains c) : m.Sourced c' := by
  obtain ⟨text, alone, held, named, isScript⟩ := h
  exact ⟨text, alone, more.texts m.path text held, named, isScript⟩

namespace Context.Sourced

theorem mono (h : c.Sourced) (same : c'.graph = c.graph) (more : c'.Retains c) : c'.Sourced :=
  fun m mem => (h m (same ▸ mem)).mono more

theorem complete {id : ContentId} {p : Path} {program : Script.Node} (h : c.Sourced)
    (new : ∀ order, Module.Sourced c ⟨id, p, program, order⟩) : (c.complete id p program).Sourced := by
  intro m mem
  rcases Graph.mem_insert mem with there | ⟨order, rfl⟩
  · exact h m there
  · exact new order

theorem walk {base : Path} {specifiers : List String} {answers : List (Option ContentId)}
    (h : Walk plan d base specifiers c answers c') (holds : c.Sourced) : c'.Sourced := by
  induction h with
  | done => exact holds
  | @host _ _ left _ c _ _ _ _ _ later =>
    exact later (holds.mono (c.leave_graph left) ((Context.Retains.kept c).leave left .rfl))
  | @known _ _ _ _ _ _ _ _ c _ _ _ _ read _ known _ later =>
    have kept := Context.Retains.kept c
    exact later (holds.mono (Context.record_graph ..) (kept.record (kept.read .rfl read) known))
  | @new _ path _ _ text _ _ own c between _ _ alone wrapped inner _
      _ read named new isScript _ inside _ deeper later =>
    have kept := Context.Retains.kept c
    have walked := deeper (holds.mono rfl (kept.enter (kept.read .rfl read) new))
    have held : between.cache.get? path = some text :=
      inside.retains.texts path text (Cache.get?_of_read read)
    let program := ((wrapped.live plan.env).fill inner).1
    have completed : (between.complete own path program).Sourced :=
      walked.complete fun _ => ⟨text, alone, held, named, isScript⟩
    have known := between.knows_complete own path program
    exact later (completed.mono (Context.record_graph ..)
      ((Context.Retains.kept _).record .rfl known))

theorem keptByWalks : KeptByWalks plan d Context.Sourced where
  walk := walk
  read {c _ _ _} holds read := holds.mono rfl ((Context.Retains.kept c).read .rfl read)
  enter {c _} holds new := holds.mono rfl ((Context.Retains.kept c).enter .rfl new)

end Context.Sourced

end

theorem KeptByWalks.after {plan : Plan} {inv : Context → Prop}
    (kept : ∀ d, KeptByWalks plan d inv) {s : Session.State} (same : s.plan = plan)
    (holds : inv s.context) (actions : List Session.Action) : inv (s.after actions).context := by
  induction actions generalizing s with
  | nil => exact holds
  | cons action rest ih =>
    refine ih ((s.perform_plan action).trans same) ?_
    cases action with
    | build entry =>
      rw [Session.State.perform_build_context, same]
      exact (kept s.disk).entry entry holds
    | _ => exact holds

/-- A module of a session is its text in the wrapper, pruned and with its requires bound. If the
wrapper leaves out no more than the `#!` line, then the module's own function holds all of the text. -/
theorem Session.module_body {plan : Plan} {d : Disk} {earlier : List Action} {s : State}
    (reached : (State.start plan d).after earlier = s) {m : Module}
    (mem : m ∈ s.context.graph.modules) :
    ∃ text alone, s.context.cache.get? m.path = some text ∧ ContentId.ofText text = m.id ∧
      Script.parse true text = .ok alone ∧
      (Wrapper.DropsLine text → ∃ notes answers, m.program =
        Wrapper.program m.id plan.instantiation
          (((Script.Node.of (.body notes) alone.parts).live plan.env).fill answers).1) := by
  subst reached
  have first : (State.start plan d).context.Sourced := fun _ mem => absurd mem List.not_mem_nil
  have sourced := KeptByWalks.after (fun _ => Context.Sourced.keptByWalks) rfl first earlier
  have recorded := ((State.Recorded.start plan d).after earlier).modules m mem
  rw [State.after_plan] at recorded
  obtain ⟨text, alone, held, named, isScript⟩ := sourced m mem
  obtain ⟨live, source, answers, bound, -⟩ := recorded
  refine ⟨text, alone, held, named, isScript, fun line => ?_⟩
  obtain ⟨notes, parsed⟩ := Wrapper.parse_wrap m.id text plan.instantiation line isScript
  cases (Context.moduleProgram?_eq held parsed).symm.trans source
  refine ⟨notes, answers, ?_⟩
  rw [bound, Wrapper.live_program, Wrapper.fill_program]

end Bundler
