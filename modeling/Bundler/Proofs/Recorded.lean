import Bundler.Proofs.Growth
import Bundler.Proofs.Halt

/-! Where the programs of a session come from. A module, and an entry that has been built, is what the
text that is kept for its path holds, with its requires bound; and whatever a call of it was bound to
is recorded, also if the build has failed later and if the files have become others since. -/

namespace Bundler

/-- A program is another one with its requires answered by modules of a list or by the host. -/
def BoundWithin (ids : List ContentId) (live bound : Script.Node) : Prop :=
  ∃ answers, bound = (live.fill answers).1 ∧ ∀ id, some id ∈ answers → id ∈ ids

namespace BoundWithin

variable {ids ids' : List ContentId} {live bound : Script.Node}

theorem mono (h : BoundWithin ids live bound) (more : ids ⊆ ids') : BoundWithin ids' live bound := by
  obtain ⟨answers, same, within⟩ := h
  exact ⟨answers, same, fun id mem => more (within id mem)⟩

theorem rewritten (h : BoundWithin ids live bound) {id : ContentId}
    (rewritten : Rewritten live bound id) : id ∈ ids := by
  obtain ⟨answers, rfl, within⟩ := h
  obtain ⟨position, call, specifier, found, requires, there⟩ := rewritten
  exact within id (Script.Node.mem_of_bound found requires there)

end BoundWithin

section

variable (plan : Plan) (c : Context)

/-- What is live of an entry, by the text that is kept for its path, before its requires are bound. -/
def Context.entryProgram? (path : Path) : Option Script.Node := do
  let text ← c.cache.get? path
  let parsed ← (Script.parse true text).toOption
  return (Build.splitHashbang parsed).2.live plan.env

/-- What is live of a module inside its wrapper, by the text that is kept for its path, before its
requires are bound. -/
def Context.moduleProgram? (m : Module) : Option Script.Node := do
  let text ← c.cache.get? m.path
  let wrapped ← (Script.parse true (Wrapper.wrap m.id text plan.instantiation)).toOption
  return wrapped.live plan.env

def Module.Recorded (m : Module) : Prop :=
  ∃ live ∈ c.moduleProgram? plan m, BoundWithin c.bound live m.program

def EntryScript.Recorded (script : EntryScript) : Prop :=
  ∃ live ∈ c.entryProgram? plan script.path, BoundWithin c.bound live script.program

def Context.Recorded : Prop := ∀ m ∈ c.graph.modules, m.Recorded plan c

end

variable {plan : Plan} {d : Disk} {c c' : Context}

theorem Cache.get?_of_read {cache after : Cache} {p : Path} {text : String}
    (h : cache.read d p = .ok (text, after)) : after.get? p = some text := by
  rcases Cache.read_cases h with ⟨held, rfl⟩ | ⟨new, -, rfl⟩
  · exact held
  · have own : p.same p := beq_self_eq_true p.components
    rw [get?_concat, new, Option.none_or, if_pos own]

namespace Context

theorem Retains.entryProgram? (h : c'.Retains c) {path : Path} {live : Script.Node}
    (source : c.entryProgram? plan path = some live) :
    c'.entryProgram? plan path = some live := by
  obtain ⟨text, held, rest⟩ := Option.bind_eq_some_iff.mp source
  exact Option.bind_eq_some_iff.mpr ⟨text, h.texts path text held, rest⟩

theorem Retains.moduleProgram? (h : c'.Retains c) {m : Module} {live : Script.Node}
    (source : c.moduleProgram? plan m = some live) :
    c'.moduleProgram? plan m = some live := by
  obtain ⟨text, held, rest⟩ := Option.bind_eq_some_iff.mp source
  exact Option.bind_eq_some_iff.mpr ⟨text, h.texts m.path text held, rest⟩

theorem entryProgram?_eq {path : Path} {text : String} {parsed : Script.Node}
    (held : c.cache.get? path = some text) (isScript : Script.parse true text = .ok parsed) :
    c.entryProgram? plan path = some ((Build.splitHashbang parsed).2.live plan.env) := by
  simp only [entryProgram?, held, Option.bind_eq_bind, Option.bind_some, isScript]
  rfl

theorem moduleProgram?_eq {m : Module} {text : String} {wrapped : Script.Node}
    (held : c.cache.get? m.path = some text)
    (parsed : Script.parse true (Wrapper.wrap m.id text plan.instantiation) = .ok wrapped) :
    c.moduleProgram? plan m = some (wrapped.live plan.env) := by
  simp only [moduleProgram?, held, Option.bind_eq_bind, Option.bind_some, parsed]
  rfl

end Context

theorem EntryScript.Recorded.mono {script : EntryScript} (h : script.Recorded plan c)
    (more : c'.Retains c) : script.Recorded plan c' := by
  obtain ⟨live, source, bound⟩ := h
  exact ⟨live, more.entryProgram? source, bound.mono more.bound⟩

theorem Module.Recorded.mono {m : Module} (h : m.Recorded plan c) (more : c'.Retains c) :
    m.Recorded plan c' := by
  obtain ⟨live, source, bound⟩ := h
  exact ⟨live, more.moduleProgram? source, bound.mono more.bound⟩

theorem Context.Recorded.mono (h : c.Recorded plan) (same : c'.graph = c.graph)
    (more : c'.Retains c) : c'.Recorded plan :=
  fun m mem => (h m (same ▸ mem)).mono more

theorem Context.Recorded.complete {id : ContentId} {p : Path} {program : Script.Node}
    (h : c.Recorded plan) (new : ∀ order, Module.Recorded plan c ⟨id, p, program, order⟩) :
    (c.complete id p program).Recorded plan := by
  intro m mem
  rcases Graph.mem_insert mem with there | ⟨order, rfl⟩
  · exact h m there
  · exact new order

theorem Walk.bound_first {base : Path} {specifiers : List String}
    {answers : List (Option ContentId)} {own : ContentId}
    (h : Walk plan d base specifiers (c.record own) answers c') : own ∈ c'.bound :=
  h.retains.bound (Context.mem_record_bound.mpr (.inl rfl))

theorem Walk.recorded {base : Path} {specifiers : List String} {answers : List (Option ContentId)}
    (h : Walk plan d base specifiers c answers c') (holds : c.Recorded plan) :
    c'.Recorded plan ∧ ∀ id, some id ∈ answers → id ∈ c'.bound := by
  induction h with
  | done => exact ⟨holds, fun _ mem => nomatch mem⟩
  | @host _ _ left _ c _ _ _ _ _ later =>
    have grown := (Context.Retains.kept c).leave left .rfl
    obtain ⟨recorded, bound⟩ := later (holds.mono (c.leave_graph left) grown)
    refine ⟨recorded, fun id mem => ?_⟩
    cases mem with
    | tail _ mem => exact bound id mem
  | @known _ _ _ _ _ _ _ own c _ cache _ _ read _ known after later =>
    have kept := Context.Retains.kept c
    have grown := kept.record (kept.read .rfl read) known
    obtain ⟨recorded, bound⟩ := later (holds.mono (Context.record_graph ..) grown)
    refine ⟨recorded, fun id mem => ?_⟩
    cases mem with
    | head => exact after.bound_first
    | tail _ mem => exact bound id mem
  | @new _ path _ _ text _ _ own c between _ cache _ wrapped inner _
      _ read _ new _ parsed inside after deeper later =>
    have kept := Context.Retains.kept c
    have entered := kept.enter (kept.read .rfl read) new
    obtain ⟨walked, answered⟩ := deeper (holds.mono rfl entered)
    -- the text that was read is still kept when the module is completed
    have held : between.cache.get? path = some text :=
      inside.retains.texts path text (Cache.get?_of_read read)
    let program := ((wrapped.live plan.env).fill inner).1
    have module (order : Nat) : Module.Recorded plan between ⟨own, path, program, order⟩ :=
      ⟨_, Context.moduleProgram?_eq held parsed, inner, rfl, answered⟩
    have completed := walked.complete module
    have known := between.knows_complete own path program
    have grown := (Context.Retains.kept _).record .rfl known
    obtain ⟨recorded, bound⟩ := later (completed.mono (Context.record_graph ..) grown)
    refine ⟨recorded, fun id mem => ?_⟩
    cases mem with
    | head => exact after.bound_first
    | tail _ mem => exact bound id mem

theorem Context.Recorded.keptByWalks : KeptByWalks plan d fun c => c.Recorded plan where
  walk walked holds := (walked.recorded holds).1
  read {c _ _ _} holds read := holds.mono rfl ((Context.Retains.kept c).read .rfl read)
  enter {c _} holds new := holds.mono rfl ((Context.Retains.kept c).enter .rfl new)

namespace Build

theorem entry_retains (plan : Plan) (d : Disk) (c : Context) (path : Path) :
    ((entry plan d path).run.run c).2.Retains c :=
  ((Context.Retains.kept c).byWalks plan d).entry path .rfl

theorem entry_recorded {path : Path} {script : EntryScript} (holds : c.Recorded plan)
    (h : (entry plan d path).run.run c = (.ok script, c')) : script.Recorded plan c' := by
  obtain ⟨text, cache, parsed, answers, read, isScript, walk, rfl⟩ := entry_ok h
  have started := Context.Recorded.keptByWalks.read holds read
  obtain ⟨-, recorded⟩ := walk.recorded started
  have held := walk.retains.texts path text (Cache.get?_of_read read)
  exact ⟨_, Context.entryProgram?_eq held isScript, answers, rfl, recorded⟩

end Build

/-- The calls of all modules and of all entries that have been built are bound to modules that are
recorded. -/
structure Session.State.Recorded (s : State) : Prop where
  modules : s.context.Recorded s.plan
  scripts : ∀ script ∈ s.scripts, script.Recorded s.plan s.context

namespace Session.State.Recorded

theorem start (plan : Plan) (d : Disk) : (State.start plan d).Recorded :=
  ⟨fun _ mem => absurd mem List.not_mem_nil, fun _ mem => absurd mem List.not_mem_nil⟩

theorem perform {s : State} (h : s.Recorded) (action : Action) : (s.perform action).2.Recorded := by
  cases action with
  | build path =>
    have modules := Context.Recorded.keptByWalks.entry (d := s.disk) path h.modules
    have retains := Build.entry_retains s.plan s.disk s.context path
    have older (script : EntryScript) (mem : script ∈ s.scripts) := (h.scripts script mem).mono retains
    unfold State.perform
    dsimp only
    rcases ran : (Build.entry s.plan s.disk path).run.run s.context with ⟨e | script, context⟩
    · rw [ran] at modules older
      exact ⟨modules, older⟩
    · rw [ran] at modules older
      exact ⟨modules, List.forall_mem_cons.mpr ⟨Build.entry_recorded h.modules ran, older⟩⟩
  | _ => exact ⟨h.modules, h.scripts⟩

theorem after {s : State} (h : s.Recorded) (actions : List Action) : (s.after actions).Recorded := by
  induction actions generalizing s with
  | nil => exact h
  | cons action rest ih => exact ih (h.perform action)

end Session.State.Recorded

end Bundler
