import Bundler.Session
import Bundler.Proofs.Session

/-! What a session keeps. No action takes back or replaces anything that was found before it, and that
is so in all contexts that a build goes through, so also where it is given up. -/

namespace Bundler

theorem Cache.get?_read {c after : Cache} {d : Disk} {p q : Path} {text held : String}
    (h : c.read d p = .ok (text, after)) (there : c.get? q = some held) :
    after.get? q = some held := by
  rcases Cache.read_ok h with ⟨rfl, -⟩ | ⟨rfl, -⟩
  · exact there
  · rw [get?_concat, there, Option.some_or]

/-- A context has all that another one holds: the same modules first, with their programs, the same
specifiers first, the same texts, and at least the modules that calls were bound to. -/
structure Context.Retains (c c₀ : Context) : Prop extends Context.Extends c c₀ where
  texts : ∀ p text, c₀.cache.get? p = some text → c.cache.get? p = some text
  bound : c₀.bound ⊆ c.bound

namespace Context.Retains

theorem rfl {c : Context} : c.Retains c := ⟨.rfl, fun _ _ there => there, List.Subset.refl _⟩

theorem kept (c₀ : Context) : Kept fun c => c.Retains c₀ where
  read holds read := by
    refine ⟨(Extends.kept c₀).read holds.toExtends read, fun p text there => ?_, holds.bound⟩
    exact Cache.get?_read read (holds.texts p text there)
  leave specifier holds :=
    ⟨(Extends.kept c₀).leave specifier holds.toExtends, by simpa using holds.texts,
      by simpa using holds.bound⟩
  record holds known :=
    ⟨(Extends.kept c₀).record holds.toExtends known, by simpa using holds.texts,
      fun _ mem => mem_record_bound.mpr (.inr (holds.bound mem))⟩
  enter holds new := ⟨(Extends.kept c₀).enter holds.toExtends new, holds.texts, holds.bound⟩
  complete p program earlier holds fresh walked :=
    ⟨(Extends.kept c₀).complete p program earlier.toExtends holds.toExtends fresh walked,
      holds.texts, holds.bound⟩

end Context.Retains

theorem Walk.retains {plan : Plan} {d : Disk} {base : Path} {specifiers : List String}
    {c c' : Context} {answers : List (Option ContentId)}
    (h : Walk plan d base specifiers c answers c') : c'.Retains c :=
  ((Context.Retains.kept c).walk h .rfl).1

namespace Session.State

def builds : State → List Action → List Step
  | _, [] => []
  | s, .build entry :: rest => ⟨s.disk, entry⟩ :: (s.perform (.build entry)).2.builds rest
  | s, action :: rest => (s.perform action).2.builds rest

/-- All contexts that some actions go through, those inside the walks of modules too. -/
def history (s : State) (actions : List Action) : List Context :=
  (trace s.plan (.start s.context) (s.builds actions)).states

theorem perform_plan (s : State) (action : Action) : (s.perform action).2.plan = s.plan := by
  cases action with
  | build entry => unfold perform; dsimp only; split <;> rfl
  | _ => rfl

theorem perform_build_context (s : State) (entry : Path) : (s.perform (.build entry)).2.context =
    ((Build.entry s.plan s.disk entry).run.run s.context).2 := by
  unfold perform
  dsimp only
  split <;> rename_i ran <;> rw [ran]

theorem after_plan (s : State) (actions : List Action) : (s.after actions).plan = s.plan := by
  induction actions generalizing s with
  | nil => rfl
  | cons action rest ih => exact (ih (s.perform action).2).trans (s.perform_plan action)

theorem after_context (s : State) (actions : List Action) :
    (s.after actions).context = run s.plan s.context (s.builds actions) := by
  induction actions generalizing s with
  | nil => rfl
  | cons action rest ih =>
    have later := ih (s.perform action).2
    rw [perform_plan] at later
    refine later.trans ?_
    cases action with
    | build entry =>
      rw [perform_build_context]
      rfl
    | _ => rfl

theorem after_mem_history (s : State) (actions : List Action) :
    (s.after actions).context ∈ s.history actions := by
  have last := trace_now s.plan (s.builds actions) (.start s.context)
  rw [after_context]
  exact last ▸ List.mem_cons_self

/-- What each step of a build keeps holds of all contexts that some actions go through. -/
theorem forall_history {inv : Context → Prop} (kept : Kept inv) {s : State} (holds : inv s.context)
    (actions : List Action) : ∀ c ∈ s.history actions, inv c := by
  refine forall_trace kept s.plan _ fun c mem => ?_
  rw [List.mem_singleton.mp mem]
  exact holds

theorem after_kept {inv : Context → Prop} (kept : Kept inv) {s : State} (holds : inv s.context)
    (actions : List Action) : inv (s.after actions).context :=
  forall_history kept holds actions _ (s.after_mem_history actions)

end Session.State

namespace Session

/-- Whatever is done in a session, with builds that succeed or fail anywhere, adds to the context. The
modules before stay the first ones, each with its content, path, place and program; the texts that
have been read stay those of their paths; calls stay bound; specifiers that were left to the host
stay the first ones; and the environment stays the same. -/
theorem actions_only_add (s : State) (actions : List Action) :
    (s.after actions).context.Retains s.context ∧
    (s.after actions).plan = s.plan ∧
    ∀ c ∈ s.history actions, c.Retains s.context := by
  have kept := Context.Retains.kept s.context
  exact ⟨s.after_kept kept .rfl actions, s.after_plan actions, s.forall_history kept .rfl actions⟩

end Session

end Bundler
