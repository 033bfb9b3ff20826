import Bundler.Build
import Bundler.Proofs.Script.Phases

/-! Runs of computations that keep a state when they fail. -/

namespace Bundler.Build

section

variable {ε σ α β : Type}

theorem run_bind (x : ExceptT ε (StateM σ) α) (f : α → ExceptT ε (StateM σ) β) (s : σ) :
    (x >>= f).run.run s = match x.run.run s with
      | (.ok a, s') => (f a).run.run s'
      | (.error e, s') => (.error e, s') := by
  rw [ExceptT.run_bind, StateT.run_bind]
  cases h : x.run.run s with
  | mk result s' => cases result <;> rfl

theorem run_bind_ok {x : ExceptT ε (StateM σ) α} {f : α → ExceptT ε (StateM σ) β} {s s' : σ} {b : β}
    (h : (x >>= f).run.run s = (.ok b, s')) :
    ∃ a between, x.run.run s = (.ok a, between) ∧ (f a).run.run between = (.ok b, s') := by
  rw [run_bind] at h
  split at h
  · exact ⟨_, _, ‹_›, h⟩
  · cases h

theorem run_bind_error {x : ExceptT ε (StateM σ) α} {f : α → ExceptT ε (StateM σ) β} {s s' : σ}
    {e : ε} (h : (x >>= f).run.run s = (.error e, s')) : x.run.run s = (.error e, s') ∨
      ∃ a between, x.run.run s = (.ok a, between) ∧ (f a).run.run between = (.error e, s') := by
  rw [run_bind] at h
  split at h
  · exact .inr ⟨_, _, ‹_›, h⟩
  · rename_i failed
    cases h
    exact .inl failed

theorem run_map_ok {x : ExceptT ε (StateM σ) α} {f : α → β} {s s' : σ} {b : β}
    (h : (f <$> x).run.run s = (.ok b, s')) : ∃ a, x.run.run s = (.ok a, s') ∧ f a = b := by
  rw [map_eq_pure_bind] at h
  obtain ⟨a, between, ran, rest⟩ := run_bind_ok h
  cases rest
  exact ⟨a, ran, rfl⟩

end

variable {σ α β : Type}

theorem run_attempt (x : ExceptT BundleFault (StateM σ) α) (s : σ) :
    (attempt x).run.run s = (.ok (x.run.run s).1, (x.run.run s).2) := by
  have caught : attempt x = tryCatch (Except.ok <$> x) fun e => pure (.error e) := rfl
  rw [caught, ExceptT.run_tryCatch, ExceptT.run_map, StateT.run_bind, StateT.run_map]
  rcases x.run.run s with ⟨_ | _, s'⟩ <;> rfl

theorem attempt_bind {x : ExceptT BundleFault (StateM σ) α}
    {f : Except BundleFault α → ExceptT BundleFault (StateM σ) β}
    {g : α → ExceptT BundleFault (StateM σ) β} (value : ∀ a, f (.ok a) = g a)
    (failure : ∀ e, f (.error e) = throw e) : attempt x >>= f = x >>= g := by
  refine ExceptT.ext (StateT.ext fun s => ?_)
  rw [run_bind, run_bind, run_attempt]
  rcases x.run.run s with ⟨e | a, s'⟩
  · exact congrArg (·.run.run s') (failure e)
  · exact congrArg (·.run.run s') (value a)

theorem mapM_attempt (f : α → ExceptT BundleFault (StateM σ) β) (l : List α) :
    (l.mapM fun a => ExceptT.mk (attempt (f a))).run >>= MonadExcept.ofExcept = l.mapM f := by
  induction l with
  | nil => rfl
  | cons a l ih =>
    rw [List.mapM_cons, List.mapM_cons, ExceptT.run_bind, ExceptT.run_mk, bind_assoc, ← ih]
    refine attempt_bind (fun b => ?_) fun e => by rw [pure_bind]; rfl
    simp only [ExceptT.run_bind, bind_assoc]
    exact bind_congr fun result => by cases result <;> simp [MonadExcept.ofExcept]

theorem bindProgram_eq [MonadStateOf Context (ExceptT BundleFault (StateM σ))] (plan : Plan)
    (ask : String → ExceptT BundleFault (StateM σ) (Option ContentId)) (program : Script.Node) :
    bindProgram plan ask program = (fun answers => ((program.live plan.env).fill answers).1) <$>
      (program.live plan.env).requires.mapM (answer ask) := by
  have walk := Script.Node.visitNode_remembers plan.env (attempt <| answer ask ·) program
  have caught : bindProgram plan ask program =
      (program.phases plan.env fun s => ExceptT.mk (attempt (answer ask s))).run >>=
        MonadExcept.ofExcept := by
    rw [← walk.same, bindProgram, map_eq_pure_bind, bind_assoc]
    refine bind_congr fun ⟨bound, failure⟩ => ?_
    cases failure <;> simp [Script.Node.finished, MonadExcept.ofExcept]
  rw [caught, Script.Node.phases, ExceptT.run_map, ← mapM_attempt, map_eq_pure_bind,
    map_eq_pure_bind, bind_assoc, bind_assoc]
  exact bind_congr fun result => by cases result <;> simp [MonadExcept.ofExcept, Except.map]

end Bundler.Build
