import Bundler.Proofs.Context
import Bundler.Proofs.Run

/-! Builds that are related step by step. What relates the computations of two kinds, and is kept when
they are put in sequence and by each step of a build, relates the builds as a whole. Their plans may be
for different platforms: all that depends on the platform is what is left to the host. -/

namespace Bundler.Build

variable {σ τ : Type} [MonadStateOf Context (ExceptT BundleFault (StateM σ))]
  [MonadStateOf Context (ExceptT BundleFault (StateM τ))]

/-- A relation between computations that is kept in sequence, and by the steps that bind a program. -/
structure Stepwise (R : (α : Type) → ExceptT BundleFault (StateM σ) α →
    ExceptT BundleFault (StateM τ) α → Prop) : Prop where
  pure : ∀ {α} (a : α), R α (Pure.pure a) (Pure.pure a)
  bind : ∀ {α β x y f g}, R α x y → (∀ a, R β (f a) (g a)) → R β (x >>= f) (y >>= g)
  malformed : ∀ {α} path, R α (throw (.malformed path)) (throw (.malformed path))
  record : ∀ id, R PUnit (modifyThe Context (·.record id)) (modifyThe Context (·.record id))

/-- A relation that each step of a build keeps, on two platforms. -/
structure Congruence (plan : Plan) (p q : Platform) (R : (α : Type) →
    ExceptT BundleFault (StateM σ) α → ExceptT BundleFault (StateM τ) α → Prop) : Prop
    extends Stepwise R where
  throw : ∀ {α} (e : BundleFault), R α (MonadExcept.throw e) (MonadExcept.throw e)
  getContext : R Context (getThe Context) (getThe Context)
  readText : ∀ d path, R String (Build.readText d path) (Build.readText d path)
  leaveToHost : ∀ specifier, R PUnit (Build.leaveToHost { plan with platform := p } specifier)
    (Build.leaveToHost { plan with platform := q } specifier)
  enter : ∀ id, R PUnit (modifyThe Context (·.enter id)) (modifyThe Context (·.enter id))
  complete : ∀ id path program, R PUnit (modifyThe Context (·.complete id path program))
    (modifyThe Context (·.complete id path program))

variable {R : (α : Type) → ExceptT BundleFault (StateM σ) α →
  ExceptT BundleFault (StateM τ) α → Prop}

namespace Stepwise

variable (related : Stepwise R)
include related

theorem map {α β : Type} {x : ExceptT BundleFault (StateM σ) α} {y : ExceptT BundleFault (StateM τ) α}
    (f : α → β) (h : R α x y) : R β (f <$> x) (f <$> y) := by
  rw [map_eq_pure_bind, map_eq_pure_bind]
  exact related.bind h fun a => related.pure (f a)

theorem mapM {α β : Type} {x : α → ExceptT BundleFault (StateM σ) β}
    {y : α → ExceptT BundleFault (StateM τ) β} (l : List α) (each : ∀ a, R β (x a) (y a)) :
    R (List β) (l.mapM x) (l.mapM y) := by
  induction l with
  | nil => exact related.pure []
  | cons a l ih =>
    rw [List.mapM_cons, List.mapM_cons]
    exact related.bind (each a) fun b => related.bind ih fun bs => related.pure (b :: bs)

theorem parseScript (path : Path) (text : String) :
    R Script.Node (Build.parseScript path text) (Build.parseScript path text) := by
  unfold Build.parseScript
  cases Script.parse true text with
  | error _ => exact related.malformed path
  | ok program => exact related.pure program

variable {ask : String → ExceptT BundleFault (StateM σ) (Option ContentId)}
  {ask' : String → ExceptT BundleFault (StateM τ) (Option ContentId)}
  (each : ∀ specifier, R (Option ContentId) (ask specifier) (ask' specifier))
include each

theorem answer (specifier : String) :
    R (Option ContentId) (Build.answer ask specifier) (Build.answer ask' specifier) := by
  refine related.bind (each specifier) fun target => ?_
  cases target with
  | none => exact related.pure none
  | some id => exact related.bind (related.record id) fun _ => related.pure (some id)

theorem bindProgram {plan other : Plan} (env : plan.env = other.env) (program : Script.Node) :
    R Script.Node (Build.bindProgram plan ask program) (Build.bindProgram other ask' program) := by
  rw [bindProgram_eq, bindProgram_eq, env]
  exact related.map _ (related.mapM _ (related.answer each))

end Stepwise

namespace Congruence

variable {plan : Plan} {p q : Platform} (related : Congruence plan p q R)
include related

theorem includeModule (d : Disk) (depth : Nat) (base : Path) (specifier : String) :
    R (Option ContentId)
      (Build.includeModule { plan with platform := p } d depth base specifier)
      (Build.includeModule { plan with platform := q } d depth base specifier) := by
  -- the requires of a module are included one level deeper
  induction depth generalizing base specifier with
  | zero => exact related.throw _
  | succ depth deeper =>
    unfold Build.includeModule
    -- what is looked up does not depend on the platform
    cases plan.resolver.resolve d specifier base with
    | error e => exact related.throw e
    | ok found =>
      cases found with
      | external left =>
        exact related.bind (related.leaveToHost left) fun _ => related.pure none
      | file path nextBase kind =>
        refine related.bind (related.readText d path) fun text => ?_
        refine related.bind related.getContext fun c => ?_
        dsimp only
        split
        · exact related.pure _
        · refine related.bind (related.parseScript path text) fun _ => ?_
          refine related.bind (related.enter _) fun _ => ?_
          refine related.bind (related.parseScript path _) fun wrapped => ?_
          refine related.bind (related.bindProgram (deeper nextBase) rfl wrapped) fun program => ?_
          exact related.bind (related.complete _ path program) fun _ => related.pure _

theorem buildEntry (d : Disk) (path : Path) :
    R EntryScript (Build.buildEntry { plan with platform := p } d path)
      (Build.buildEntry { plan with platform := q } d path) := by
  refine related.bind (related.readText d path) fun text => ?_
  refine related.bind (related.parseScript path text) fun parsed => ?_
  refine related.bind related.getContext fun c => ?_
  refine related.bind (related.bindProgram (related.includeModule d _ _) ?_ _) fun _ =>
    related.pure _
  rfl

end Congruence

end Bundler.Build
