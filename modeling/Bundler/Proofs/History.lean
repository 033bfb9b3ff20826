import Bundler.Proofs.Congruence

/-! Builds that keep every context they go through. A build is written for any monad that has a
context and can fail, so the walk whose contexts are kept here is the walk that runs. -/

namespace Bundler

/-- A context and those it came from, the latest first. -/
structure History where
  now : Context
  past : List Context

namespace History

def states (h : History) : List Context := h.now :: h.past

def start (c : Context) : History := ⟨c, []⟩

def become (h : History) (c : Context) : History := ⟨c, h.now :: h.past⟩

end History

instance : MonadStateOf Context (StateM History) where
  get h := (h.now, h)
  set c h := (⟨⟩, h.become c)
  modifyGet f h := let (a, c) := f h.now; (a, h.become c)

/-- A build that keeps the contexts it goes through. -/
abbrev Traced := ExceptT BundleFault (StateM History)

namespace Traced

variable {α β : Type}

/-- One computation is the other with its contexts kept. -/
def Follows (x : Traced α) (y : Build α) : Prop :=
  ∀ h : History, y.run.run h.now = ((x.run.run h).1, (x.run.run h).2.now)

namespace Follows

theorem pure (a : α) : Follows (pure a) (Pure.pure a) := fun _ => rfl

theorem throw (e : BundleFault) : Follows (throw e : Traced α) (throw e) := fun _ => rfl

theorem getContext : Follows (getThe Context) (getThe Context) := fun _ => rfl

theorem set (c : Context) : Follows (set c) (set c) := fun _ => rfl

theorem bind {x : Traced α} {y : Build α} {f : α → Traced β} {g : α → Build β}
    (first : Follows x y) (rest : ∀ a, Follows (f a) (g a)) : Follows (x >>= f) (y >>= g) := by
  intro h
  rw [Build.run_bind, Build.run_bind, first h]
  cases x.run.run h with
  | mk result h' =>
    cases result with
    | ok a => exact rest a h'
    | error e => rfl

theorem readText (d : Disk) (p : Path) : Follows (Build.readText d p) (Build.readText d p) := by
  refine getContext.bind fun c => ?_
  cases c.cache.read d p with
  | error e => exact .throw e
  | ok found => exact (Follows.set _).bind fun _ => .pure found.1

theorem leaveToHost (plan : Plan) (specifier : String) :
    Follows (Build.leaveToHost plan specifier) (Build.leaveToHost plan specifier) := by
  unfold Build.leaveToHost
  split
  · exact (Follows.throw _).bind fun _ _ => rfl
  · exact fun _ => rfl

theorem congruence (plan : Plan) :
    Build.Congruence plan plan.platform plan.platform fun _ => Follows where
  pure := pure
  bind := bind
  malformed _ := throw _
  record _ _ := rfl
  throw := throw
  getContext := getContext
  readText := readText
  leaveToHost := leaveToHost plan
  enter _ _ := rfl
  complete _ _ _ _ := rfl

theorem includeModule (plan : Plan) (d : Disk) (depth : Nat) (base : Path) (specifier : String) :
    Follows (Build.includeModule plan d depth base specifier)
      (Build.includeModule plan d depth base specifier) :=
  (congruence plan).includeModule d depth base specifier

theorem entry (plan : Plan) (d : Disk) (path : Path) :
    Follows (Build.buildEntry plan d path) (Build.entry plan d path) :=
  (congruence plan).buildEntry d path

end Follows

end Traced

end Bundler
