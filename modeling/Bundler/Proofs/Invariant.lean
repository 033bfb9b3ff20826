import Bundler.Proofs.Context
import Bundler.Proofs.History

/-! What holds of every context that a build goes through. It is enough that each step of a build
keeps it; the step that completes a module may look back at the context the module was entered
from. -/

namespace Bundler

/-- What each step of a build keeps. -/
structure Kept (inv : Context → Prop) : Prop where
  read : ∀ {c d p text cache}, inv c → c.cache.read d p = .ok (text, cache) →
    inv { c with cache := cache }
  leave : ∀ {c} specifier, inv c → inv (c.leave specifier)
  record : ∀ {c id}, inv c → c.knows id → inv (c.record id)
  enter : ∀ {c id}, inv c → ¬ c.knows id → inv (c.enter id)
  complete : ∀ {before c id} p program, inv before → inv c → id ∉ before.inProgress →
    c.inProgress = id :: before.inProgress → inv (c.complete id p program)

theorem Kept.always : Kept fun _ => True where
  read _ _ := trivial
  leave _ _ := trivial
  record _ _ := trivial
  enter _ _ := trivial
  complete _ _ _ _ _ _ := trivial

/-- What each step of a build on one disk keeps, where only a module that has been read is
entered. -/
structure KeptOn (d : Disk) (inv : Context → Prop) : Prop where
  read : ∀ {c p text cache}, inv c → c.cache.read d p = .ok (text, cache) →
    inv { c with cache := cache }
  leave : ∀ {c} specifier, inv c → inv (c.leave specifier)
  record : ∀ {c id}, inv c → c.knows id → inv (c.record id)
  enter : ∀ {c text}, inv c → c.cache.Holds text → ¬ c.knows (.ofText text) →
    inv (c.enter (.ofText text))
  complete : ∀ {before c id} p program, inv before → inv c → id ∉ before.inProgress →
    c.inProgress = id :: before.inProgress → inv (c.complete id p program)

theorem Kept.on {inv : Context → Prop} (kept : Kept inv) (d : Disk) : KeptOn d inv where
  read := kept.read
  leave := kept.leave
  record := kept.record
  enter holds _ new := kept.enter holds new
  complete := kept.complete

/-- A context has all that another one has found, first and in the same order. -/
structure Context.Extends (c c₀ : Context) : Prop where
  modules : c₀.graph.modules <+: c.graph.modules
  externals : c₀.externals <+: c.externals

namespace Context.Extends

theorem rfl {c : Context} : c.Extends c := ⟨List.prefix_rfl, List.prefix_rfl⟩

theorem contains {c c₀ : Context} (h : c.Extends c₀) {id : ContentId}
    (there : c₀.graph.contains id) : c.graph.contains id := by
  obtain ⟨m, mem, same⟩ := Graph.contains_iff.mp there
  exact Graph.contains_iff.mpr ⟨m, h.modules.subset mem, same⟩

theorem kept (c₀ : Context) : Kept fun c => c.Extends c₀ where
  read holds _ := ⟨holds.modules, holds.externals⟩
  leave specifier holds :=
    ⟨by simpa using holds.modules, holds.externals.trans (prefix_leave_externals ..)⟩
  record holds _ := ⟨by simpa using holds.modules, by simpa using holds.externals⟩
  enter holds _ := ⟨holds.modules, holds.externals⟩
  complete p program _ holds _ _ :=
    ⟨holds.modules.trans (Graph.prefix_insert ..), holds.externals⟩

end Context.Extends

namespace Traced

variable {α β : Type} {inv : Context → Prop} {pre : Context → Prop}

/-- After any history all of whose contexts have a property, all those that a computation adds have
it too; if it succeeds, its value and its last context are as described. -/
def Keeps (inv pre : Context → Prop) (x : Traced α) (post : α → Context → Prop) : Prop :=
  ∀ h : History, (∀ c ∈ h.states, inv c) → pre h.now →
    (∀ c ∈ (x.run.run h).2.states, inv c) ∧
      ∀ a, (x.run.run h).1 = .ok a → post a (x.run.run h).2.now

namespace Keeps

theorem pure {post : α → Context → Prop} {a : α} (h : ∀ c, pre c → post a c) :
    Keeps inv pre (pure a) post :=
  fun _ kept before => ⟨kept, fun _ same => Except.ok.inj same ▸ h _ before⟩

theorem throw {post : α → Context → Prop} (e : BundleFault) :
    Keeps inv pre (throw e : Traced α) post :=
  fun _ kept _ => ⟨kept, fun _ same => nomatch same⟩

theorem bind {mid : α → Context → Prop} {post : β → Context → Prop} {x : Traced α}
    {f : α → Traced β} (first : Keeps inv pre x mid) (rest : ∀ a, Keeps inv (mid a) (f a) post) :
    Keeps inv pre (x >>= f) post := by
  intro h kept before
  obtain ⟨keptFirst, between⟩ := first h kept before
  rw [Build.run_bind]
  cases ran : x.run.run h with
  | mk result h' =>
    rw [ran] at keptFirst between
    cases result with
    | ok a => exact rest a h' keptFirst (between a rfl)
    | error e => exact ⟨keptFirst, fun _ same => nomatch same⟩

theorem fromContext {post : β → Context → Prop} {f : Context → Traced β}
    (h : ∀ c, inv c → pre c → Keeps inv (· = c) (f c) post) :
    Keeps inv pre (getThe Context >>= f) post :=
  fun all kept before => h all.now (kept _ List.mem_cons_self) before all kept rfl

theorem modify {post : PUnit → Context → Prop} {f : Context → Context}
    (step : ∀ c, inv c → pre c → inv (f c) ∧ post ⟨⟩ (f c)) :
    Keeps inv pre (modifyThe Context f) post := by
  intro h kept before
  obtain ⟨keptNow, after⟩ := step h.now (kept _ List.mem_cons_self) before
  exact ⟨List.forall_mem_cons.mpr ⟨keptNow, kept⟩, fun _ _ => after⟩

theorem set {post : PUnit → Context → Prop} {c' : Context}
    (step : ∀ c, pre c → inv c' ∧ post ⟨⟩ c') : Keeps inv pre (set c') post := by
  intro h kept before
  obtain ⟨keptNow, after⟩ := step h.now before
  exact ⟨List.forall_mem_cons.mpr ⟨keptNow, kept⟩, fun _ _ => after⟩

theorem of_imp {pre' : Context → Prop} {post : α → Context → Prop} {x : Traced α}
    (h : Keeps inv pre x post) (imp : ∀ c, pre' c → pre c) : Keeps inv pre' x post :=
  fun all kept before => h all kept (imp _ before)

theorem map {mid : α → Context → Prop} {post : β → Context → Prop} {x : Traced α} {f : α → β}
    (h : Keeps inv pre x mid) (after : ∀ a c, mid a c → post (f a) c) :
    Keeps inv pre (f <$> x) post := by
  rw [map_eq_pure_bind]
  exact h.bind fun a => .pure (after a)

theorem mapM {x : α → Traced β} (l : List α)
    (each : ∀ a, Keeps inv pre (x a) fun _ => pre) : Keeps inv pre (l.mapM x) fun _ => pre := by
  induction l with
  | nil => exact .pure fun _ before => before
  | cons a l ih =>
    rw [List.mapM_cons]
    exact (each a).bind fun b => ih.bind fun bs => .pure fun _ before => before

theorem parseScript (p : Path) (text : String) :
    Keeps inv pre (Build.parseScript p text) fun _ => pre := by
  unfold Build.parseScript
  cases Script.parse true text with
  | error e => exact .throw _
  | ok program => exact .pure fun _ before => before

theorem of_follows {post : α → Context → Prop} {x : Traced α} {y : Build α} {c c' : Context} {a : α}
    (h : Keeps inv pre x post) (follows : Follows x y) (holds : inv c) (before : pre c)
    (ran : y.run.run c = (.ok a, c')) : post a c' := by
  obtain ⟨succeeds, ends⟩ := Prod.mk.inj ((follows (.start c)).symm.trans ran)
  obtain ⟨-, after⟩ := h (.start c) (fun _ mem => List.mem_singleton.mp mem ▸ holds) before
  exact ends ▸ after a succeeds

end Keeps

end Traced

namespace KeptOn

open Traced

variable {d : Disk} {inv : Context → Prop} (kept : KeptOn d inv) (s : List ContentId)
include kept

theorem readText (p : Path) :
    Keeps inv (·.inProgress = s) (Build.readText d p)
      fun text c => c.inProgress = s ∧ c.cache.Holds text := by
  refine .fromContext fun c holds same => ?_
  cases read : c.cache.read d p with
  | error e => exact .throw e
  | ok found =>
    have stored : Keeps inv (· = c) (set { c with cache := found.2 })
        fun _ c => c.inProgress = s ∧ c.cache.Holds found.1 :=
      .set fun _ _ => ⟨kept.read holds read, same, Cache.holds_of_read read⟩
    exact stored.bind fun _ => .pure fun _ after => after

theorem leaveToHost (plan : Plan) (specifier : String) :
    Keeps inv (·.inProgress = s) (Build.leaveToHost plan specifier)
      fun _ c => c.inProgress = s := by
  have left : Keeps inv (·.inProgress = s) (modifyThe Context (·.leave specifier))
      fun _ c => c.inProgress = s :=
    .modify fun c holds before =>
      ⟨kept.leave specifier holds, (c.leave_inProgress specifier).trans before⟩
  have refused : Keeps inv (·.inProgress = s)
      (throw (.unavailable specifier plan.platform) : Traced PUnit) fun _ c => c.inProgress = s :=
    .throw _
  unfold Build.leaveToHost
  split
  · exact refused.bind fun _ => left
  · exact left

theorem bindProgram (plan : Plan) {ask : String → Traced (Option ContentId)}
    (each : ∀ specifier, Keeps inv (·.inProgress = s) (ask specifier) fun target c =>
      c.inProgress = s ∧ ∀ id, target = some id → c.knows id) (program : Script.Node) :
    Keeps inv (·.inProgress = s) (Build.bindProgram plan ask program)
      fun _ c => c.inProgress = s := by
  have answered (specifier : String) : Keeps inv (·.inProgress = s) (Build.answer ask specifier)
      fun _ c => c.inProgress = s := by
    refine (each specifier).bind fun target => ?_
    cases target with
    | none => exact .pure fun _ before => before.1
    | some id =>
      have recorded : Keeps inv (fun c => c.inProgress = s ∧ ∀ other, some id = some other →
          c.knows other) (modifyThe Context (·.record id)) fun _ c => c.inProgress = s :=
        .modify fun c holds before =>
          ⟨kept.record holds (before.2 id rfl), (c.record_inProgress id).trans before.1⟩
      exact recorded.bind fun _ => .pure fun _ same => same
  rw [Build.bindProgram_eq]
  exact (Keeps.mapM _ answered).map fun _ _ same => same

/-- To include a module keeps what each step keeps. When it succeeds, the modules being walked are
those that were being walked before, and the module that is named is known. -/
theorem includeModule (plan : Plan) (depth : Nat) (base : Path) (specifier : String) :
    Keeps inv (·.inProgress = s) (Build.includeModule plan d depth base specifier)
      fun target c => c.inProgress = s ∧ ∀ id, target = some id → c.knows id := by
  induction depth generalizing s base specifier with
  | zero => exact .throw _
  | succ depth ih =>
    unfold Build.includeModule
    cases plan.resolver.resolve d specifier base with
    | error e => exact .throw e
    | ok found =>
      cases found with
      | external specifier =>
        refine (kept.leaveToHost s plan specifier).bind fun _ => .pure fun _ same => ⟨same, ?_⟩
        intro id external
        cases external
      | file path nextBase kind =>
        refine (kept.readText s path).bind fun text => .fromContext fun c holds before => ?_
        obtain ⟨rfl, held⟩ := before
        -- the context that the module is entered from is kept for the step that completes it
        have entering : ¬ c.knows (.ofText text) → inv (c.enter (.ofText text)) :=
          kept.enter holds held
        generalize ContentId.ofText text = id at entering ⊢
        split
        · rename_i known
          refine .pure fun c' now => ?_
          subst now
          exact ⟨rfl, fun other same => Option.some.inj same ▸ known⟩
        · rename_i new
          have fresh := Context.not_mem_of_new new
          have entered : Keeps inv (· = c) (modifyThe Context (·.enter id))
              fun _ a => a.inProgress = id :: c.inProgress :=
            .modify fun a _ now => by
              subst now
              exact ⟨entering new, rfl⟩
          have completed (program : Script.Node) :
              Keeps inv (·.inProgress = id :: c.inProgress)
                (modifyThe Context (·.complete id path program))
                fun _ a => a.inProgress = c.inProgress ∧ a.knows id :=
            .modify fun a now walked =>
              ⟨kept.complete path program holds now fresh walked,
                Context.complete_inProgress path program fresh walked,
                a.knows_complete id path program⟩
          refine (Keeps.parseScript path text).bind fun _ => entered.bind fun _ => ?_
          refine (Keeps.parseScript path _).bind fun wrapped => ?_
          refine (kept.bindProgram (id :: c.inProgress) plan (fun specifier =>
            ih (id :: c.inProgress) nextBase specifier) wrapped).bind fun program => ?_
          refine (completed program).bind fun _ => .pure fun a after => ?_
          exact ⟨after.1, fun other same => Option.some.inj same ▸ after.2⟩

theorem buildEntry (plan : Plan) (path : Path) :
    Keeps inv (·.inProgress = s) (Build.buildEntry plan d path) fun _ c => c.inProgress = s := by
  refine (kept.readText s path).bind fun text => ?_
  refine (Keeps.parseScript path text).bind fun parsed => ?_
  refine .fromContext fun c holds before => ?_
  obtain ⟨rfl, -⟩ := before
  have walked := kept.bindProgram c.inProgress plan
    (kept.includeModule c.inProgress plan (Build.depthFor c d) path.directory)
    (Build.splitHashbang parsed).2
  have fromHere := walked.of_imp fun a (now : a = c) => congrArg Context.inProgress now
  exact fromHere.bind fun bound => .pure fun _ same => same

end KeptOn

namespace Kept

variable {inv : Context → Prop} (kept : Kept inv) (s : List ContentId)
include kept

theorem includeModule (plan : Plan) (d : Disk) (depth : Nat) (base : Path) (specifier : String) :
    Traced.Keeps inv (·.inProgress = s) (Build.includeModule plan d depth base specifier)
      fun target c => c.inProgress = s ∧ ∀ id, target = some id → c.knows id :=
  (kept.on d).includeModule s plan depth base specifier

theorem buildEntry (plan : Plan) (d : Disk) (path : Path) :
    Traced.Keeps inv (·.inProgress = s) (Build.buildEntry plan d path)
      fun _ c => c.inProgress = s :=
  (kept.on d).buildEntry s plan path

end Kept

/-- Calls are bound to modules that are in the graph or being walked, and to be walked means not to
be in the graph. -/
structure Context.Accounted (c : Context) : Prop where
  bound : ∀ id ∈ c.bound, c.knows id
  apart : ∀ id ∈ c.inProgress, ¬ c.graph.contains id

namespace Context.Accounted

theorem empty : Accounted .empty :=
  ⟨fun _ mem => absurd mem List.not_mem_nil, fun _ mem => absurd mem List.not_mem_nil⟩

theorem complete {c : Context} {id : ContentId} {s : List ContentId} (holds : c.Accounted)
    (p : Path) (program : Script.Node) (fresh : id ∉ s) (walked : c.inProgress = id :: s) :
    (c.complete id p program).Accounted := by
  have left := complete_inProgress p program fresh walked
  constructor
  · intro other mem
    rw [knows_iff, left]
    rcases knows_iff.mp (holds.bound other mem) with there | walking
    · exact .inl (Graph.contains_insert.mpr (.inr there))
    · rw [walked, List.mem_cons] at walking
      exact walking.imp_left fun same => Graph.contains_insert.mpr (.inl same)
  · intro other mem there
    rw [left] at mem
    rcases Graph.contains_insert.mp there with same | there
    · exact fresh (same ▸ mem)
    · exact holds.apart other (walked ▸ List.mem_cons_of_mem id mem) there

theorem kept : Kept Accounted where
  read holds _ := ⟨holds.bound, holds.apart⟩
  leave specifier holds := by
    constructor
    · simpa [knows] using holds.bound
    · simpa using holds.apart
  record holds known := by
    constructor
    · intro other mem
      rw [knows_record]
      rcases mem_record_bound.mp mem with rfl | mem
      · exact known
      · exact holds.bound other mem
    · simpa using holds.apart
  enter holds new := by
    constructor
    · intro other mem
      have known := knows_iff.mp (holds.bound other mem)
      exact knows_iff.mpr (known.imp_right (List.mem_cons_of_mem _))
    · intro other mem there
      rcases List.mem_cons.mp mem with rfl | mem
      · exact new (knows_iff.mpr (.inl there))
      · exact holds.apart other mem there
  complete p program _ holds fresh walked := holds.complete p program fresh walked

end Context.Accounted

end Bundler
