import Bundler.Proofs.Invariant
import Bundler.Proofs.Lookup
import Mathlib.Data.Finset.Card
import Mathlib.Data.Finset.Image

/-! How deep modules are walked inside one another. Each module that is open has a text of its own
that was neither in the graph nor open when the walk began, so there are never more of them than
such texts, and a walk that may go one module deeper than that ends as every deeper one does. -/

namespace Bundler

namespace FileTree

theorem length_texts_le (t : FileTree) : t.texts.length ≤ t.fileCount := by
  unfold texts fileCount
  induction t.entries with
  | nil => exact Nat.le_refl 0
  | cons e rest ih =>
    obtain ⟨location, entry⟩ := e
    cases entry with
    | directory => simpa using ih
    | file content =>
      cases content with
      | text value => simpa using ih
      | binary bytes | sealed bytes => simpa using Nat.le_succ_of_le ih

theorem mem_texts_of_lookup {t : FileTree} {location : Location} {text : String}
    (h : t.lookup? location = some (.file (.text text))) : (location, text) ∈ t.texts := by
  unfold lookup? at h
  split at h
  · cases h
  · obtain ⟨⟨place, entry⟩, found, rfl⟩ := Option.map_eq_some_iff.mp h
    have same : place = location := by simpa using List.find?_some found
    exact List.mem_filterMap.mpr ⟨_, List.mem_of_find?_eq_some found, by rw [same]⟩

/-- What stands at a place that a path leads to is what the tree has there. -/
def Holds (t : FileTree) : Spot → Prop
  | .above => True
  | .at_ location entry => entry = .directory ∨ t.lookup? location = some entry

theorem Holds.enter {t : FileTree} {spot after : Spot} {segment : List Char} (h : t.Holds spot)
    (entered : t.enter spot segment = .ok after) : t.Holds after := by
  unfold FileTree.enter at entered
  split at entered
  · split at entered
    · cases entered
      trivial
    · cases entered
  · cases entered
  · split at entered
    · cases entered
      exact h
    · split at entered
      · cases entered
        split
        · trivial
        · exact Or.inl rfl
      · split at entered
        · rename_i entry found
          cases entered
          exact Or.inr found
        · cases entered

theorem Holds.walk {t : FileTree} {spot after : Spot} {segments : List (List Char)}
    (h : t.Holds spot) (walked : t.walk spot segments = .ok after) : t.Holds after := by
  induction segments generalizing spot with
  | nil =>
    cases walked
    exact h
  | cons segment rest ih =>
    obtain ⟨middle, entered, later⟩ := walk_cons_ok walked
    exact ih (h.enter entered) later

theorem mem_texts_of_readText {t : FileTree} {cwd : Location} {p : Path} {text : String}
    (h : t.readText cwd p = .ok text) : ∃ location, (location, text) ∈ t.texts := by
  unfold readText at h
  split at h
  case h_4 location value led =>
    cases h
    have start : t.Holds (.at_ (base cwd p) .directory) := Or.inl rfl
    rcases start.walk (follow_ok_iff.mp led).2.2 with same | found
    · cases same
    · exact ⟨location, mem_texts_of_lookup found⟩
  all_goals cases h

end FileTree

namespace Context

/-- The texts that a build may read: those of the files, and those that are kept. -/
def texts (c : Context) (d : Disk) : List String :=
  d.tree.texts.map (·.2) ++ c.cache.texts.map (·.2)

/-- The texts whose modules are neither in the graph nor being walked. -/
def unseen (c : Context) (d : Disk) : Finset String :=
  (c.texts d).toFinset.filter fun text => ¬ c.knows (.ofText text)

theorem mem_texts {c : Context} {d : Disk} {text : String} :
    text ∈ c.texts d ↔ (∃ location, (location, text) ∈ d.tree.texts) ∨ c.cache.Holds text := by
  simp [texts, Cache.Holds]

theorem card_unseen_lt (c : Context) (d : Disk) : (c.unseen d).card < Build.depthFor c d := by
  have files := d.tree.length_texts_le
  calc (c.unseen d).card ≤ (c.texts d).toFinset.card := Finset.card_filter_le ..
    _ ≤ (c.texts d).length := List.toFinset_card_le _
    _ = d.tree.texts.length + c.cache.size := by simp [texts, Cache.size]
    _ < Build.depthFor c d := by unfold Build.depthFor; omega

/-- A context that a build has come to from another one: the modules that have been opened since
are different, and each has a text that was unseen. -/
structure Descends (d : Disk) (c₀ c : Context) : Prop where
  grown : c.Extends c₀
  texts : ∀ text, c.cache.Holds text → text ∈ c₀.texts d
  opened : ∃ inner, c.inProgress = inner ++ c₀.inProgress ∧ inner.Nodup ∧
    ∀ id ∈ inner, ∃ text ∈ c₀.unseen d, ContentId.ofText text = id

namespace Descends

variable {d : Disk} {c₀ c : Context}

theorem refl (c : Context) : Descends d c c where
  grown := .rfl
  texts _ held := mem_texts.mpr (.inr held)
  opened := ⟨[], rfl, List.nodup_nil, fun _ mem => nomatch mem⟩

theorem length_le (h : Descends d c₀ c) : ∃ inner, c.inProgress = inner ++ c₀.inProgress ∧
    inner.length ≤ (c₀.unseen d).card := by
  obtain ⟨inner, same, apart, named⟩ := h.opened
  have covered : inner.toFinset ⊆ (c₀.unseen d).image ContentId.ofText := by
    intro id mem
    exact Finset.mem_image.mpr (named id (List.mem_toFinset.mp mem))
  refine ⟨inner, same, ?_⟩
  calc inner.length = inner.toFinset.card := (List.toFinset_card_of_nodup apart).symm
    _ ≤ ((c₀.unseen d).image ContentId.ofText).card := Finset.card_le_card covered
    _ ≤ (c₀.unseen d).card := Finset.card_image_le

theorem knows (h : Descends d c₀ c) {id : ContentId} (known : c₀.knows id) : c.knows id := by
  obtain ⟨inner, same, -, -⟩ := h.opened
  rw [knows_iff] at known ⊢
  rw [same]
  exact known.imp h.grown.contains (List.mem_append_right inner)

theorem kept (c₀ : Context) : KeptOn d (Descends d c₀) where
  read {c p text cache} h read := by
    refine ⟨⟨h.grown.modules, h.grown.externals⟩, fun other held => ?_, h.opened⟩
    rcases Cache.holds_read read held with old | ⟨rfl, fresh⟩
    · exact h.texts other old
    · exact mem_texts.mpr (.inl (FileTree.mem_texts_of_readText fresh))
  leave {c} specifier h := by
    refine ⟨(Extends.kept c₀).leave specifier h.grown, ?_, ?_⟩
    · simpa using h.texts
    · simpa using h.opened
  record {c id} h known := by
    refine ⟨(Extends.kept c₀).record h.grown known, ?_, ?_⟩
    · simpa using h.texts
    · simpa using h.opened
  enter {c text} h held new := by
    refine ⟨⟨h.grown.modules, h.grown.externals⟩, h.texts, ?_⟩
    -- what is opened now was not open and not known at the start, so its text was unseen
    obtain ⟨inner, same, apart, named⟩ := h.opened
    have fresh : ContentId.ofText text ∉ inner := fun mem =>
      not_mem_of_new new (same ▸ List.mem_append_left _ mem)
    have wasNew : ¬ c₀.knows (.ofText text) := fun known => new (h.knows known)
    have unseen : text ∈ c₀.unseen d :=
      Finset.mem_filter.mpr ⟨List.mem_toFinset.mpr (h.texts text held), wasNew⟩
    refine ⟨.ofText text :: inner, congrArg (ContentId.ofText text :: ·) same,
      List.nodup_cons.mpr ⟨fresh, apart⟩, ?_⟩
    exact List.forall_mem_cons.mpr ⟨⟨text, unseen, rfl⟩, named⟩
  complete {before c id} p program earlier h fresh walked := by
    refine ⟨(Extends.kept c₀).complete p program earlier.grown h.grown fresh walked, h.texts, ?_⟩
    rw [complete_inProgress p program fresh walked]
    exact earlier.opened

end Descends

end Context

namespace Build

variable {α β : Type} {plan : Plan} {d : Disk}

/-- Started with some modules open, the first computation runs out of depth with as many modules
open as a limit says, or the second one ends in the same way, with given modules open where it
succeeds. -/
def Deepens (limit : Nat) (opened : List ContentId) (x y : Build α) (after : List ContentId) :
    Prop :=
  ∀ c, c.inProgress = opened →
    (∃ c', x.run.run c = (.error .tooDeep, c') ∧ limit ≤ c'.inProgress.length) ∨
    (y.run.run c = x.run.run c ∧ (x.run.run c).1 ≠ .error .tooDeep ∧
      ∀ a c', x.run.run c = (.ok a, c') → c'.inProgress = after)

namespace Deepens

variable {limit : Nat} {s s' s'' : List ContentId}

theorem pure (a : α) : Deepens limit s (Pure.pure a) (Pure.pure a) s := by
  refine fun c same => .inr ⟨rfl, (fun h => nomatch h), fun _ _ ran => ?_⟩
  cases ran
  exact same

theorem throw {e : BundleFault} (other : e ≠ .tooDeep) :
    Deepens limit s (MonadExcept.throw e : Build α) (MonadExcept.throw e) s' := by
  refine fun c _ => .inr ⟨rfl, fun h => other (Except.error.inj h), fun _ _ ran => nomatch ran⟩

theorem modify {f : Context → Context} (h : ∀ c, c.inProgress = s → (f c).inProgress = s') :
    Deepens limit s (modifyThe Context f : Build PUnit) (modifyThe Context f) s' := by
  refine fun c same => .inr ⟨rfl, (fun h => nomatch h), fun _ _ ran => ?_⟩
  cases ran
  exact h c same

theorem set {c : Context} (h : c.inProgress = s') :
    Deepens limit s (set c : Build PUnit) (MonadStateOf.set c) s' :=
  modify fun _ _ => h

theorem fromContext {f g : Context → Build β}
    (h : ∀ c, c.inProgress = s → Deepens limit s (f c) (g c) s') :
    Deepens limit s (getThe Context >>= f) (getThe Context >>= g) s' :=
  fun c same => h c same c same

theorem bind {x y : Build α} {f g : α → Build β} (first : Deepens limit s x y s')
    (rest : ∀ a, Deepens limit s' (f a) (g a) s'') :
    Deepens limit s (x >>= f) (y >>= g) s'' := by
  intro c opened
  rw [run_bind, run_bind]
  rcases first c opened with ⟨c', ran, deep⟩ | ⟨same, ends, succeeds⟩
  · rw [ran]
    exact .inl ⟨c', rfl, deep⟩
  · rw [same]
    cases ran : x.run.run c with
    | mk result middle =>
      cases result with
      | ok a => exact rest a middle (succeeds a middle ran)
      | error e =>
        have other : e ≠ .tooDeep := fun deep => ends (by rw [ran, deep])
        exact .inr ⟨rfl, fun h => other (Except.error.inj h), fun _ _ h => nomatch h⟩

theorem stepwise (limit : Nat) (s : List ContentId) :
    Stepwise fun _ x y => Deepens limit s x y s where
  pure := pure
  bind := bind
  malformed _ := throw (by simp)
  record id := modify fun c same => (c.record_inProgress id).trans same

theorem readText (p : Path) : Deepens limit s (Build.readText d p) (Build.readText d p) s := by
  refine .fromContext fun c same => ?_
  cases read : c.cache.read d p with
  | error e =>
    obtain ⟨cause, rfl⟩ := Cache.read_error read
    exact .throw (by simp)
  | ok found =>
    have kept : Deepens limit s (MonadStateOf.set { c with cache := found.2 } : Build PUnit)
        (MonadStateOf.set { c with cache := found.2 }) s := .set same
    exact kept.bind fun _ => .pure found.1

theorem leaveToHost (specifier : String) :
    Deepens limit s (Build.leaveToHost plan specifier) (Build.leaveToHost plan specifier) s := by
  have left : Deepens limit s (modifyThe Context (·.leave specifier) : Build PUnit)
      (modifyThe Context (·.leave specifier)) s :=
    .modify fun c same => (c.leave_inProgress specifier).trans same
  have refused : Deepens limit s
      (MonadExcept.throw (.unavailable specifier plan.platform) : Build PUnit)
      (MonadExcept.throw (.unavailable specifier plan.platform)) s := .throw (by simp)
  unfold Build.leaveToHost
  split
  · exact refused.bind fun _ => left
  · exact left

/-- A module that cannot be included at some depth is out of it below that many open modules; any
other end is also that of a greater depth. -/
theorem includeModule (plan : Plan) (d : Disk) (s : List ContentId) (depth more : Nat) (base : Path)
    (specifier : String) :
    Deepens (s.length + depth) s (Build.includeModule plan d depth base specifier)
      (Build.includeModule plan d (depth + more) base specifier) s := by
  induction depth generalizing s base specifier with
  | zero => exact fun c opened => .inl ⟨c, rfl, le_of_eq (congrArg List.length opened.symm)⟩
  | succ depth ih =>
    rw [Nat.add_right_comm]
    unfold Build.includeModule
    cases resolved : plan.resolver.resolve d specifier base with
    | error e =>
      rcases Resolver.resolve_error resolved with ⟨_, rfl⟩ | rfl <;> exact .throw (by simp)
    | ok found =>
      cases found with
      | external specifier => exact (Deepens.leaveToHost specifier).bind fun _ => .pure none
      | file path nextBase kind =>
        refine (Deepens.readText path).bind fun text => .fromContext fun c opened => ?_
        subst opened
        generalize ContentId.ofText text = id
        split
        · exact .pure _
        · rename_i new
          have fresh := Context.not_mem_of_new new
          -- one module more is open and one level less is left
          have limits : (id :: c.inProgress).length + depth = c.inProgress.length + (depth + 1) := by
            rw [List.length_cons]
            omega
          have inside (program : Script.Node) :=
            (stepwise (c.inProgress.length + (depth + 1)) (id :: c.inProgress)).bindProgram
              (fun specifier => limits ▸ ih (id :: c.inProgress) nextBase specifier)
              (rfl : plan.env = plan.env) program
          have entered : Deepens (c.inProgress.length + (depth + 1)) c.inProgress
              (modifyThe Context (·.enter id) : Build PUnit) (modifyThe Context (·.enter id))
              (id :: c.inProgress) :=
            .modify fun a same => congrArg (id :: ·) same
          have completed (program : Script.Node) : Deepens (c.inProgress.length + (depth + 1))
              (id :: c.inProgress)
              (modifyThe Context (·.complete id path program) : Build PUnit)
              (modifyThe Context (·.complete id path program)) c.inProgress :=
            .modify fun a walked => Context.complete_inProgress path program fresh walked
          refine ((stepwise _ _).parseScript path text).bind fun _ => entered.bind fun _ => ?_
          refine ((stepwise _ _).parseScript path _).bind fun wrapped => ?_
          refine (inside wrapped).bind fun program => ?_
          exact (completed program).bind fun _ => .pure _

/-- A computation whose contexts never have as many modules open as the limit says is not out of
depth. -/
theorem ends {c : Context} {x y : Build α} {traced : Traced α}
    (h : Deepens limit c.inProgress x y s') (follows : Traced.Follows traced x)
    (descends : ∀ state ∈ (traced.run.run (.start c)).2.states, Context.Descends d c state)
    (enough : c.inProgress.length + (c.unseen d).card < limit) :
    y.run.run c = x.run.run c ∧ (x.run.run c).1 ≠ .error .tooDeep := by
  rcases h c rfl with ⟨c', ran, deep⟩ | ⟨same, ends, -⟩
  · have last : (traced.run.run (.start c)).2.now = c' :=
      congrArg Prod.snd ((follows (.start c)).symm.trans ran)
    have descended := descends _ List.mem_cons_self
    rw [last] at descended
    obtain ⟨inner, opened, bounded⟩ := descended.length_le
    rw [opened, List.length_append] at deep
    omega
  · exact ⟨same, ends⟩

theorem not_tooDeep {x : Build α} {c c' : Context}
    (h : ∀ limit s, Deepens limit s x x s) : x.run.run c ≠ (.error .tooDeep, c') := by
  intro ran
  rcases h (c'.inProgress.length + 1) c.inProgress c rfl with ⟨_, same, deep⟩ | ⟨-, ends, -⟩
  · cases ran.symm.trans same
    omega
  · exact ends (congrArg Prod.fst ran)

end Deepens

theorem start_descends (c : Context) : ∀ state ∈ (History.start c).states, c.Descends d state := by
  intro state mem
  rw [List.mem_singleton.mp mem]
  exact .refl c

/-- The depth of a build is enough, whatever the context holds when it starts. -/
theorem entry_not_tooDeep (plan : Plan) (d : Disk) (path : Path) (c : Context) :
    ((entry plan d path).run.run c).1 ≠ .error .tooDeep := by
  intro fails
  have ran : (entry plan d path).run.run c = (.error .tooDeep, _) := Prod.ext fails rfl
  rcases run_bind_error ran with early | ⟨text, _, -, ran⟩
  · exact Deepens.not_tooDeep (fun _ _ => .readText path) early
  rcases run_bind_error ran with early | ⟨parsed, here, -, ran⟩
  · exact Deepens.not_tooDeep (fun _ _ => (Deepens.stepwise _ _).parseScript path text) early
  rcases run_bind_error ran with early | ⟨_, _, there, ran⟩
  · cases early
  cases there
  -- only the walk could run out of depth, and it never has more modules open than there are texts
  rcases run_bind_error ran with late | ⟨_, _, -, ran⟩
  · have each (specifier : String) := (Context.Descends.kept (d := d) here).includeModule
      here.inProgress plan (depthFor here d) path.directory specifier
    have descends := ((Context.Descends.kept (d := d) here).bindProgram here.inProgress plan each
      (splitHashbang parsed).2 (.start here) (start_descends here) rfl).1
    have walks := Deepens.includeModule plan d here.inProgress (depthFor here d) 0 path.directory
    have deepens := (Deepens.stepwise _ _).bindProgram walks (rfl : plan.env = plan.env)
      (splitHashbang parsed).2
    have follows := (Traced.Follows.congruence plan).bindProgram
      (Traced.Follows.includeModule plan d (depthFor here d) path.directory) (rfl : plan.env = plan.env)
      (splitHashbang parsed).2
    have enough := here.card_unseen_lt d
    exact (deepens.ends follows descends (by omega)).2 (congrArg Prod.fst late)
  · cases ran

/-- While a module is included, or an entry is built, there are never more modules open inside one
another than there are texts that were unseen at the start; so to go one deeper than that is enough,
and a build is never out of depth. -/
theorem nesting_bounded (plan : Plan) (d : Disk) (c : Context) :
    (∀ depth base specifier,
      ∀ state ∈ ((includeModule plan d depth base specifier : Traced _).run.run (.start c)).2.states,
        ∃ inner, state.inProgress = inner ++ c.inProgress ∧ inner.length ≤ (c.unseen d).card) ∧
    (∀ more base specifier,
      (includeModule plan d ((c.unseen d).card + 1 + more) base specifier : Build _).run.run c =
        (includeModule plan d ((c.unseen d).card + 1) base specifier : Build _).run.run c ∧
      ((includeModule plan d ((c.unseen d).card + 1) base specifier : Build _).run.run c).1 ≠
        .error .tooDeep) ∧
    ∀ path,
      (∀ state ∈ ((buildEntry plan d path : Traced _).run.run (.start c)).2.states,
        ∃ inner, state.inProgress = inner ++ c.inProgress ∧ inner.length ≤ (c.unseen d).card) ∧
      ((entry plan d path).run.run c).1 ≠ .error .tooDeep := by
  have descends := Context.Descends.kept (d := d) c
  have included (depth : Nat) (base : Path) (specifier : String) :=
    (descends.includeModule c.inProgress plan depth base specifier (.start c) (start_descends c)
      rfl).1
  have built (path : Path) :=
    (descends.buildEntry c.inProgress plan path (.start c) (start_descends c) rfl).1
  refine ⟨fun depth base specifier state mem => ?_, fun more base specifier => ?_,
    fun path => ⟨fun state mem => ?_, entry_not_tooDeep plan d path c⟩⟩
  · exact (included depth base specifier state mem).length_le
  · exact (Deepens.includeModule plan d _ _ more base specifier).ends (.includeModule plan d _ base specifier)
      (included _ base specifier) (by omega)
  · exact (built path state mem).length_le

end Build

end Bundler
