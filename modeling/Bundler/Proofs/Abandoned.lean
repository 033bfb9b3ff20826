import Bundler.Proofs.Recorded

/-! Modules whose walk was given up. A failed build leaves them marked, so from then on they look like
modules of a cycle: later builds bind calls to them without ever putting them into the graph. The check
of a bundle's bindings is what keeps such calls out of all bundles. -/

namespace Bundler

namespace Emit

variable {g : Graph} {bound : List ContentId} {least : ContentId}

theorem firstOf_eq_or (a b : ContentId) : firstOf a b = a ∨ firstOf a b = b := by
  unfold firstOf
  split
  · exact .inr rfl
  · exact .inl rfl

theorem firstOf_le_left (a b : ContentId) : (firstOf a b).hex ≤ a.hex := by
  unfold firstOf
  split
  · rename_i below
    exact Std.le_of_lt below
  · exact String.le_refl _

theorem firstOf_le_right (a b : ContentId) : (firstOf a b).hex ≤ b.hex := by
  unfold firstOf
  split
  · exact String.le_refl _
  · rename_i notBelow
    exact String.not_lt.mp notBelow

theorem foldl_firstOf_mem (id : ContentId) (rest : List ContentId) :
    rest.foldl firstOf id ∈ id :: rest := by
  induction rest generalizing id with
  | nil => exact List.mem_singleton.mpr rfl
  | cons next rest ih =>
    rcases List.mem_cons.mp (ih (firstOf id next)) with same | later
    · rw [List.foldl_cons, same]
      rcases firstOf_eq_or id next with first | second
      · exact List.mem_cons.mpr (.inl first)
      · exact List.mem_cons_of_mem _ (List.mem_cons.mpr (.inl second))
    · exact List.mem_cons_of_mem _ (List.mem_cons_of_mem _ later)

theorem foldl_firstOf_le (id : ContentId) (rest : List ContentId) :
    ∀ other ∈ id :: rest, (rest.foldl firstOf id).hex ≤ other.hex := by
  induction rest generalizing id with
  | nil =>
    intro other mem
    rw [List.mem_singleton.mp mem]
    exact String.le_refl _
  | cons next rest ih =>
    have below := ih (firstOf id next) _ List.mem_cons_self
    refine List.forall_mem_cons.mpr ⟨String.le_trans below (firstOf_le_left id next), ?_⟩
    refine List.forall_mem_cons.mpr ⟨String.le_trans below (firstOf_le_right id next), ?_⟩
    exact fun other mem => ih (firstOf id next) other (List.mem_cons_of_mem _ mem)

theorem least?_eq_none {ids : List ContentId} : least? ids = none ↔ ids = [] := by
  cases ids <;> simp [least?]

/-- The first by the digits does not depend on the order in which modules are listed. -/
theorem least?_eq_some {ids : List ContentId} :
    least? ids = some least ↔ least ∈ ids ∧ ∀ other ∈ ids, least.hex ≤ other.hex := by
  cases ids with
  | nil => simp [least?]
  | cons id rest =>
    have mem := foldl_firstOf_mem id rest
    have below := foldl_firstOf_le id rest
    constructor
    · intro found
      cases found
      exact ⟨mem, below⟩
    · rintro ⟨there, first⟩
      have hex := String.le_antisymm (below least there) (first _ mem)
      exact congrArg some (ContentId.binding_injective (congrArg ("require_" ++ ·) hex))

theorem missing?_eq_none_iff : missing? g bound = none ↔ ∀ id ∈ bound, g.contains id := by
  rw [missing?, least?_eq_none, List.filter_eq_nil_iff]
  simp

/-- The first by its digits of the modules that calls are bound to and that are not in the graph. -/
structure FirstMissing (g : Graph) (bound : List ContentId) (least : ContentId) : Prop where
  called : least ∈ bound
  absent : ¬ g.contains least
  first : ∀ other ∈ bound, ¬ g.contains other → least.hex ≤ other.hex

theorem missing?_eq_some : missing? g bound = some least ↔ FirstMissing g bound least := by
  rw [missing?, least?_eq_some]
  simp only [List.mem_filter, Bool.not_eq_true', ← Bool.not_eq_true]
  constructor
  · rintro ⟨⟨mem, absent⟩, first⟩
    exact ⟨mem, absent, fun other there out => first other ⟨there, out⟩⟩
  · rintro ⟨mem, absent, first⟩
    exact ⟨⟨mem, absent⟩, fun other there => first other there.1 there.2⟩

theorem FirstMissing.of_order {order : List ContentId} (h : FirstMissing g bound least)
    (same : ∀ id, id ∈ order ↔ id ∈ bound) : FirstMissing g order least :=
  ⟨(same least).mpr h.called, h.absent, fun other mem => h.first other ((same other).mp mem)⟩

theorem minified_error {text : String} {shorten : Minifier} {e : BundleFault}
    (h : minified text shorten = .error e) : e = .malformed bundlePath := by
  unfold minified at h
  split at h
  · cases h
  · exact (Except.error.inj h).symm

theorem emit_ne_unbound {script : EntryScript} (options : EmitOptions) (shorten : Minifier)
    (h : missing? g bound = none) (name : String) :
    emit script g bound options shorten ≠ .error (.unbound name) := by
  intro failed
  rw [emit, h] at failed
  dsimp only at failed
  split at failed
  · cases shortened : minified (enclosed (body script g options.processShim)) shorten with
    | error e =>
      rw [shortened, minified_error shortened] at failed
      cases failed
    | ok text =>
      rw [shortened] at failed
      cases failed
  · cases failed

theorem emit_unbound_iff {script : EntryScript} {options : EmitOptions} {shorten : Minifier}
    {name : String} : emit script g bound options shorten = .error (.unbound name) ↔
      ∃ id, missing? g bound = some id ∧ id.binding = name := by
  cases found : missing? g bound with
  | some id => simp [emit, found]
  | none => simp [emit_ne_unbound options shorten found name]

theorem FirstMissing.emit_eq (h : FirstMissing g bound least) (script : EntryScript)
    (options : EmitOptions) (shorten : Minifier) :
    emit script g bound options shorten = .error (.unbound least.binding) :=
  emit_unbound_iff.mpr ⟨least, missing?_eq_some.mpr h, rfl⟩

theorem contains_of_emit {script : EntryScript} {options : EmitOptions} {shorten : Minifier}
    {code : String} (h : emit script g bound options shorten = .ok code) :
    ∀ id ∈ bound, g.contains id := by
  refine missing?_eq_none_iff.mp (Option.eq_none_iff_forall_ne_some.mpr fun least found => ?_)
  rw [emit, found] at h
  cases h

end Emit

namespace Context

variable {c : Context} {id : ContentId}

theorem Accounted.contains_iff (h : c.Accounted) (bound : id ∈ c.bound) :
    c.graph.contains id ↔ id ∉ c.inProgress := by
  constructor
  · exact fun there walking => h.apart id walking there
  · exact (knows_iff.mp (h.bound id bound)).resolve_right

theorem Accounted.firstMissing (h : c.Accounted) (bound : id ∈ c.bound)
    (marked : id ∈ c.inProgress) : ∃ least, Emit.FirstMissing c.graph c.bound least := by
  cases found : Emit.missing? c.graph c.bound with
  | none => exact (h.apart id marked (Emit.missing?_eq_none_iff.mp found id bound)).elim
  | some least => exact ⟨least, Emit.missing?_eq_some.mp found⟩

theorem Accounted.emit_unbound_iff (h : c.Accounted) (script : EntryScript) (options : EmitOptions)
    (shorten : Emit.Minifier) :
    (∃ name, Emit.emit script c.graph c.bound options shorten = .error (.unbound name)) ↔
      ∃ id ∈ c.bound, id ∈ c.inProgress := by
  constructor
  · rintro ⟨name, failed⟩
    obtain ⟨id, missing, -⟩ := Emit.emit_unbound_iff.mp failed
    obtain ⟨bound, absent, -⟩ := Emit.missing?_eq_some.mp missing
    exact ⟨id, bound, not_not.mp fun unmarked => absent ((h.contains_iff bound).mpr unmarked)⟩
  · rintro ⟨id, bound, marked⟩
    obtain ⟨least, missing⟩ := h.firstMissing bound marked
    exact ⟨_, missing.emit_eq script options shorten⟩

/-- The walk of a module has begun and has not come to its end. -/
structure Unfinished (c : Context) (id : ContentId) : Prop where
  marked : id ∈ c.inProgress
  absent : ¬ c.graph.contains id

theorem Accounted.unfinished (h : c.Accounted) (marked : id ∈ c.inProgress) : c.Unfinished id :=
  ⟨marked, h.apart id marked⟩

/-- A mark that is there before a step stays, since a module that is marked is not entered again, and
only a module that was entered is completed. -/
theorem Unfinished.kept (id : ContentId) : Kept fun c => c.Unfinished id where
  read holds _ := ⟨holds.marked, holds.absent⟩
  leave specifier holds := ⟨by simpa using holds.marked, by simpa using holds.absent⟩
  record holds _ := ⟨by simpa using holds.marked, by simpa using holds.absent⟩
  enter holds _ := ⟨List.mem_cons_of_mem _ holds.marked, holds.absent⟩
  complete p program earlier holds fresh walked := by
    refine ⟨(complete_inProgress p program fresh walked).symm ▸ earlier.marked, fun there => ?_⟩
    rcases Graph.contains_insert.mp there with same | there
    · exact fresh (same ▸ earlier.marked)
    · exact holds.absent there

end Context

namespace Session

/-- No module that a failed build has left marked comes to be in a bundle. Whatever is done later, it
stays marked and out of the graph; and once a call is bound to it, the text of no bundle is made any
more, and the fault names the first by its digits of the modules that are missing, in whatever order
those that calls are bound to are listed. The bindings are complete exactly as long as no call is bound
to a module that is marked, so a bundle whose text is made has the modules of all calls in it. -/
theorem unfinished_never_emitted {plan : Plan} {d : Disk} {earlier : List Action} {s : State}
    (reached : (State.start plan d).after earlier = s) :
    (∀ c ∈ (State.start plan d).history earlier, ∀ script options shorten,
      (∃ name, Emit.emit script c.graph c.bound options shorten = .error (.unbound name)) ↔
        ∃ id ∈ c.bound, id ∈ c.inProgress) ∧
    (∀ id ∈ s.context.inProgress, ∀ later, ∀ c ∈ s.history later, c.Unfinished id) ∧
    (∀ id ∈ s.context.inProgress, id ∈ s.context.bound → ∀ later t, s.after later = t →
      ∃ least, Emit.FirstMissing t.context.graph t.context.bound least ∧ ∀ script options shorten,
        (t.perform (.emit script options shorten)).1 = .emitted (.error (.unbound least.binding)) ∧
        ∀ order, (∀ other, other ∈ order ↔ other ∈ t.context.bound) →
          Emit.emit script t.context.graph order options shorten =
            .error (.unbound least.binding)) ∧
    ∀ script ∈ s.scripts, ∀ options shorten code,
      (s.perform (.emit script options shorten)).1 = .emitted (.ok code) →
      (∃ live ∈ s.context.entryProgram? plan script.path,
        ∀ id, Rewritten live script.program id → s.context.graph.contains id) ∧
      ∀ m ∈ s.context.graph.modules, ∃ live ∈ s.context.moduleProgram? plan m,
        ∀ id, Rewritten live m.program id → s.context.graph.contains id := by
  have accounted : s.context.Accounted :=
    reached ▸ State.after_kept Context.Accounted.kept .empty earlier
  have unfinished (id : ContentId) (marked : id ∈ s.context.inProgress) (later : List Action) :
      ∀ c ∈ s.history later, c.Unfinished id :=
    s.forall_history (Context.Unfinished.kept id) (accounted.unfinished marked) later
  refine ⟨fun c mem => ?_, unfinished, fun id marked bound later t same => ?_, ?_⟩
  · have first : c.Accounted := State.forall_history Context.Accounted.kept .empty earlier c mem
    exact first.emit_unbound_iff
  · -- both the mark and the binding outlast all that is done later
    subst same
    have now := s.after_kept Context.Accounted.kept accounted later
    have more := s.after_kept (Context.Retains.kept s.context) .rfl later
    have stuck := unfinished id marked later _ (s.after_mem_history later)
    obtain ⟨least, missing⟩ := now.firstMissing (more.bound bound) stuck.marked
    refine ⟨least, missing, fun script options shorten => ⟨?_, fun order same => ?_⟩⟩
    · exact congrArg Outcome.emitted (missing.emit_eq script options shorten)
    · exact (missing.of_order same).emit_eq script options shorten
  · -- a text is made only where no module is missing that a call is bound to
    intro script mem options shorten code emitted
    have recorded : s.Recorded := reached ▸ (State.Recorded.start plan d).after earlier
    have same : s.plan = plan := reached ▸ State.after_plan _ earlier
    have present := Emit.contains_of_emit (Outcome.emitted.inj emitted)
    constructor
    · obtain ⟨live, source, within⟩ := recorded.scripts script mem
      exact ⟨live, same ▸ source, fun id rewritten => present id (within.rewritten rewritten)⟩
    · intro m there
      obtain ⟨live, source, within⟩ := recorded.modules m there
      exact ⟨live, same ▸ source, fun id rewritten => present id (within.rewritten rewritten)⟩

namespace Skipped

def disk : Disk where
  tree := ⟨[(["main.js".toList], .file (.text "require('./m')")),
    (["m.js".toList], .file (.text "require('./gone')"))]⟩
  cwd := []

def plan : Plan := .ofConfig (.ofString "/") { Config.default_ with instantiation := .reexecute }

/-- The first build fails inside the module; the second takes it for one of a cycle and succeeds. -/
def builds : List Action := [.build (.ofString "/main.js"), .build (.ofString "/main.js")]

def state : State := (State.start plan disk).after builds

def isBound : State → Bool
  | ⟨_, _, c, [_]⟩ => c.graph.size == 0 && c.bound.length == 1
  | _ => false

set_option maxRecDepth 100000 in
theorem isBound_state : isBound state = true := by
  decide +kernel

theorem left_of_isBound {s : State} (counts : isBound s = true) (accounted : s.context.Accounted) :
    s.scripts.length = 1 ∧ ∃ id ∈ s.context.inProgress, id ∈ s.context.bound := by
  unfold isBound at counts
  split at counts
  · rename_i c script
    rw [Bool.and_eq_true, beq_iff_eq, beq_iff_eq] at counts
    obtain ⟨id, only⟩ := List.length_eq_one_iff.mp counts.2
    have bound : id ∈ c.bound := only ▸ List.mem_singleton.mpr rfl
    refine ⟨rfl, id, not_not.mp fun unmarked => ?_, bound⟩
    obtain ⟨m, mem, -⟩ := Graph.contains_iff.mp ((accounted.contains_iff bound).mpr unmarked)
    exact List.ne_nil_of_mem mem (List.eq_nil_of_length_eq_zero counts.1)
  · cases counts

theorem left : state.scripts.length = 1 ∧
    ∃ id ∈ state.context.inProgress, id ∈ state.context.bound :=
  left_of_isBound isBound_state (State.after_kept Context.Accounted.kept .empty builds)

end Skipped

/-- From then on no text of a bundle can be made, whatever becomes of the files and is built. -/
theorem unfinished_never_emitted_skipped : Skipped.state.scripts.length = 1 ∧
    ∃ id, ∀ later, (∀ c ∈ Skipped.state.history later, c.Unfinished id) ∧
      ∃ name, ∀ script options shorten,
        ((Skipped.state.after later).perform (.emit script options shorten)).1 =
          .emitted (.error (.unbound name)) := by
  obtain ⟨built, id, marked, bound⟩ := Skipped.left
  have reached : (State.start Skipped.plan Skipped.disk).after Skipped.builds = Skipped.state := rfl
  obtain ⟨-, stays, fails, -⟩ := unfinished_never_emitted reached
  refine ⟨built, id, fun later => ⟨stays id marked later, ?_⟩⟩
  obtain ⟨least, -, emitted⟩ := fails id marked bound later _ rfl
  exact ⟨least.binding, fun script options shorten => (emitted script options shorten).1⟩

end Session

end Bundler
