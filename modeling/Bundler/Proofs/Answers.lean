import Bundler.Proofs.Lookup
import Bundler.Proofs.Script.Site
import Bundler.Proofs.Walk

/-! What each call comes to be bound to. A require is answered by what its own specifier leads to
from the directory of its own file, so the answers of a walk are those of the disk, whatever has
been walked before. -/

namespace Bundler

namespace Plan

section

variable (plan : Plan) (d : Disk)

def target? (base : Path) (specifier : String) : Option ContentId :=
  match plan.resolver.resolve d specifier base with
  | .ok (.file path _ _) => (d.readText path).toOption.map .ofText
  | _ => none

/-- A specifier leads to a file with a text, or it is left to the host. -/
def Settles (externals : List String) (base : Path) (specifier : String) : Prop :=
  (∃ path kind text, plan.resolver.resolve d specifier base = .ok (.file path path.directory kind) ∧
    d.readText path = .ok text) ∨
  (plan.resolver.resolve d specifier base = .ok (.external specifier) ∧ specifier ∈ externals)

def entryProgram? (path : Path) : Option Script.Node := do
  let text ← (d.readText path).toOption
  let parsed ← (Script.parse true text).toOption
  return (Build.splitHashbang parsed).2.live plan.env

/-- What is live of a module, inside its wrapper, before its requires are bound. -/
def moduleProgram? (m : Module) : Option Script.Node := do
  let text ← (d.readText m.path).toOption
  let wrapped ← (Script.parse true (Wrapper.wrap m.id text plan.instantiation)).toOption
  return wrapped.live plan.env

end

variable {plan : Plan} {d : Disk} {externals externals' : List String} {base : Path}
  {specifier : String}

theorem Settles.mono (h : plan.Settles d externals base specifier) (more : externals ⊆ externals') :
    plan.Settles d externals' base specifier :=
  h.imp_right fun ⟨resolved, left⟩ => ⟨resolved, more left⟩

theorem target?_host (h : plan.resolver.resolve d specifier base = .ok (.external specifier)) :
    plan.target? d base specifier = none := by
  rw [target?, h]

theorem target?_file {path nextBase : Path} {kind : ModuleKind} {text : String}
    (h : plan.resolver.resolve d specifier base = .ok (.file path nextBase kind))
    (read : d.readText path = .ok text) :
    plan.target? d base specifier = some (.ofText text) := by
  rw [target?, h]
  dsimp only
  rw [read]
  rfl

theorem entryProgram?_eq {path : Path} {text : String} {parsed : Script.Node}
    (read : d.readText path = .ok text) (isScript : Script.parse true text = .ok parsed) :
    plan.entryProgram? d path = some ((Build.splitHashbang parsed).2.live plan.env) := by
  simp only [entryProgram?, read, Except.toOption, Option.bind_eq_bind, Option.bind_some, isScript]
  rfl

theorem moduleProgram?_eq {m : Module} {text : String} {wrapped : Script.Node}
    (read : d.readText m.path = .ok text)
    (parsed : Script.parse true (Wrapper.wrap m.id text plan.instantiation) = .ok wrapped) :
    plan.moduleProgram? d m = some (wrapped.live plan.env) := by
  simp only [moduleProgram?, read, Except.toOption, Option.bind_eq_bind, Option.bind_some, parsed]
  rfl

end Plan

/-- A program is another one with each require bound to what it leads to from a directory. -/
structure Linked (plan : Plan) (d : Disk) (externals : List String) (base : Path)
    (live bound : Script.Node) : Prop where
  program : bound = live.substitute (plan.target? d base)
  settled : ∀ specifier ∈ live.requires, plan.Settles d externals base specifier

/-- Each call of a program that requires is answered by what its specifier leads to from a
directory: by the binding of the file's content, or by the host. What is left to the host is
listed. -/
structure Answered (plan : Plan) (d : Disk) (externals : List String) (base : Path)
    (live bound : Script.Node) : Prop where
  site : ∀ position call specifier, live.at? position = some call →
    call.requireSpecifier? = some specifier →
    (∃ path kind text calleeNotes,
      plan.resolver.resolve d specifier base = .ok (.file path path.directory kind) ∧
      d.readText path = .ok text ∧
      bound.at? position = some ⟨call.form, call.notes,
        [⟨.identifier (ContentId.ofText text).binding, calleeNotes, []⟩]⟩) ∨
    (plan.resolver.resolve d specifier base = .ok (.external specifier) ∧
      bound.at? position = some call)
  left : ∀ position call specifier, bound.at? position = some call →
    call.requireSpecifier? = some specifier → specifier ∈ externals

/-- Some call that requires in one program is bound to a module in the other. -/
def Rewritten (live bound : Script.Node) (id : ContentId) : Prop :=
  ∃ position call specifier, live.at? position = some call ∧
    call.requireSpecifier? = some specifier ∧ bound.at? position = some (call.bindTo id)

namespace Linked

variable {plan : Plan} {d : Disk} {externals externals' : List String} {base : Path}
  {live bound : Script.Node}

theorem mono (h : Linked plan d externals base live bound) (more : externals ⊆ externals') :
    Linked plan d externals' base live bound :=
  ⟨h.program, fun specifier mem => (h.settled specifier mem).mono more⟩

theorem of_answers {answers : List (Option ContentId)}
    (right : answers = live.requires.map (plan.target? d base))
    (settled : ∀ specifier ∈ live.requires, plan.Settles d externals base specifier) :
    Linked plan d externals base live (live.fill answers).1 :=
  ⟨by rw [right, Script.Node.fill_map], settled⟩

theorem answered (h : Linked plan d externals base live bound) :
    Answered plan d externals base live bound := by
  constructor
  · intro position call specifier found requires
    have there := Script.Node.at?_substitute (plan.target? d base) found requires
    rw [← h.program] at there
    rcases h.settled specifier (Script.Node.mem_requires_iff.mpr ⟨position, call, found, requires⟩)
      with ⟨path, kind, text, resolved, read⟩ | ⟨resolved, -⟩
    · obtain ⟨calleeNotes, same⟩ := Script.Node.bindTo_of_call (.ofText text) requires
      rw [Plan.target?_file resolved read, Script.Node.answered, same] at there
      exact .inl ⟨path, kind, text, calleeNotes, resolved, read, there⟩
    · rw [Plan.target?_host resolved] at there
      exact .inr ⟨resolved, there⟩
  · intro position call specifier found requires
    have remains := Script.Node.mem_requires_iff.mpr ⟨position, call, found, requires⟩
    rw [h.program] at remains
    obtain ⟨required, noTarget⟩ := Script.Node.mem_requires_substitute remains
    rcases h.settled specifier required with ⟨path, kind, text, resolved, read⟩ | ⟨-, left⟩
    · rw [Plan.target?_file resolved read] at noTarget
      cases noTarget
    · exact left

theorem rewritten_iff (h : Linked plan d externals base live bound) {id : ContentId} :
    Rewritten live bound id ↔ some id ∈ live.requires.map (plan.target? d base) := by
  rw [List.mem_map]
  constructor
  · rintro ⟨position, call, specifier, found, requires, there⟩
    have answered := Script.Node.at?_substitute (plan.target? d base) found requires
    rw [← h.program, there] at answered
    exact ⟨specifier, Script.Node.mem_requires_iff.mpr ⟨position, call, found, requires⟩,
      Script.Node.answered_injective requires (Option.some.inj answered).symm⟩
  · rintro ⟨specifier, mem, same⟩
    obtain ⟨position, call, found, requires⟩ := Script.Node.mem_requires_iff.mp mem
    refine ⟨position, call, specifier, found, requires, ?_⟩
    rw [h.program, Script.Node.at?_substitute (plan.target? d base) found requires, same,
      Script.Node.answered]

theorem calls_iff (h : Linked plan d externals base live bound) {source : Option Script.Node}
    (parsed : source = some live) {id : ContentId} :
    (∃ live ∈ source, Rewritten live bound id) ↔
      some id ∈ live.requires.map (plan.target? d base) := by
  simp only [parsed, Option.mem_some_iff, exists_eq_left', h.rewritten_iff]

end Linked

/-- A module of the graph is what its file holds, with its requires bound. -/
structure Module.Sound (plan : Plan) (d : Disk) (externals : List String) (m : Module) : Prop where
  source : ∃ text alone, d.readText m.path = .ok text ∧ ContentId.ofText text = m.id ∧
    Script.parse true text = .ok alone
  linked : ∃ live, plan.moduleProgram? d m = some live ∧
    Linked plan d externals m.path.directory live m.program

/-- Nothing that a context holds is out of date. -/
structure Context.Sound (plan : Plan) (d : Disk) (c : Context) : Prop where
  cache : c.cache.Current d
  modules : ∀ m ∈ c.graph.modules, m.Sound plan d c.externals
  accounted : c.Accounted

section

variable {plan : Plan} {d : Disk} {c : Context}

theorem Module.Sound.mono {externals externals' : List String} {m : Module}
    (h : m.Sound plan d externals) (more : externals ⊆ externals') : m.Sound plan d externals' := by
  obtain ⟨live, parsed, linked⟩ := h.linked
  exact ⟨h.source, live, parsed, linked.mono more⟩

theorem Module.Sound.of_answers {externals : List String} {id : ContentId} {path : Path}
    {text : String} {alone wrapped : Script.Node} {answers : List (Option ContentId)}
    (holds : d.readText path = .ok text) (named : ContentId.ofText text = id)
    (isScript : Script.parse true text = .ok alone)
    (parsed : Script.parse true (Wrapper.wrap id text plan.instantiation) = .ok wrapped)
    (right : answers = (wrapped.live plan.env).requires.map (plan.target? d path.directory))
    (settled : ∀ specifier ∈ (wrapped.live plan.env).requires,
      plan.Settles d externals path.directory specifier) (order : Nat) :
    Module.Sound plan d externals ⟨id, path, ((wrapped.live plan.env).fill answers).1, order⟩ :=
  ⟨⟨text, alone, holds, named, isScript⟩, _, Plan.moduleProgram?_eq holds parsed,
    Linked.of_answers right settled⟩

namespace Context.Sound

theorem of_cache {cache : Cache} (current : cache.Current d) :
    Sound plan d { empty with cache := cache } where
  cache := current
  modules _ mem := absurd mem List.not_mem_nil
  accounted := ⟨Accounted.empty.bound, Accounted.empty.apart⟩

theorem leave (h : c.Sound plan d) (specifier : String) : (c.leave specifier).Sound plan d := by
  have grown := (c.prefix_leave_externals specifier).subset
  refine ⟨by simpa using h.cache, fun m mem => ?_, Accounted.kept.leave specifier h.accounted⟩
  rw [leave_graph] at mem
  exact (h.modules m mem).mono grown

theorem record {id : ContentId} (h : c.Sound plan d) (known : c.knows id) :
    (c.record id).Sound plan d :=
  ⟨by simpa using h.cache, by simpa using h.modules, Accounted.kept.record h.accounted known⟩

theorem enter {id : ContentId} (h : c.Sound plan d) (new : ¬ c.knows id) :
    (c.enter id).Sound plan d := ⟨h.cache, h.modules, Accounted.kept.enter h.accounted new⟩

theorem complete {id : ContentId} {p : Path} {program : Script.Node} {s : List ContentId}
    (h : c.Sound plan d) (new : ∀ order, Module.Sound plan d c.externals ⟨id, p, program, order⟩)
    (fresh : id ∉ s) (walked : c.inProgress = id :: s) :
    (c.complete id p program).Sound plan d := by
  refine ⟨h.cache, fun m mem => ?_, h.accounted.complete p program fresh walked⟩
  rcases Graph.mem_insert mem with there | ⟨order, rfl⟩
  · exact h.modules m there
  · exact new order

theorem found {base path nextBase : Path} {specifier text : String} {kind : ModuleKind}
    {cache : Cache} (h : c.Sound plan d)
    (resolved : plan.resolver.resolve d specifier base = .ok (.file path nextBase kind))
    (read : c.cache.read d path = .ok (text, cache)) :
    nextBase = path.directory ∧ d.readText path = .ok text ∧
      Sound plan d { c with cache := cache } := by
  obtain ⟨isFile, rfl⟩ := Resolver.file_of_resolve resolved
  obtain ⟨holds, current⟩ := h.cache.read isFile read
  exact ⟨rfl, holds, current, h.modules, Accounted.kept.read h.accounted read⟩

end Context.Sound

/-- The answers that a walk finds are those of the disk, and the modules it adds are bound in the
same way. -/
theorem Walk.sound {base : Path} {specifiers : List String} {c' : Context}
    {answers : List (Option ContentId)} (h : Walk plan d base specifiers c answers c')
    (sound : c.Sound plan d) :
    c'.Sound plan d ∧ answers = specifiers.map (plan.target? d base) ∧
      ∀ specifier ∈ specifiers, plan.Settles d c'.externals base specifier := by
  induction h with
  | done => exact ⟨sound, rfl, fun _ mem => nomatch mem⟩
  | host resolved _ after later =>
    obtain rfl := Resolver.left_of_resolve resolved
    obtain ⟨sound, same, settled⟩ := later (sound.leave _)
    have left := after.extends.externals.subset (Context.mem_leave_externals ..)
    refine ⟨sound, ?_, List.forall_mem_cons.mpr ⟨.inr ⟨resolved, left⟩, settled⟩⟩
    rw [same, List.map_cons, Plan.target?_host resolved]
  | known resolved read named known _ later =>
    obtain ⟨rfl, holds, current⟩ := sound.found resolved read
    obtain ⟨sound, same, settled⟩ := later (current.record known)
    refine ⟨sound, ?_, List.forall_mem_cons.mpr ⟨.inl ⟨_, _, _, resolved, holds⟩, settled⟩⟩
    rw [same, List.map_cons, Plan.target?_file resolved holds, named]
  | new resolved read named new isScript parsed inside _ deeper later =>
    -- the module is walked first, and what it is answered is right where it stands
    obtain ⟨rfl, holds, current⟩ := sound.found resolved read
    obtain ⟨walked, right, settledInside⟩ := deeper (current.enter new)
    have completed := walked.complete (.of_answers holds named isScript parsed right settledInside)
      (Context.not_mem_of_new new) inside.inProgress
    obtain ⟨sound, same, settled⟩ := later (completed.record (Context.knows_complete ..))
    refine ⟨sound, ?_, List.forall_mem_cons.mpr ⟨.inl ⟨_, _, _, resolved, holds⟩, settled⟩⟩
    rw [same, List.map_cons, Plan.target?_file resolved holds, named]

/-- What is known once a module that was new has been walked: what its file holds, and that nothing
is out of date when it is entered, when its own walk is over and when it is completed. -/
theorem Context.Sound.walked {base path nextBase : Path} {specifier text : String}
    {kind : ModuleKind} {id : ContentId} {between : Context} {cache : Cache}
    {alone wrapped : Script.Node} {inner : List (Option ContentId)} (sound : c.Sound plan d)
    (resolved : plan.resolver.resolve d specifier base = .ok (.file path nextBase kind))
    (read : c.cache.read d path = .ok (text, cache)) (named : ContentId.ofText text = id)
    (new : ¬ { c with cache := cache }.knows id) (isScript : Script.parse true text = .ok alone)
    (parsed : Script.parse true (Wrapper.wrap id text plan.instantiation) = .ok wrapped)
    (inside : Walk plan d nextBase (wrapped.live plan.env).requires
      ({ c with cache := cache }.enter id) inner between) :
    nextBase = path.directory ∧ d.readText path = .ok text ∧
      ({ c with cache := cache }.enter id).Sound plan d ∧ between.Sound plan d ∧
      (between.complete id path ((wrapped.live plan.env).fill inner).1).Sound plan d := by
  obtain ⟨rfl, holds, current⟩ := sound.found resolved read
  have opened := current.enter new
  obtain ⟨walked, right, settled⟩ := inside.sound opened
  have module := Module.Sound.of_answers holds named isScript parsed right settled
  exact ⟨rfl, holds, opened, walked,
    walked.complete module (Context.not_mem_of_new new) inside.inProgress⟩

/-- A build that succeeds with nothing found before has walked the program of its entry, from a context
that is up to date. -/
theorem Build.walk_of_entry {path : Path} {script : EntryScript}
    (h : (Build.entry plan d path).run.run .empty = (.ok script, c)) :
    ∃ cache live answers hashbang, plan.entryProgram? d path = some live ∧
      Context.Sound plan d { Context.empty with cache := cache } ∧
      Walk plan d path.directory live.requires { Context.empty with cache := cache } answers c ∧
      script = ⟨path, (live.fill answers).1, hashbang⟩ := by
  obtain ⟨text, cache, parsed, answers, read, isScript, walk, same⟩ := entry_ok h
  obtain ⟨holds, current⟩ := Cache.read_empty read
  exact ⟨cache, _, answers, _, Plan.entryProgram?_eq holds isScript, .of_cache current, walk, same⟩

theorem Walk.completed_mem {base path : Path} {specifiers : List String} {between c' : Context}
    {id : ContentId} {program : Script.Node} {answers : List (Option ContentId)}
    {walking : List ContentId} (after : Walk plan d base specifiers
      ((between.complete id path program).record id) answers c')
    (sound : between.Sound plan d) (entered : between.inProgress = id :: walking) :
    (⟨id, path, program, between.graph.size⟩ : Module) ∈ c'.graph.modules := by
  have absent : ¬ between.graph.contains id :=
    sound.accounted.apart id (entered ▸ List.mem_cons_self)
  have added : (between.complete id path program).graph.modules =
      between.graph.modules ++ [⟨id, path, program, between.graph.size⟩] :=
    Graph.insert_of_new path program absent
  have kept := after.extends.modules.subset
  rw [Context.record_graph, added] at kept
  exact kept (List.mem_append_right _ List.mem_cons_self)

end

end Bundler
