import Bundler.Emit
import Bundler.Proofs.Order

/-! What a build in an empty context comes to: every call is bound to what its specifier leads to,
the graph holds the modules that the entry reaches and no other, and a module stands after those
it calls unless they call it back. -/

namespace Bundler

open Relation

namespace Emit

theorem missing?_eq_none {graph : Graph} {bound : List ContentId}
    (h : ∀ id ∈ bound, graph.contains id) : missing? graph bound = none := by
  have all : bound.filter (fun id => !graph.contains id) = [] :=
    List.filter_eq_nil_iff.mpr fun id mem => by simp [h id mem]
  rw [missing?, all, least?]

theorem emit_of_contains {script : EntryScript} {graph : Graph} {bound : List ContentId}
    {shim : Option String} (h : ∀ id ∈ bound, graph.contains id) :
    emit script graph bound ⟨false, shim⟩ =
      .ok (hashbangLine script.hashbang ++ enclosed (body script graph shim)) := by
  rw [emit, missing?_eq_none h]
  rfl

/-- What is written for a text: the text, or what its script is shortened to. -/
def Form (options : EmitOptions) (shorten : Minifier) (text written : String) : Prop :=
  if options.minify then ∃ script, Script.parse false text = .ok script ∧ written = shorten script
  else written = text

theorem emit_ok {script : EntryScript} {graph : Graph} {bound : List ContentId}
    {options : EmitOptions} {shorten : Minifier} {code : String}
    (h : emit script graph bound options shorten = .ok code) :
    ∃ written, code = hashbangLine script.hashbang ++ written ∧
      Form options shorten (enclosed (body script graph options.processShim)) written := by
  unfold emit at h
  unfold Form
  split at h
  · cases h
  · dsimp only at h
    split at h
    · unfold minified at h
      split at h
      · rename_i parsed
        cases h
        exact ⟨_, rfl, (if_pos ‹_›).mpr ⟨_, parsed, rfl⟩⟩
      · cases h
    · rename_i long
      cases h
      exact ⟨_, rfl, (if_neg long).mpr rfl⟩

theorem emit_long {script : EntryScript} {graph : Graph} {bound : List ContentId}
    {shim : Option String} {shorten : Minifier} {code : String}
    (h : emit script graph bound ⟨false, shim⟩ shorten = .ok code) :
    code = hashbangLine script.hashbang ++ enclosed (body script graph shim) := by
  obtain ⟨written, rfl, form⟩ := emit_ok h
  rw [show written = enclosed (body script graph shim) from form]

end Emit

namespace Context

theorem unique : Kept fun c => c.graph.ids.Nodup where
  read holds _ := holds
  leave specifier holds := by simpa using holds
  record holds _ := by simpa using holds
  enter holds _ := holds
  complete p program _ holds _ _ := Graph.nodup_insert p program holds

end Context

/-- What is true after a build in an empty context has succeeded. -/
structure Built (plan : Plan) (d : Disk) (path : Path) (script : EntryScript) (c : Context) :
    Prop where
  sound : c.Sound plan d
  linked : ∃ live, plan.entryProgram? d path = some live ∧
    Linked plan d c.externals path.directory live script.program
  finished : c.inProgress = []
  unique : c.graph.ids.Nodup
  entered : ∀ id, script.Calls plan d id → c.graph.contains id
  reached : ∀ m ∈ c.graph.modules, ∃ id, script.Calls plan d id ∧
    ReflTransGen (c.graph.Calls plan d) id m.id
  ordered : ∀ m ∈ c.graph.modules, ∀ id, m.Calls plan d id →
    c.graph.Precedes id m.id ∨ TransGen (c.graph.Calls plan d) id m.id

section

variable {plan : Plan} {d : Disk} {path : Path} {script : EntryScript} {c : Context}

theorem Build.built_of_entry (h : (Build.entry plan d path).run.run .empty = (.ok script, c)) :
    Built plan d path script c := by
  obtain ⟨cache, live, answers, hashbang, source, start, walk, rfl⟩ := walk_of_entry h
  obtain ⟨sound, right, settled⟩ := walk.sound start
  have linked := Linked.of_answers right settled
  have explored := walk.explored start
  have finished : c.inProgress = [] := walk.inProgress
  have calls (id : ContentId) :
      EntryScript.Calls plan d ⟨path, (live.fill answers).1, hashbang⟩ id ↔ some id ∈ answers := by
    rw [EntryScript.Calls, linked.calls_iff source, right]
  -- a build starts from an empty graph with nothing open, so what a walk has found in between is all
  refine ⟨sound, ⟨_, source, linked⟩, finished,
    (Context.unique.walk walk List.nodup_nil).1, fun id called => ?_, fun m mem => ?_,
    fun m mem id called => ?_⟩
  · have known := Context.knows_iff.mp (walk.knows_answer ((calls id).mp called))
    rw [finished] at known
    exact known.resolve_right List.not_mem_nil
  · obtain ⟨id, answer, reaches⟩ := (explored.reached m mem).resolve_left List.not_mem_nil
    exact ⟨id, (calls id).mpr answer, reaches⟩
  · have placed := (explored.ordered m mem).resolve_left List.not_mem_nil
    exact (placed id called).imp_right fun later => later.resolve_left List.not_mem_nil

namespace Built

variable (built : Built plan d path script c)
include built

theorem contains_of_calls {m : Module} {id : ContentId} (mem : m ∈ c.graph.modules)
    (calls : m.Calls plan d id) : c.graph.contains id := by
  rcases built.ordered m mem id calls with before | cycle
  · exact before.contains
  · obtain ⟨next, first, -⟩ := TransGen.head'_iff.mp cycle
    exact first.contains

/-- The graph holds what the entry reaches. -/
theorem contains_iff_reached {id : ContentId} : c.graph.contains id ↔
    ∃ start, script.Calls plan d start ∧ ReflTransGen (c.graph.Calls plan d) start id := by
  constructor
  · intro there
    obtain ⟨m, mem, rfl⟩ := Graph.contains_iff.mp there
    exact built.reached m mem
  · rintro ⟨start, called, reaches⟩
    induction reaches with
    | refl => exact built.entered start called
    | tail _ last _ =>
      obtain ⟨m, mem, -, calls⟩ := last
      exact built.contains_of_calls mem calls

/-- Without cycles, what is called stands before what calls it. -/
theorem precedes_of_acyclic (acyclic : ∀ id, ¬ TransGen (c.graph.Calls plan d) id id)
    {a b : ContentId} (chain : TransGen (c.graph.Calls plan d) a b) : c.graph.Precedes b a := by
  have direct {a b : ContentId} (calls : c.graph.Calls plan d a b) : c.graph.Precedes b a := by
    obtain ⟨m, mem, rfl, called⟩ := calls
    exact (built.ordered m mem b called).resolve_right fun cycle =>
      acyclic b (cycle.tail ⟨m, mem, rfl, called⟩)
  induction chain with
  | single calls => exact direct calls
  | tail _ calls ih => exact (direct calls).trans ih

theorem paths_apart : c.graph.modules.Pairwise fun m m' => ¬ m.path.same m'.path := by
  have different := List.pairwise_map.mp built.unique
  refine different.imp_of_mem fun {m m'} mem mem' apart same => apart ?_
  obtain ⟨text, _, read, named, -⟩ := (built.sound.modules m mem).source
  obtain ⟨text', _, read', named', -⟩ := (built.sound.modules m' mem').source
  rw [← named, ← named', Disk.readText_unique same read read']

theorem contains_of_bound (id : ContentId) (mem : id ∈ c.bound) : c.graph.contains id := by
  have known := Context.knows_iff.mp (built.sound.accounted.bound id mem)
  rw [built.finished] at known
  exact known.resolve_right List.not_mem_nil

theorem emit_eq (shim : Option String) : Emit.emit script c.graph c.bound ⟨false, shim⟩ =
    .ok (Emit.hashbangLine script.hashbang ++ Emit.enclosed (Emit.body script c.graph shim)) :=
  Emit.emit_of_contains built.contains_of_bound

end Built

end

namespace Pair

def disk : Disk where
  tree := ⟨[(["main.js".toList], .file (.text "require('./a');")),
    (["a.js".toList], .file (.text "require('./b');require('fs')")),
    (["b.js".toList], .file (.text "require('./a')"))]⟩
  cwd := []

def plan : Plan := .ofConfig (.ofString "/") .default_

def entry : Path := .ofString "/main.js"

def isWhole : Except BundleFault EntryScript × Context → Bool
  | (.ok _, c) => c.graph.size == 2 && c.externals == ["fs"]
  | (.error _, _) => false

theorem whole_of_isWhole {outcome : Except BundleFault EntryScript × Context}
    (h : isWhole outcome = true) :
    ∃ script c, outcome = (.ok script, c) ∧ c.graph.size = 2 ∧ c.externals = ["fs"] := by
  obtain ⟨_ | script, c⟩ := outcome
  · cases h
  · rw [isWhole, Bool.and_eq_true, beq_iff_eq, beq_iff_eq] at h
    exact ⟨script, c, rfl, h⟩

set_option maxRecDepth 100000 in
theorem isWhole_entry : isWhole ((Build.entry plan disk entry).run.run .empty) = true := by
  decide +kernel

theorem built : ∃ script c, (Build.entry plan disk entry).run.run .empty = (.ok script, c) ∧
    c.graph.size = 2 ∧ c.externals = ["fs"] := whole_of_isWhole isWhole_entry

end Pair

namespace Build

variable {plan : Plan} {d : Disk} {path : Path} {script : EntryScript} {c : Context}

/-- Each live require of the entry, and of each module inside its wrapper, is answered by what its
specifier leads to from the directory of its own file. -/
theorem requires_answered (h : (Build.entry plan d path).run.run .empty = (.ok script, c)) :
    (∃ live ∈ plan.entryProgram? d path,
      Answered plan d c.externals path.directory live script.program) ∧
    ∀ m ∈ c.graph.modules, ∃ live ∈ plan.moduleProgram? d m,
      Answered plan d c.externals m.path.directory live m.program := by
  have built := built_of_entry h
  constructor
  · obtain ⟨live, parsed, linked⟩ := built.linked
    exact ⟨live, parsed, linked.answered⟩
  · intro m mem
    obtain ⟨live, parsed, linked⟩ := (built.sound.modules m mem).linked
    exact ⟨live, parsed, linked.answered⟩

theorem requires_answered_pair : ∃ script c,
    (Build.entry Pair.plan Pair.disk Pair.entry).run.run .empty = (.ok script, c) ∧
    c.graph.size = 2 ∧ c.externals = ["fs"] ∧
    (∃ live ∈ Pair.plan.entryProgram? Pair.disk Pair.entry,
      Answered Pair.plan Pair.disk ["fs"] Pair.entry.directory live script.program) ∧
    ∀ m ∈ c.graph.modules, ∃ live ∈ Pair.plan.moduleProgram? Pair.disk m,
      Answered Pair.plan Pair.disk ["fs"] m.path.directory live m.program := by
  obtain ⟨script, c, ran, size, left⟩ := Pair.built
  exact ⟨script, c, ran, size, left, left ▸ requires_answered ran⟩

/-- What a module calls stands before it or reaches it again. Without cycles every module stands
after all it depends on, which is how they are printed, with the entry at the end. -/
theorem calls_ordered (h : (Build.entry plan d path).run.run .empty = (.ok script, c)) :
    (∀ m ∈ c.graph.modules, ∀ id, m.Calls plan d id → c.graph.contains id ∧
      (c.graph.Precedes id m.id ∨ TransGen (c.graph.Calls plan d) id m.id)) ∧
    ((∀ id, ¬ TransGen (c.graph.Calls plan d) id id) →
      ∀ a b, TransGen (c.graph.Calls plan d) a b → c.graph.Precedes b a) ∧
    ∀ shim, Emit.emit script c.graph c.bound ⟨false, shim⟩ =
      .ok (Emit.hashbangLine script.hashbang ++ Emit.enclosed (
        (shim.elim "" fun env => Emit.processShim env ++ "\n") ++
        String.join (c.graph.modules.map fun m => m.program.print ++ "\n") ++
        script.program.print)) := by
  have built := built_of_entry h
  refine ⟨fun m mem id calls => ?_, fun acyclic a b chain => ?_, fun shim => ?_⟩
  · exact ⟨built.contains_of_calls mem calls, built.ordered m mem id calls⟩
  · exact built.precedes_of_acyclic acyclic chain
  · rw [built.emit_eq shim]
    cases shim <;> rfl

theorem calls_ordered_pair : ∃ script c,
    (Build.entry Pair.plan Pair.disk Pair.entry).run.run .empty = (.ok script, c) ∧
    c.graph.size = 2 ∧
    ∀ m ∈ c.graph.modules, ∀ id, m.Calls Pair.plan Pair.disk id → c.graph.contains id ∧
      (c.graph.Precedes id m.id ∨ TransGen (c.graph.Calls Pair.plan Pair.disk) id m.id) := by
  obtain ⟨script, c, ran, size, -⟩ := Pair.built
  exact ⟨script, c, ran, size, (calls_ordered ran).1⟩

/-- The graph holds exactly the modules that the entry reaches, each once and from a file of its
own. -/
theorem graph_reached (h : (Build.entry plan d path).run.run .empty = (.ok script, c)) :
    (∀ id, c.graph.contains id ↔
      ∃ start, script.Calls plan d start ∧ ReflTransGen (c.graph.Calls plan d) start id) ∧
    (∀ id, script.Calls plan d id → c.graph.contains id) ∧
    (∀ m ∈ c.graph.modules, ∀ id, m.Calls plan d id → c.graph.contains id) ∧
    c.graph.ids.Nodup ∧
    (c.graph.modules.Pairwise fun m m' => ¬ m.path.same m'.path) ∧
    ∀ m ∈ c.graph.modules, ∃ text alone, d.readText m.path = .ok text ∧
      ContentId.ofText text = m.id ∧ Script.parse true text = .ok alone := by
  have built := built_of_entry h
  refine ⟨fun id => built.contains_iff_reached, built.entered, fun m mem id calls => ?_,
    built.unique, built.paths_apart, fun m mem => ?_⟩
  · exact built.contains_of_calls mem calls
  · exact (built.sound.modules m mem).source

theorem graph_reached_pair : ∃ script c,
    (Build.entry Pair.plan Pair.disk Pair.entry).run.run .empty = (.ok script, c) ∧
    c.graph.size = 2 ∧ c.graph.ids.Nodup ∧
    ∀ id, c.graph.contains id ↔ ∃ start, script.Calls Pair.plan Pair.disk start ∧
      ReflTransGen (c.graph.Calls Pair.plan Pair.disk) start id := by
  obtain ⟨script, c, ran, size, -⟩ := Pair.built
  obtain ⟨reached, -, -, unique, -⟩ := graph_reached ran
  exact ⟨script, c, ran, size, unique, reached⟩

end Build

end Bundler
