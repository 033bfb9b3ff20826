import Bundler.Proofs.Built
import Mathlib.Data.List.Nodup

/-! Files that hold the same text. They share one module, which was read from one of them, and its
requires are looked up from there: from the directory of a copy the same specifiers may lead
elsewhere. -/

namespace Bundler

section

variable (plan : Plan) (d : Disk)

def Plan.LeadsTo (base : Path) (specifier : String) (file : Path) : Prop :=
  ∃ nextBase kind, plan.resolver.resolve d specifier base = .ok (.file file nextBase kind)

/-- Some live require of the entry at `path`, or of a module of the graph, leads to a file. -/
def Graph.Requires (g : Graph) (path file : Path) : Prop :=
  (∃ live ∈ plan.entryProgram? d path, ∃ specifier ∈ live.requires,
    plan.LeadsTo d path.directory specifier file) ∨
  ∃ m ∈ g.modules, ∃ live ∈ plan.moduleProgram? d m, ∃ specifier ∈ live.requires,
    plan.LeadsTo d m.path.directory specifier file

end

section

variable {plan : Plan} {d : Disk} {base path file : Path} {c c' : Context} {script : EntryScript}

/-- Modules that a walk adds were read where one of its own specifiers leads, or one that a module
requires which it adds as well. -/
theorem Walk.leadsTo {specifiers : List String} {answers : List (Option ContentId)}
    (h : Walk plan d base specifiers c answers c') (sound : c.Sound plan d) :
    ∀ m ∈ c'.graph.modules, m ∈ c.graph.modules ∨
      (∃ specifier ∈ specifiers, plan.LeadsTo d base specifier m.path) ∨
      ∃ other ∈ c'.graph.modules, ∃ live ∈ plan.moduleProgram? d other,
        ∃ specifier ∈ live.requires, plan.LeadsTo d other.path.directory specifier m.path := by
  induction h with
  | done => exact fun m mem => .inl mem
  | @host _ specifier _ _ _ _ _ _ _ _ later =>
    intro m mem
    rcases later (sound.leave _) m mem with old | ⟨found, mem, leads⟩ | inside
    · exact .inl (Context.leave_graph .. ▸ old)
    · exact .inr (.inl ⟨found, List.mem_cons_of_mem _ mem, leads⟩)
    · exact .inr (.inr inside)
  | @known _ _ _ _ _ _ _ _ _ _ _ _ resolved read _ known _ later =>
    intro m mem
    obtain ⟨-, -, current⟩ := sound.found resolved read
    rcases later (current.record known) m mem with old | ⟨found, mem, leads⟩ | inside
    · rw [Context.record_graph] at old
      exact .inl old
    · exact .inr (.inl ⟨found, List.mem_cons_of_mem _ mem, leads⟩)
    · exact .inr (.inr inside)
  | @new base path _ specifier text kind rest id c between c' cache alone wrapped inner answers
      resolved read named new isScript parsed inside after deeper later =>
    intro m mem
    obtain ⟨rfl, holds, opened, walked, completed⟩ :=
      sound.walked resolved read named new isScript parsed inside
    have own := after.completed_mem walked inside.inProgress
    rcases later (completed.record (between.knows_complete ..)) m mem
      with early | ⟨found, mem, leads⟩ | other
    · -- a module of the inner walk is required by this one or by another that is inside
      rw [Context.record_graph] at early
      rcases Graph.mem_insert early with early | ⟨_, rfl⟩
      · rcases deeper opened m early with old | ⟨found, mem, leads⟩ | ⟨other, mem, rest⟩
        · exact .inl old
        · exact .inr (.inr ⟨_, own, _, Plan.moduleProgram?_eq holds parsed, found, mem, leads⟩)
        · exact .inr (.inr ⟨other, after.completed_subset mem, rest⟩)
      · exact .inr (.inl ⟨specifier, List.mem_cons_self, _, _, resolved⟩)
    · exact .inr (.inl ⟨found, List.mem_cons_of_mem _ mem, leads⟩)
    · exact .inr (.inr other)

theorem Linked.rewritten_of_leadsTo {externals : List String} {live bound : Script.Node}
    {specifier : String} (h : Linked plan d externals base live bound)
    (mem : specifier ∈ live.requires) (leads : plan.LeadsTo d base specifier file) :
    ∃ text, d.readText file = .ok text ∧ Rewritten live bound (.ofText text) := by
  obtain ⟨nextBase, kind, resolved⟩ := leads
  rcases h.settled specifier mem with ⟨_, _, text, same, holds⟩ | ⟨same, -⟩
  · cases resolved.symm.trans same
    have target := Plan.target?_file resolved holds
    exact ⟨text, holds, h.rewritten_iff.mpr (List.mem_map.mpr ⟨specifier, mem, target⟩)⟩
  · cases resolved.symm.trans same

/-- The requires of a module are those of every copy of its file, answered from its own directory. -/
theorem Built.linked_copy (built : Built plan d path script c) {m : Module} {text : String}
    (mem : m ∈ c.graph.modules) (holds : d.readText file = .ok text)
    (copied : d.readText m.path = .ok text) :
    ∃ live, plan.moduleProgram? d { m with path := file } = some live ∧
      Linked plan d c.externals m.path.directory live m.program := by
  obtain ⟨live, source, linked⟩ := (built.sound.modules m mem).linked
  refine ⟨live, ?_, linked⟩
  rw [← source, Plan.moduleProgram?, Plan.moduleProgram?, holds, copied]

namespace Build

variable (h : (Build.entry plan d path).run.run .empty = (.ok script, c))
include h

theorem requires_of_mem : ∀ m ∈ c.graph.modules, c.graph.Requires plan d path m.path := by
  intro m mem
  obtain ⟨cache, live, answers, hashbang, source, start, walk, -⟩ := walk_of_entry h
  rcases walk.leadsTo start m mem with old | own | inside
  · exact (List.not_mem_nil old).elim
  · exact .inl ⟨live, source, own⟩
  · exact .inr inside

/-- Every file that is required has a text, and the graph holds a module for it. -/
theorem module_of_requires (required : c.graph.Requires plan d path file) :
    ∃ text, d.readText file = .ok text ∧ ∃ m ∈ c.graph.modules, m.id = .ofText text := by
  have built := built_of_entry h
  have ownPath : script.path = path := by
    obtain ⟨_, _, _, _, -, -, -, rfl⟩ := entry_ok h
    rfl
  rcases required with ⟨live, source, specifier, mem, leads⟩ |
    ⟨m, inGraph, live, source, specifier, mem, leads⟩
  · obtain ⟨_, source', linked⟩ := built.linked
    cases source.symm.trans source'
    obtain ⟨text, holds, calls⟩ := linked.rewritten_of_leadsTo mem leads
    have there := built.entered (.ofText text) ⟨live, ownPath ▸ source, calls⟩
    exact ⟨text, holds, Graph.contains_iff.mp there⟩
  · obtain ⟨_, source', linked⟩ := (built.sound.modules m inGraph).linked
    cases source.symm.trans source'
    obtain ⟨text, holds, calls⟩ := linked.rewritten_of_leadsTo mem leads
    have there := built.contains_of_calls inGraph ⟨live, source, calls⟩
    exact ⟨text, holds, Graph.contains_iff.mp there⟩

end Build

end

namespace Twins

def text : String := "require('./x')"

def disk : Disk where
  tree := ⟨[(["main.js".toList], .file (.text "require('./a/m');require('./b/m')")),
    (["a".toList], .directory), (["b".toList], .directory),
    (["a".toList, "m.js".toList], .file (.text text)),
    (["a".toList, "x.js".toList], .file (.text "1")),
    (["b".toList, "m.js".toList], .file (.text text)),
    (["b".toList, "x.js".toList], .file (.text "2"))]⟩
  cwd := []

def plan : Plan := .ofConfig (.ofString "/") { Config.default_ with instantiation := .reexecute }

def entry : Path := .ofString "/main.js"

def original : Path := .ofString "/a/m.js"

def copy : Path := .ofString "/b/m.js"

/-- A build succeeds with a module for the text that was read from the first of the two files. -/
def holdsOriginal : Except BundleFault EntryScript × Context → Bool
  | (.ok _, c) => c.graph.modules.any fun m => m.path == original && m.id == .ofText text
  | (.error _, _) => false

theorem original_of_holdsOriginal {outcome : Except BundleFault EntryScript × Context}
    (h : holdsOriginal outcome = true) : ∃ script c, outcome = (.ok script, c) ∧
      ∃ m ∈ c.graph.modules, m.path = original ∧ m.id = .ofText text := by
  obtain ⟨_ | script, c⟩ := outcome
  · cases h
  · simp only [holdsOriginal, List.any_eq_true, Bool.and_eq_true, beq_iff_eq] at h
    exact ⟨script, c, rfl, h⟩

set_option maxRecDepth 100000 in
theorem holdsOriginal_entry :
    holdsOriginal ((Build.entry plan disk entry).run.run .empty) = true := by
  decide +kernel

theorem built : ∃ script c, (Build.entry plan disk entry).run.run .empty = (.ok script, c) ∧
    ∃ m ∈ c.graph.modules, m.path = original ∧ m.id = .ofText text :=
  original_of_holdsOriginal holdsOriginal_entry

theorem requires_copy (g : Graph) : g.Requires plan disk entry copy := by
  have required : ∃ live, plan.entryProgram? disk entry = some live ∧
      "./b/m" ∈ live.requires := by
    have there : (plan.entryProgram? disk entry).any fun live => live.requires.contains "./b/m" := by
      decide +kernel
    obtain ⟨live, source, mem⟩ := Option.any_eq_true .. |>.mp there
    exact ⟨live, source, List.contains_iff_mem.mp mem⟩
  obtain ⟨live, source, mem⟩ := required
  have leads : plan.resolver.resolve disk "./b/m" entry.directory =
      .ok (.file copy copy.directory .project) := by decide +kernel
  exact .inl ⟨live, source, "./b/m", mem, _, _, leads⟩

theorem copy_requires (program : Script.Node) (order : Nat) : ∃ live,
    plan.moduleProgram? disk ⟨.ofText text, copy, program, order⟩ = some live ∧
      "./x" ∈ live.requires := by
  have there : (plan.moduleProgram? disk ⟨.ofText text, copy, default, 0⟩).any
      fun live => live.requires.contains "./x" := by
    decide +kernel
  obtain ⟨live, source, mem⟩ := Option.any_eq_true .. |>.mp there
  exact ⟨live, source, List.contains_iff_mem.mp mem⟩

theorem target_original : plan.target? disk original.directory "./x" = some (.ofText "1") := by
  have resolved : plan.resolver.resolve disk "./x" original.directory =
      .ok (.file (.ofString "/a/x.js") original.directory .project) := by decide +kernel
  exact Plan.target?_file resolved (by decide +kernel)

theorem target_copy : plan.target? disk copy.directory "./x" = some (.ofText "2") := by
  have resolved : plan.resolver.resolve disk "./x" copy.directory =
      .ok (.file (.ofString "/b/x.js") copy.directory .project) := by decide +kernel
  exact Plan.target?_file resolved (by decide +kernel)

end Twins

namespace Build

variable {plan : Plan} {d : Disk} {path file : Path} {script : EntryScript} {c : Context}

/-- A file that is required is bound to one module, which was read from a required file too. If that
file holds the same text, the calls of the module are answered from the directory of that file, so
they are what the first file requires just where both directories lead to one content. -/
theorem copies_share_answers (h : (Build.entry plan d path).run.run .empty = (.ok script, c))
    (required : c.graph.Requires plan d path file) :
    ∃ text, d.readText file = .ok text ∧ ∃ m ∈ c.graph.modules, m.id = .ofText text ∧
      (∀ other ∈ c.graph.modules, other.id = .ofText text → other = m) ∧
      c.graph.Requires plan d path m.path ∧
      (d.readText m.path = .ok text → ∃ live ∈ plan.moduleProgram? d { m with path := file },
        Answered plan d c.externals m.path.directory live m.program ∧
        ∀ position call specifier id, live.at? position = some call →
          call.requireSpecifier? = some specifier →
          plan.target? d file.directory specifier = some id →
          (m.program.at? position = some (call.bindTo id) ↔
            plan.target? d m.path.directory specifier =
              plan.target? d file.directory specifier)) := by
  have built := built_of_entry h
  obtain ⟨text, holds, m, mem, named⟩ := module_of_requires h required
  refine ⟨text, holds, m, mem, named, fun other there same => ?_, requires_of_mem h m mem,
    fun copied => ?_⟩
  · exact List.inj_on_of_nodup_map built.unique there mem (same.trans named.symm)
  · obtain ⟨live, source, linked⟩ := built.linked_copy mem holds copied
    refine ⟨live, source, linked.answered, fun position call specifier id found requires own => ?_⟩
    rw [linked.program, Script.Node.at?_substitute _ found requires, own]
    constructor
    · intro same
      exact Script.Node.answered_injective requires (Option.some.inj same)
    · intro target
      rw [target, Script.Node.answered]

theorem copies_share_answers_twins : ∃ script c,
    (Build.entry Twins.plan Twins.disk Twins.entry).run.run .empty = (.ok script, c) ∧
    c.graph.Requires Twins.plan Twins.disk Twins.entry Twins.copy ∧
    ∃ m ∈ c.graph.modules, m.id = .ofText Twins.text ∧ m.path = Twins.original ∧
      ∃ live ∈ Twins.plan.moduleProgram? Twins.disk { m with path := Twins.copy },
        Answered Twins.plan Twins.disk c.externals Twins.original.directory live m.program := by
  obtain ⟨script, c, ran, own, inGraph, ownPath, ownId⟩ := Twins.built
  have required := Twins.requires_copy c.graph
  obtain ⟨text, holds, m, mem, named, unique, -, shared⟩ := copies_share_answers ran required
  have isText : Twins.disk.readText Twins.copy = .ok Twins.text := by decide +kernel
  cases holds.symm.trans isText
  cases unique own inGraph ownId
  have copied : Twins.disk.readText own.path = .ok Twins.text := ownPath ▸ (by decide +kernel)
  obtain ⟨live, source, answered, -⟩ := shared copied
  exact ⟨script, c, ran, required, own, mem, ownId, ownPath, live, source, ownPath ▸ answered⟩

/-- A copy is not always bound to what it requires itself. -/
theorem not_answered_from_copy : ¬ ∀ (plan : Plan) (d : Disk) (path : Path) (script : EntryScript)
    (c : Context), (Build.entry plan d path).run.run .empty = (.ok script, c) →
    ∀ (file : Path) (text : String), c.graph.Requires plan d path file →
    d.readText file = .ok text → ∀ m ∈ c.graph.modules, m.id = .ofText text →
    ∀ live ∈ plan.moduleProgram? d { m with path := file }, ∀ position call specifier id,
    live.at? position = some call → call.requireSpecifier? = some specifier →
    plan.target? d file.directory specifier = some id →
    m.program.at? position = some (call.bindTo id) := by
  intro faithful
  obtain ⟨script, c, ran, m, mem, ownPath, ownId⟩ := Twins.built
  have isText : Twins.disk.readText Twins.copy = .ok Twins.text := by decide +kernel
  have copied : Twins.disk.readText m.path = .ok Twins.text := ownPath ▸ (by decide +kernel)
  obtain ⟨live, source, linked⟩ := (built_of_entry ran).linked_copy mem isText copied
  have required : "./x" ∈ live.requires := by
    obtain ⟨_, source', required⟩ := Twins.copy_requires m.program m.order
    rw [← ownId] at source'
    cases source.symm.trans source'
    exact required
  obtain ⟨position, call, found, requires⟩ := Script.Node.mem_requires_iff.mp required
  -- the call would be bound to the module that the copy requires, but is bound to that of the original
  have claimed := faithful _ _ _ _ _ ran Twins.copy Twins.text (Twins.requires_copy c.graph) isText
    m mem ownId live source position call "./x" _ found requires Twins.target_copy
  rw [linked.program, Script.Node.at?_substitute _ found requires, ownPath,
    Twins.target_original] at claimed
  have same := Script.Node.answered_injective requires (Option.some.inj claimed)
  have apart : ContentId.ofText "1" ≠ ContentId.ofText "2" := by decide +kernel
  exact apart (Option.some.inj same)

end Build

end Bundler
