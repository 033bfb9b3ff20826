import Bundler.Bundle
import Bundler.Proofs.Copies

/-! What a bundle that has been made is made of. The entry is printed last, by itself. It is no module
of its own bundle unless the bundle requires it: nothing marks the entry as being walked, so a require
that leads back to its file makes it a module as well, and its body stands in the bundle twice. -/

namespace Bundler

namespace Bundle

/-- The parts that a bundle was made of. -/
structure Made (shorten : Emit.Minifier) (d : Disk) (c : Config) (entry : Path) (bundle : Bundle)
    (path root : Path) (script : EntryScript) (context : Context) : Prop where
  start : absolute d.cwd entry = .ok path
  below : rootOf d.cwd c path = .ok root
  built : (Build.entry (.ofConfig root c) d path).run.run .empty = (.ok script, context)
  emitted : Emit.emit script context.graph context.bound
    ⟨c.minify, if c.processShim then some c.env else none⟩ shorten = .ok bundle.code
  modules : bundle.modules = context.graph.modules.map (·.path)
  externals : bundle.externals = context.externals

section

variable {d : Disk} {c : Config} {entry : Path} {bundle : Bundle} {warnings : List String}
  {shorten : Emit.Minifier}

theorem made_of_make (h : make d c entry shorten = (.ok bundle, warnings)) :
    ∃ path root script context, Made shorten d c entry bundle path root script context := by
  unfold make at h
  cases start : absolute d.cwd entry with
  | error e =>
    rw [start] at h
    cases congrArg Prod.fst h
  | ok path =>
    cases below : rootOf d.cwd c path with
    | error e =>
      simp only [start, below, bind, Except.bind] at h
      cases congrArg Prod.fst h
    | ok root =>
      simp only [start, below, bind, Except.bind, pure, Except.pure] at h
      rcases built : (Build.entry (.ofConfig root c) d path).run.run .empty with
        ⟨e | script, context⟩
      · rw [built] at h
        cases congrArg Prod.fst h
      · rw [built] at h
        dsimp only at h
        cases emitted : Emit.emit script context.graph context.bound
            ⟨c.minify, if c.processShim then some c.env else none⟩ shorten with
        | error e =>
          rw [emitted] at h
          cases congrArg Prod.fst h
        | ok code =>
          rw [emitted] at h
          cases h
          exact ⟨path, root, script, context, start, below, built, emitted, rfl, rfl⟩

namespace Made

variable {path root : Path} {script : EntryScript} {context : Context}
  (made : Made shorten d c entry bundle path root script context)
include made

theorem code_eq (long : c.minify = false) : bundle.code =
    Emit.hashbangLine script.hashbang ++ Emit.enclosed
      (Emit.body script context.graph (if c.processShim then some c.env else none)) := by
  have emitted := made.emitted
  rw [long] at emitted
  exact Emit.emit_long emitted

theorem mem_modules {p : Path} :
    p ∈ bundle.modules ↔ ∃ m ∈ context.graph.modules, m.path = p := by
  rw [made.modules, List.mem_map]

theorem entry_text : ∃ text, d.readText path = .ok text := by
  obtain ⟨text, _, _, _, read, -⟩ := Build.entry_ok made.built
  exact ⟨text, (Cache.read_empty read).1⟩

theorem requires_of_mem {p : Path} (mem : p ∈ bundle.modules) :
    context.graph.Requires (.ofConfig root c) d path p := by
  obtain ⟨m, there, rfl⟩ := made.mem_modules.mp mem
  exact Build.requires_of_mem made.built m there

theorem contains_iff_requires {id : ContentId} : context.graph.contains id ↔
    ∃ file text, context.graph.Requires (.ofConfig root c) d path file ∧
      d.readText file = .ok text ∧ ContentId.ofText text = id := by
  constructor
  · intro there
    obtain ⟨m, mem, rfl⟩ := Graph.contains_iff.mp there
    have built := Build.built_of_entry made.built
    obtain ⟨text, _, holds, named, -⟩ := (built.sound.modules m mem).source
    exact ⟨m.path, text, Build.requires_of_mem made.built m mem, holds, named⟩
  · rintro ⟨file, text, required, holds, rfl⟩
    obtain ⟨_, holds', there⟩ := Build.module_of_requires made.built required
    cases holds.symm.trans holds'
    exact Graph.contains_iff.mpr there

end Made

end

namespace Loop

def disk : Disk where
  tree := ⟨[(["main.js".toList], .file (.text "require('./main')"))]⟩
  cwd := []

def entry : Path := .ofString "/main.js"

def isAlone : Except BundleFault Bundle × List String → Bool
  | (.ok bundle, _) => bundle.modules == [entry]
  | (.error _, _) => false

theorem alone_of_isAlone {outcome : Except BundleFault Bundle × List String}
    (h : isAlone outcome = true) :
    ∃ bundle warnings, outcome = (.ok bundle, warnings) ∧ bundle.modules = [entry] := by
  obtain ⟨_ | bundle, warnings⟩ := outcome
  · cases h
  · exact ⟨bundle, warnings, rfl, beq_iff_eq.mp h⟩

set_option maxRecDepth 100000 in
theorem isAlone_make : isAlone (make disk .default_ entry) = true := by
  decide +kernel

theorem made : ∃ bundle warnings, make disk .default_ entry = (.ok bundle, warnings) ∧
    bundle.modules = [entry] := alone_of_isAlone isAlone_make

end Loop

/-- The entry is a module of its own bundle only if a live require leads back to it, and if no other
file of its content is required then it is one just in that case. All modules are printed, and the
entry once more after them. -/
theorem entry_among_modules {d : Disk} {c : Config} {entry : Path} {bundle : Bundle}
    {warnings : List String} {shorten : Emit.Minifier}
    (h : make d c entry shorten = (.ok bundle, warnings)) :
    ∃ path root script context text, Made shorten d c entry bundle path root script context ∧
      d.readText path = .ok text ∧
      (∀ p ∈ bundle.modules, context.graph.Requires (.ofConfig root c) d path p) ∧
      (context.graph.contains (.ofText text) ↔ ∃ file copy,
        context.graph.Requires (.ofConfig root c) d path file ∧
        d.readText file = .ok copy ∧ ContentId.ofText copy = .ofText text) ∧
      ((∀ file copy, context.graph.Requires (.ofConfig root c) d path file →
          d.readText file = .ok copy → ContentId.ofText copy = .ofText text → file.same path) →
        ((∃ p ∈ bundle.modules, p.same path) ↔
          ∃ file, context.graph.Requires (.ofConfig root c) d path file ∧ file.same path)) ∧
      (c.minify = false → bundle.code = Emit.hashbangLine script.hashbang ++ Emit.enclosed
        (Emit.body script context.graph (if c.processShim then some c.env else none))) := by
  obtain ⟨path, root, script, context, made⟩ := made_of_make h
  obtain ⟨text, holds⟩ := made.entry_text
  refine ⟨path, root, script, context, text, made, holds, fun p mem => made.requires_of_mem mem,
    made.contains_iff_requires, fun alone => ?_, made.code_eq⟩
  constructor
  · rintro ⟨p, mem, same⟩
    exact ⟨p, made.requires_of_mem mem, same⟩
  · rintro ⟨file, required, same⟩
    obtain ⟨copy, read, m, mem, named⟩ := Build.module_of_requires made.built required
    have isCopy : copy = text := Disk.readText_unique same read holds
    have back := Build.requires_of_mem made.built m mem
    obtain ⟨own, _, readOwn, namedOwn, -⟩ :=
      ((Build.built_of_entry made.built).sound.modules m mem).source
    have again : ContentId.ofText own = .ofText text := by rw [namedOwn, named, isCopy]
    exact ⟨m.path, made.mem_modules.mpr ⟨m, mem, rfl⟩, alone m.path own back readOwn again⟩

theorem entry_among_modules_loop : ∃ bundle warnings,
    make Loop.disk .default_ Loop.entry = (.ok bundle, warnings) ∧
    bundle.modules = [Loop.entry] ∧
    ∃ path root script context,
      Made Script.Node.print Loop.disk .default_ Loop.entry bundle path root script context ∧
      context.graph.Requires (.ofConfig root .default_) Loop.disk path Loop.entry ∧
      bundle.code = Emit.hashbangLine script.hashbang ++
        Emit.enclosed (Emit.body script context.graph none) := by
  obtain ⟨bundle, warnings, ran, modules⟩ := Loop.made
  obtain ⟨path, root, script, context, text, made, -, required, -, -, code⟩ :=
    entry_among_modules ran
  have among : Loop.entry ∈ bundle.modules := by rw [modules]; exact List.mem_cons_self
  exact ⟨bundle, warnings, ran, modules, path, root, script, context, made, required _ among,
    code rfl⟩

/-- An entry may be among the modules of its bundle. -/
theorem not_entry_excluded : ¬ ∀ (d : Disk) (c : Config) (entry path : Path) (bundle : Bundle)
    (warnings : List String), make d c entry = (.ok bundle, warnings) →
    absolute d.cwd entry = .ok path → path ∉ bundle.modules := by
  intro excluded
  obtain ⟨bundle, warnings, ran, modules⟩ := Loop.made
  have start : absolute Loop.disk.cwd Loop.entry = .ok Loop.entry := by decide +kernel
  apply excluded _ _ _ _ _ _ ran start
  rw [modules]
  exact List.mem_cons_self

end Bundle

end Bundler
