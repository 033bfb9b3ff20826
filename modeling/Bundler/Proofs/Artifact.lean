import Bundler.Proofs.Made

/-! What the text of a bundle still asks the host for. Calls that require are looked for in the trees,
where parentheses are nodes, but the text has none of them: `(require)("./x")` is left as it is and is
then written as `require("./x")`. What is read in the text is described by the outlines of its calls,
which do not show parentheses. -/

namespace Bundler

namespace Script.Node

/-- What a call shows of itself when parentheses are left out: the variable that it calls and the
literal texts that it passes. -/
structure Outline where
  callee : Option String
  arguments : List (Option String)
  deriving DecidableEq

def identifierName? (n : Node) : Option String :=
  match n.bare.form with
  | .identifier name => some name
  | _ => none

def literal? (n : Node) : Option String :=
  match n.bare.form with
  | .string value _ => some value
  | _ => none

def outline? : Node → Option Outline
  | ⟨.call _ _, _, callee :: arguments⟩ => some ⟨callee.identifierName?, arguments.map literal?⟩
  | _ => none

def outlines : Node → List Outline := fold fun n below => n.outline?.toList ++ below.flatten

def Outline.require (specifier : String) : Outline := ⟨some "require", [some specifier]⟩

/-- A call in the tree would require a specifier if some parentheses in it were left out. -/
def Hides (n : Node) (specifier : String) : Prop :=
  ∃ position call, n.at? position = some call ∧ call.requireSpecifier? = none ∧
    call.outline? = some (.require specifier)

theorem outlines_mk (form : Form) (notes : List Comment) (parts : List Node) :
    outlines ⟨form, notes, parts⟩ =
      (outline? ⟨form, notes, parts⟩).toList ++ parts.flatMap outlines := by
  rw [outlines, fold, foldParts_eq]
  rfl

theorem outline?_of_requires {n : Node} {specifier : String}
    (h : n.requireSpecifier? = some specifier) : n.outline? = some (.require specifier) := by
  obtain ⟨_, _, _, _, _, _, rfl⟩ := requireSpecifier?_eq_some.mp h
  rfl

theorem outlines_of_requires {n : Node} {specifier : String}
    (h : n.requireSpecifier? = some specifier) : n.outlines = [.require specifier] := by
  obtain ⟨_, _, _, _, _, _, rfl⟩ := requireSpecifier?_eq_some.mp h
  rfl

theorem require_mem_outlines {n : Node} {specifier : String} (h : specifier ∈ n.requires) :
    .require specifier ∈ n.outlines := by
  induction n using Node.ind with
  | step form notes parts ih =>
    rw [outlines_mk]
    cases one : requireSpecifier? ⟨form, notes, parts⟩ with
    | some own =>
      rw [requires_of_call one, List.mem_singleton] at h
      rw [outline?_of_requires one, h]
      exact List.mem_append_left _ (List.mem_singleton.mpr rfl)
    | none =>
      rw [requires_of_other one] at h
      obtain ⟨part, mem, inPart⟩ := List.mem_flatMap.mp h
      exact List.mem_append_right _ (List.mem_flatMap.mpr ⟨part, mem, ih part mem inPart⟩)

theorem bare_substitute (target : String → Option ContentId) (n : Node) :
    (n.substitute target).bare = n.bare.substitute target := by
  apply bare_comm
  · intro notes inner
    exact substitute_of_other target rfl
  · intro n notes inner same
    cases one : n.requireSpecifier? with
    | some own =>
      obtain ⟨isOptional, closing, isCall⟩ := requireSpecifier?_form one
      have form := congrArg Node.form same
      rw [substitute_form, isCall] at form
      cases form
    | none =>
      obtain ⟨form, ownNotes, parts⟩ := n
      rw [substitute_of_other target one] at same
      obtain ⟨rfl, rfl, below⟩ := Node.mk.inj same
      obtain ⟨part, rfl, -⟩ := List.map_eq_singleton_iff.mp below
      exact ⟨part, rfl⟩

theorem identifierName?_substitute (target : String → Option ContentId) (n : Node) :
    (n.substitute target).identifierName? = n.identifierName? := by
  rw [identifierName?, identifierName?, bare_substitute, substitute_form]

theorem literal?_substitute (target : String → Option ContentId) (n : Node) :
    (n.substitute target).literal? = n.literal? := by
  rw [literal?, literal?, bare_substitute, substitute_form]

theorem outline?_substitute (target : String → Option ContentId) {form : Form}
    {notes : List Comment} {parts : List Node} :
    outline? ⟨form, notes, parts.map (substitute target)⟩ = outline? ⟨form, notes, parts⟩ := by
  have literals : literal? ∘ substitute target = literal? := by
    funext n
    exact literal?_substitute target n
  cases parts with
  | nil => rfl
  | cons callee arguments =>
    cases form <;> try rfl
    simp only [List.map_cons, outline?, identifierName?_substitute, List.map_map, literals]

theorem Hides.of_part {form : Form} {notes : List Comment} {parts : List Node} {part : Node}
    {specifier : String} (mem : part ∈ parts) (h : part.Hides specifier) :
    Hides ⟨form, notes, parts⟩ specifier := by
  obtain ⟨position, call, found, hidden⟩ := h
  obtain ⟨i, there⟩ := List.mem_iff_getElem?.mp mem
  exact ⟨i :: position, call, Option.bind_eq_some_iff.mpr ⟨part, there, found⟩, hidden⟩

/-- What a tree still shows as a require when all answers are in place was left without an answer,
or parentheses had hidden it. -/
theorem requires_or_hides {target : String → Option ContentId} {n : Node} {specifier : String}
    (h : .require specifier ∈ (n.substitute target).outlines) :
    (specifier ∈ n.requires ∧ target specifier = none) ∨ n.Hides specifier := by
  induction n using Node.ind with
  | step form notes parts ih =>
    cases one : requireSpecifier? ⟨form, notes, parts⟩ with
    | some own =>
      rw [substitute_of_call target one] at h
      cases left : target own with
      | some id =>
        -- a call that has been bound passes nothing on
        obtain ⟨isOptional, closing, rfl⟩ := requireSpecifier?_form one
        obtain ⟨calleeNotes, bound⟩ := bindTo_of_call id one
        rw [left, answered, bound] at h
        have other := List.mem_singleton.mp h
        cases congrArg Outline.arguments other
      | none =>
        rw [left, answered, outlines_of_requires one, List.mem_singleton] at h
        cases congrArg Outline.arguments h
        exact .inl ⟨by rw [requires_of_call one]; exact List.mem_singleton.mpr rfl, left⟩
    | none =>
      rw [substitute_of_other target one, outlines_mk, outline?_substitute] at h
      rcases List.mem_append.mp h with own | below
      · exact .inr ⟨[], _, rfl, one, Option.mem_toList.mp own⟩
      · obtain ⟨_, image, inPart⟩ := List.mem_flatMap.mp below
        obtain ⟨part, mem, rfl⟩ := List.mem_map.mp image
        rcases ih part mem inPart with ⟨required, left⟩ | hidden
        · refine .inl ⟨?_, left⟩
          rw [requires_of_other one]
          exact List.mem_flatMap.mpr ⟨part, mem, required⟩
        · exact .inr (hidden.of_part mem)

end Script.Node

namespace Linked

variable {plan : Plan} {d : Disk} {externals : List String} {base : Path}
  {live bound : Script.Node} {specifier : String}

theorem listed_or_hides (h : Linked plan d externals base live bound)
    (shown : .require specifier ∈ bound.outlines) : specifier ∈ externals ∨ live.Hides specifier := by
  rw [h.program] at shown
  rcases Script.Node.requires_or_hides shown with ⟨required, noTarget⟩ | hidden
  · rcases h.settled specifier required with ⟨path, kind, text, resolved, read⟩ | ⟨-, left⟩
    · rw [Plan.target?_file resolved read] at noTarget
      cases noTarget
    · exact .inl left
  · exact .inr hidden

end Linked

namespace Emit

/-- The outlines of the calls in the text of a bundle: the one that encloses it all, then those of
the modules and of the entry. -/
def outlines (script : EntryScript) (graph : Graph) : List Script.Node.Outline :=
  ⟨none, []⟩ :: (graph.modules.flatMap (·.program.outlines) ++ script.program.outlines)

end Emit

namespace Bundle

namespace Parenthesized

def disk : Disk where
  tree := ⟨[(["main.js".toList], .file (.text "require('fs');(require)('./x')")),
    (["x.js".toList], .file (.text "exports.a = 1;"))]⟩
  cwd := []

def entry : Path := .ofString "/main.js"

def plan : Plan := .ofConfig (.ofString "/") .default_

/-- A bundle of the disk, and a program that its text is read as. -/
structure Reads (bundle : Bundle) (warnings : List String) (script : EntryScript)
    (context : Context) (artifact : Script.Node) : Prop where
  made : make disk .default_ entry = (.ok bundle, warnings)
  built : (Build.entry plan disk entry).run.run .empty = (.ok script, context)
  parsed : Script.parse true bundle.code = .ok artifact
  asked : artifact.requires = ["fs", "./x"]
  left : bundle.externals = ["fs"]
  alone : bundle.modules = []
  shown : artifact.outlines ⊆ Emit.outlines script context.graph

/-- The text of the bundle asks for the host module and for a file, and shows no other calls. -/
def asksForBoth : Bool :=
  match make disk .default_ entry, (Build.entry plan disk entry).run.run .empty with
  | (.ok bundle, _), (.ok script, context) =>
    match Script.parse true bundle.code with
    | .ok artifact => artifact.requires == ["fs", "./x"] && bundle.externals == ["fs"] &&
      bundle.modules == [] && artifact.outlines.all fun o => o ∈ Emit.outlines script context.graph
    | .error _ => false
  | _, _ => false

set_option maxRecDepth 100000 in
theorem asksForBoth_holds : asksForBoth = true := by decide +kernel

theorem reads : ∃ bundle warnings script context artifact,
    Reads bundle warnings script context artifact := by
  have succeeds := asksForBoth_holds
  unfold asksForBoth at succeeds
  split at succeeds
  · rename_i bundle warnings script context made built
    split at succeeds
    · rename_i artifact parsed
      simp only [Bool.and_eq_true, beq_iff_eq, List.all_eq_true, decide_eq_true_eq] at succeeds
      obtain ⟨⟨⟨asked, left⟩, alone⟩, shown⟩ := succeeds
      exact ⟨bundle, warnings, script, context, artifact, made, built, parsed, asked, left, alone,
        shown⟩
    · cases succeeds
  · cases succeeds

end Parenthesized

/-- What the text of a bundle still asks for is left to the host, or is a require that parentheses
hide in the entry or in a module; provided that the text shows no other calls than the trees that it
was printed from. -/
theorem artifact_requires {d : Disk} {c : Config} {entry : Path} {bundle : Bundle}
    {warnings : List String} {shorten : Emit.Minifier}
    (h : make d c entry shorten = (.ok bundle, warnings)) (long : c.minify = false) :
    ∃ path root script context, Made shorten d c entry bundle path root script context ∧
      bundle.code = Emit.hashbangLine script.hashbang ++ Emit.enclosed
        (Emit.body script context.graph (if c.processShim then some c.env else none)) ∧
      ∀ artifact, Script.parse true bundle.code = .ok artifact →
        artifact.outlines ⊆ Emit.outlines script context.graph →
        ∀ specifier ∈ artifact.requires, specifier ∈ bundle.externals ∨
          (∃ live ∈ (Plan.ofConfig root c).entryProgram? d path, live.Hides specifier) ∨
          ∃ m ∈ context.graph.modules, ∃ live ∈ (Plan.ofConfig root c).moduleProgram? d m,
            live.Hides specifier := by
  obtain ⟨path, root, script, context, made⟩ := made_of_make h
  refine ⟨path, root, script, context, made, made.code_eq long, ?_⟩
  intro artifact _ shown specifier asked
  rw [made.externals]
  have built := Build.built_of_entry made.built
  have there := shown (Script.Node.require_mem_outlines asked)
  rcases List.mem_cons.mp there with enclosing | inside
  · -- the call of the function around everything is of no name
    cases congrArg Script.Node.Outline.callee enclosing
  rcases List.mem_append.mp inside with inModules | inEntry
  · obtain ⟨m, mem, inModule⟩ := List.mem_flatMap.mp inModules
    obtain ⟨live, source, linked⟩ := (built.sound.modules m mem).linked
    exact (linked.listed_or_hides inModule).imp_right fun hidden =>
      .inr ⟨m, mem, live, source, hidden⟩
  · obtain ⟨live, source, linked⟩ := built.linked
    exact (linked.listed_or_hides inEntry).imp_right fun hidden => .inl ⟨live, source, hidden⟩

theorem artifact_requires_parenthesized : ∃ bundle warnings script context artifact,
    Parenthesized.Reads bundle warnings script context artifact ∧
    ∃ live ∈ Parenthesized.plan.entryProgram? Parenthesized.disk Parenthesized.entry,
      live.Hides "./x" := by
  obtain ⟨bundle, warnings, script, context, artifact, reads⟩ := Parenthesized.reads
  obtain ⟨path, root, script', context', made, -, requires⟩ := artifact_requires reads.made rfl
  have start : absolute Parenthesized.disk.cwd Parenthesized.entry = .ok Parenthesized.entry := by
    decide +kernel
  have below : rootOf Parenthesized.disk.cwd .default_ Parenthesized.entry =
      .ok (.ofString "/") := by decide +kernel
  cases start.symm.trans made.start
  cases below.symm.trans made.below
  cases reads.built.symm.trans made.built
  have asked : "./x" ∈ artifact.requires := by rw [reads.asked]; decide
  refine ⟨bundle, warnings, script, context, artifact, reads, ?_⟩
  rcases requires artifact reads.parsed reads.shown "./x" asked with left | inEntry | inModule
  · rw [reads.left] at left
    exact absurd left (by decide)
  · exact inEntry
  · obtain ⟨m, mem, -⟩ := inModule
    have among := made.mem_modules.mpr ⟨m, mem, rfl⟩
    rw [reads.alone] at among
    cases among

/-- The text of a bundle may ask for a specifier that is not left to the host. -/
theorem not_self_contained : ¬ ∀ (d : Disk) (c : Config) (entry : Path) (bundle : Bundle)
    (warnings : List String) (artifact : Script.Node), c.minify = false →
    make d c entry = (.ok bundle, warnings) → Script.parse true bundle.code = .ok artifact →
    ∀ specifier ∈ artifact.requires, specifier ∈ bundle.externals := by
  intro selfContained
  obtain ⟨bundle, warnings, script, context, artifact, reads⟩ := Parenthesized.reads
  have asked : "./x" ∈ artifact.requires := by rw [reads.asked]; decide
  have left := selfContained _ _ _ _ _ _ rfl reads.made reads.parsed "./x" asked
  rw [reads.left] at left
  exact absurd left (by decide)

end Bundle

end Bundler
