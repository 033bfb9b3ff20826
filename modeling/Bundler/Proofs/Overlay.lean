import Bundler.Config.Load
import Bundler.Proofs.Options
import Bundler.Proofs.Run
import Mathlib.Data.List.Forall2
import Mathlib.Data.List.Induction

/-! What a configuration comes to under its layers. Each setting has the value of the last layer that
says something about it, and the externals are those of all layers, each at its first place. A layer
is described by where it comes from: the members of a file, the variables that are set, the options
of a command line. -/

namespace Bundler

namespace Config

namespace Layer

def member? {α : Type} (members : List (String × Toml)) (key : String) (read : Toml → Option α) :
    Option α :=
  (members.reverse.lookup key).bind read

def written (members : List (String × Toml)) : Layer where
  root := (member? members "root" string?).map .ofString
  env := member? members "env" string?
  minify := member? members "minify" boolean?
  extension := member? members "extension" string?
  packageDir := member? members "package-dir" string?
  externals := (member? members "externals" strings?).getD []
  platform := (member? members "platform" choice?).bind Platform.ofName?
  instantiation := (member? members "instantiation" choice?).bind Instantiation.ofName?
  processShim := member? members "process-shim" boolean?

def anchored (file root : Path) : Path :=
  match file.parent? with
  | some directory => if root.isAbsolute then root else directory.join root
  | none => root

def ReadFrom (d : Disk) (file : Path) (l : Layer) : Prop :=
  ∃ text members, d.readText file = .ok text ∧ Toml.parse text = some members ∧
    l = { written members with
      root := (written members).root.map (anchored file)
      extension := (written members).extension.map withoutDots }

def ofVariables (vars : Variables) : Layer where
  env := (vars "CJSPACK_ENV").or (vars "NODE_ENV")
  minify := (vars "CJSPACK_MINIFY").bind Configure.switch?
  platform := (vars "CJSPACK_PLATFORM").bind fun word => Platform.ofName? (word.map Char.toLower)

/-- What options can say: a switch can only be turned on, and some settings have no option. -/
structure Flags (l : Layer) : Prop where
  minify : l.minify ≠ some false
  processShim : l.processShim ≠ some false
  extension : l.extension = none
  packageDir : l.packageDir = none
  externals : l.externals = []

theorem flags_ofOptions (given : List Given) : (ofOptions given).Flags :=
  ⟨by simp [ofOptions], by simp [ofOptions], rfl, rfl, rfl⟩

def last? {α : Type} (setting : Layer → Option α) (layers : List Layer) : Option α :=
  layers.reverse.findSome? setting

end Layer

/-- A configuration under layers: a setting is as the last layer has it that sets it, and as before
if none does. -/
def under (layers : List Layer) (c : Config) : Config where
  root := (Layer.last? (·.root) layers).or c.root
  env := (Layer.last? (·.env) layers).getD c.env
  minify := (Layer.last? (·.minify) layers).getD c.minify
  extension := (Layer.last? (·.extension) layers).getD c.extension
  packageDir := (Layer.last? (·.packageDir) layers).getD c.packageDir
  externals := c.externals ++ ((layers.flatMap (·.externals)).removeAll c.externals).eraseDups
  platform := (Layer.last? (·.platform) layers).getD c.platform
  instantiation := (Layer.last? (·.instantiation) layers).getD c.instantiation
  processShim := (Layer.last? (·.processShim) layers).getD c.processShim

namespace Layer

theorem last?_cons {α : Type} (setting : Layer → Option α) (l : Layer) (layers : List Layer) :
    last? setting (l :: layers) = (last? setting layers).or (setting l) := by
  rw [last?, List.reverse_cons, List.findSome?_append, last?]
  simp

end Layer

theorem addExternals_eq (c : Config) (more : List String) :
    (c.addExternals more).externals =
      c.externals ++ (more.removeAll c.externals).eraseDups := by
  rw [addExternals]
  -- What was added counts as known for what comes later, so the known ones vary.
  generalize c.externals = there
  induction more generalizing there with
  | nil => simp [List.removeAll]
  | cons s rest ih =>
    dsimp only at ih ⊢
    rw [List.foldl_cons, ih]
    by_cases known : s ∈ there
    · simp [known, List.removeAll]
    · have later : rest.removeAll (there ++ [s]) = (rest.removeAll there).filter fun t => !t == s := by
        simp only [List.removeAll, List.filter_filter]
        refine List.filter_congr fun t _ => ?_
        simp [Bool.and_comm, beq_eq_decide]
      have first : (s :: rest).removeAll there = s :: rest.removeAll there := by
        simp [List.removeAll, known]
      rw [first, List.eraseDups_cons, ← later]
      simp [known]

theorem under_cons (l : Layer) (layers : List Layer) (c : Config) :
    c.under (l :: layers) = (l.onto c).under layers := by
  have externals : (c.under (l :: layers)).externals =
      ((l.onto c).addExternals (layers.flatMap (·.externals))).externals := by
    rw [under, ← addExternals_eq]
    simp [Layer.onto, addExternals, List.foldl_append]
  rw [addExternals_eq] at externals
  simp only [under, Layer.last?_cons, Option.getD_or, Option.or_assoc]
  rw [Config.mk.injEq]
  exact ⟨by simp [Layer.onto], rfl, rfl, rfl, rfl, externals, rfl, rfl, rfl⟩

theorem foldl_onto (layers : List Layer) (c : Config) :
    layers.foldl (fun c l => l.onto c) c = c.under layers := by
  induction layers generalizing c with
  | nil => simp [under, Layer.last?, List.removeAll]
  | cons l layers ih => rw [List.foldl_cons, ih, under_cons]

namespace Layer

theorem member?_concat {α : Type} (members : List (String × Toml)) (name key : String)
    (value : Toml) (read : Toml → Option α) :
    member? (members ++ [(name, value)]) key read =
      if key = name then read value else member? members key read := by
  by_cases same : key = name <;> simp [member?, List.lookup_cons, same, beq_eq_decide]

theorem written_concat {members : List (String × Toml)} {key : String} {value : Toml} {l : Layer}
    (h : (written members).set? key value = some l) : l = written (members ++ [(key, value)]) := by
  unfold set? at h
  split at h
  case h_10 => cases h
  all_goals
    obtain ⟨said, read, rfl⟩ := Option.map_eq_some_iff.mp h
    simp [written, member?_concat, read]

theorem ofText?_eq {text : String} {l : Layer} (h : ofText? text = some l) :
    ∃ members, Toml.parse text = some members ∧ l = written members := by
  obtain ⟨members, parsed, said⟩ := Option.bind_eq_some_iff.mp h
  refine ⟨members, parsed, ?_⟩
  clear h parsed
  -- The last member of a name is the one that counts, so members are taken from the end.
  induction members using List.reverseRecOn generalizing l with
  | nil =>
    cases said
    rfl
  | append_singleton members last ih =>
    rw [List.foldlM_append] at said
    obtain ⟨before, earlier, said⟩ := Option.bind_eq_some_iff.mp said
    rw [ih earlier] at said
    exact written_concat (by simpa using said)

theorem anchored_eq (file root : Path) :
    (file.parent?.getD ⟨[]⟩).join root = anchored file root := by
  unfold anchored
  cases file.parent? with
  | none => simp [Path.join]
  | some directory =>
    by_cases absolute : root.isAbsolute = true <;> simp [Path.join, absolute]

end Layer

end Config

namespace Configure

open Config (Layer)

variable {c c' : Config}

theorem mergeFile_ok {d : Disk} {file : Path} (h : (mergeFile d file).run.run c = (.ok ⟨⟩, c')) :
    ∃ l, Layer.ReadFrom d file l ∧ c' = l.onto c := by
  unfold mergeFile at h
  cases read : d.readText file with
  | error e =>
    rw [read] at h
    cases h
  | ok text =>
    rw [read] at h
    dsimp only at h
    cases said : Layer.ofText? text with
    | none =>
      rw [said] at h
      cases h
    | some l =>
      rw [said] at h
      cases h
      obtain ⟨members, parsed, rfl⟩ := Layer.ofText?_eq said
      refine ⟨_, ⟨text, members, read, parsed, ?_⟩, rfl⟩
      simp only [Layer.placedIn, Layer.anchored_eq]

section

variable {vars : Variables}

theorem applyEnv_ok (h : (applyEnv vars).run.run c = (.ok ⟨⟩, c')) :
    c' = { c with env := ((vars "CJSPACK_ENV").or (vars "NODE_ENV")).getD c.env } := by
  unfold applyEnv at h
  rw [Option.orElse_eq_orElse, Option.orElse_eq_or] at h
  cases said : (vars "CJSPACK_ENV").or (vars "NODE_ENV") with
  | none =>
    rw [said] at h
    cases h
    rfl
  | some env =>
    rw [said] at h
    cases h
    rfl

theorem applyMinify_ok (h : (applyMinify vars).run.run c = (.ok ⟨⟩, c')) :
    c' = { c with minify := ((vars "CJSPACK_MINIFY").bind switch?).getD c.minify } := by
  unfold applyMinify at h
  cases said : vars "CJSPACK_MINIFY" with
  | none =>
    rw [said] at h
    cases h
    rfl
  | some word =>
    rw [said] at h
    dsimp only at h
    cases understood : switch? word with
    | none =>
      rw [understood] at h
      cases h
    | some minify =>
      rw [understood] at h
      cases h
      rw [Option.bind_some, understood]
      rfl

theorem applyPlatform_ok (h : (applyPlatform vars).run.run c = (.ok ⟨⟩, c')) :
    c' = { c with platform := ((Layer.ofVariables vars).platform).getD c.platform } := by
  unfold applyPlatform at h
  unfold Layer.ofVariables
  cases said : vars "CJSPACK_PLATFORM" with
  | none =>
    rw [said] at h
    cases h
    rfl
  | some word =>
    rw [said] at h
    dsimp only at h
    cases understood : Platform.ofName? (word.map Char.toLower) with
    | none =>
      rw [understood] at h
      cases h
    | some platform =>
      rw [understood] at h
      cases h
      rw [Option.bind_some, understood]
      rfl

theorem applyVariables_ok (h : (applyVariables vars).run.run c = (.ok ⟨⟩, c')) :
    c' = (Layer.ofVariables vars).onto c := by
  unfold applyVariables at h
  obtain ⟨⟨⟩, first, env, h⟩ := Build.run_bind_ok h
  obtain ⟨⟨⟩, second, minify, platform⟩ := Build.run_bind_ok h
  rw [applyPlatform_ok platform, applyMinify_ok minify, applyEnv_ok env]
  rfl

end

/-- Files are laid over a configuration one after the other, each from the disk as it is then. -/
inductive Merged : Config → List (Disk × Path) → Config → Prop where
  | nil {c : Config} : Merged c [] c
  | cons {c between c' : Config} {d : Disk} {file : Path} {later : List (Disk × Path)}
      (first : (mergeFile d file).run.run c = (.ok ⟨⟩, between)) (rest : Merged between later c') :
      Merged c ((d, file) :: later) c'

theorem Merged.layers {steps : List (Disk × Path)} (h : Merged c steps c') :
    ∃ layers, List.Forall₂ (fun step => Layer.ReadFrom step.1 step.2) steps layers ∧
      c' = layers.foldl (fun c l => l.onto c) c := by
  induction h with
  | nil => exact ⟨[], .nil, rfl⟩
  | cons first _ ih =>
    obtain ⟨l, read, rfl⟩ := mergeFile_ok first
    obtain ⟨layers, each, rfl⟩ := ih
    exact ⟨l :: layers, .cons read each, rfl⟩

end Configure

namespace Config

open Configure (Merged applyVariables)

theorem under_concat (layers : List Layer) (l : Layer) (c : Config) :
    l.onto (c.under layers) = c.under (layers ++ [l]) := by
  rw [← foldl_onto, ← foldl_onto, List.foldl_append]
  rfl

theorem eraseDups_of_nodup {l : List String} (h : l.Nodup) : l.eraseDups = l := by
  induction l with
  | nil => rfl
  | cons s rest ih =>
    obtain ⟨new, rest'⟩ := List.nodup_cons.mp h
    have all : rest.filter (fun t => !t == s) = rest := by
      refine List.filter_eq_self.mpr fun t mem => ?_
      have other : t ≠ s := fun same => new (same ▸ mem)
      simpa using other
    rw [List.eraseDups_cons, all, ih rest']

namespace Layered

def disk : Disk where
  tree := ⟨[(["a".toList], .directory),
    (["a".toList, "first.toml".toList], .file (.text
      "root = 'app'\nextension = '..mjs'\nenv = 'test'\nexternals = ['electron', 'fs']")),
    (["second.toml".toList], .file (.text "minify = false\nexternals = ['vscode', 'electron']"))]⟩
  cwd := []

def steps : List (Disk × Path) := [(disk, .ofString "a/first.toml"), (disk, .ofString "/second.toml")]

def vars : Variables
  | "NODE_ENV" => some "production"
  | "CJSPACK_PLATFORM" => some "Browser"
  | _ => none

def arguments : List String :=
  ["--entry", "main.js", "-oout.js", "--root", "/app", "--env=staging", "--platform", "node",
    "--instantiation=reexecute", "--minify", "-vv"]

def line : CommandLine where
  entry := .ofString "main.js"
  output := .ofString "out.js"
  configFile := none
  verbosity := 2
  layer :=
    { root := some (.ofString "/app"), env := some "staging", minify := some true,
      platform := some .node, instantiation := some .reexecute }

def below : Config :=
  ⟨some (.ofString "a/app"), "test", false, "mjs", "node_modules", ["electron", "fs", "vscode"],
    .node, .memoized, false⟩

def above : Config := { below with env := "production", platform := .browser }

def between : Config := { below with externals := ["electron", "fs"] }

def whole : Config :=
  ⟨some (.ofString "/app"), "staging", true, "mjs", "node_modules", ["electron", "fs", "vscode"],
    .node, .reexecute, false⟩

theorem merged : Merged .default_ steps below := by
  have first : (Configure.mergeFile disk (.ofString "a/first.toml")).run.run .default_ =
      (.ok ⟨⟩, between) := by
    change @Eq (Except ConfigFault PUnit × Config) _ _
    decide +kernel
  have second : (Configure.mergeFile disk (.ofString "/second.toml")).run.run between =
      (.ok ⟨⟩, below) := by
    change @Eq (Except ConfigFault PUnit × Config) _ _
    decide +kernel
  exact .cons first (.cons second .nil)

end Layered

/-- Files that are laid over a configuration, in any number, then the variables and then the options
that a command line gives: each setting is as the last of these layers has it that sets it, and
otherwise as before; the externals of the files follow those there were, each at its first place. -/
theorem settings_overlaid {c below above : Config} {steps : List (Disk × Path)} {vars : Variables}
    {arguments : List String} {line : CommandLine} (merged : Merged c steps below)
    (applied : (applyVariables vars).run.run below = (.ok ⟨⟩, above))
    (asked : CommandLine.parse arguments = .ok line) :
    ∃ files, List.Forall₂ (fun step => Layer.ReadFrom step.1 step.2) steps files ∧
      (∃ given, CommandLine.Spelled arguments given ∧ line.Keeps given) ∧ line.layer.Flags ∧
      line.settings above = c.under (files ++ [.ofVariables vars, line.layer]) ∧
      (c.externals.Nodup → (line.settings above).externals =
        (c.externals ++ files.flatMap (·.externals)).eraseDups) := by
  obtain ⟨files, each, rfl⟩ := merged.layers
  obtain ⟨given, spelled, keeps⟩ := CommandLine.spelled_of_parse asked
  have flags : line.layer.Flags := keeps.layer ▸ Layer.flags_ofOptions given
  have result : line.settings above = c.under (files ++ [.ofVariables vars, line.layer]) := by
    rw [CommandLine.settings, Configure.applyVariables_ok applied, foldl_onto, under_concat,
      under_concat, List.append_assoc]
    rfl
  refine ⟨files, each, ⟨given, spelled, keeps⟩, flags, result, fun distinct => ?_⟩
  rw [result, under, List.eraseDups_append, eraseDups_of_nodup distinct]
  simp [Layer.ofVariables, flags.externals]

theorem settings_overlaid_layered : Merged .default_ Layered.steps Layered.below ∧
    (applyVariables Layered.vars).run.run Layered.below = (.ok ⟨⟩, Layered.above) ∧
    CommandLine.parse Layered.arguments = .ok Layered.line ∧
    ∃ files, List.Forall₂ (fun step => Layer.ReadFrom step.1 step.2) Layered.steps files ∧
      (∃ given, CommandLine.Spelled Layered.arguments given ∧ Layered.line.Keeps given) ∧
      Layered.line.layer.Flags ∧ Layered.line.settings Layered.above = Layered.whole ∧
      Layered.line.settings Layered.above =
        under (files ++ [.ofVariables Layered.vars, Layered.line.layer]) .default_ ∧
      (files.flatMap (·.externals)).eraseDups = ["electron", "fs", "vscode"] := by
  have applied : (applyVariables Layered.vars).run.run Layered.below =
      (.ok ⟨⟩, Layered.above) := by
    change @Eq (Except ConfigFault PUnit × Config) _ _
    decide +kernel
  have asked : CommandLine.parse Layered.arguments = .ok Layered.line := by decide +kernel
  have whole : Layered.line.settings Layered.above = Layered.whole := by decide +kernel
  obtain ⟨files, each, given, flags, result, externals⟩ :=
    settings_overlaid Layered.merged applied asked
  exact ⟨Layered.merged, applied, asked, files, each, given, flags, whole, result,
    (externals List.nodup_nil).symm⟩

end Config

end Bundler
