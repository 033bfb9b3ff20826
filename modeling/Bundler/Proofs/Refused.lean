import Bundler.Proofs.Overlay

/-! Configuration steps that fail. A file is laid over a configuration as a whole or not at all.
Variables are applied one after the other, and the first that says nothing ends it: what was set
before stays set, and the rest is as it was. -/

namespace Bundler

/-- A word is a name, in any case of its letters. -/
def Spells (word name : String) : Prop :=
  List.Forall₂ (fun c letter => c = letter ∨ c = letter.toUpper) word.toList name.toList

theorem toNat_toLower (c : Char) :
    c.toLower.toNat = if 65 ≤ c.toNat ∧ c.toNat ≤ 90 then c.toNat + 32 else c.toNat := by
  have ascii : c.val ≥ 'A'.val ∧ c.val ≤ 'Z'.val ↔ 65 ≤ c.toNat ∧ c.toNat ≤ 90 := by
    simp [UInt32.le_iff_toNat_le]
  delta Char.toLower
  split
  · rename_i upper
    have bounds := ascii.mp upper
    rw [if_pos bounds, ← Char.toNat_val, UInt32.toNat_add, Char.toNat_val]
    simp only [Char.reduceVal, UInt32.reduceSub, UInt32.reduceToNat, Nat.reducePow]
    omega
  · rename_i other
    rw [if_neg (mt ascii.mpr other)]

theorem toNat_toUpper (c : Char) :
    c.toUpper.toNat = if 97 ≤ c.toNat ∧ c.toNat ≤ 122 then c.toNat - 32 else c.toNat := by
  have ascii : 'a'.val ≤ c.val ∧ c.val ≤ 'z'.val ↔ 97 ≤ c.toNat ∧ c.toNat ≤ 122 := by
    simp [UInt32.le_iff_toNat_le]
  delta Char.toUpper
  split
  · rename_i lower
    have bounds := ascii.mp lower
    rw [if_pos bounds, ← Char.toNat_val, UInt32.toNat_add, Char.toNat_val]
    simp only [Char.reduceVal, UInt32.reduceSub, UInt32.reduceToNat, Nat.reducePow]
    omega
  · rename_i other
    rw [if_neg (mt ascii.mpr other)]

theorem toLower_eq_iff {c letter : Char} (lower : letter.toLower = letter) :
    c.toLower = letter ↔ c = letter ∨ c = letter.toUpper := by
  rw [← Char.toNat_inj, toNat_toLower] at lower
  rw [← Char.toNat_inj, ← Char.toNat_inj, ← Char.toNat_inj, toNat_toLower, toNat_toUpper]
  split_ifs at lower ⊢ <;> omega

theorem spells_iff {word name : String} (lower : name.toList.map Char.toLower = name.toList) :
    Spells word name ↔ word.map Char.toLower = name := by
  rw [← String.toList_inj, String.toList_map, Spells]
  generalize name.toList = letters at lower
  generalize word.toList = cs
  induction letters generalizing cs with
  | nil => cases cs <;> simp
  | cons letter letters ih =>
    obtain ⟨own, others⟩ := List.cons.inj lower
    cases cs with
    | nil => simp
    | cons c cs =>
      rw [List.forall₂_cons, ih others, ← toLower_eq_iff own, List.map_cons, List.cons.injEq]

theorem find?_named {α : Type} {all : List α} {name : α → String} (complete : ∀ a, a ∈ all)
    (apart : Function.Injective name) {text : String} {a : α} :
    all.find? (fun b => name b == text) = some a ↔ text = name a := by
  have own {b : α} {text : String} (found : all.find? (fun b => name b == text) = some b) :
      name b = text := by simpa using List.find?_some found
  constructor
  · exact fun found => (own found).symm
  · rintro rfl
    have there : (all.find? fun b => name b == name a).isSome :=
      List.find?_isSome.mpr ⟨a, complete a, beq_self_eq_true (name a)⟩
    obtain ⟨b, found⟩ := Option.isSome_iff_exists.mp there
    rw [found, apart (own found)]

theorem Platform.ofName?_eq_some {name : String} {p : Platform} :
    ofName? name = some p ↔ name = p.name :=
  find?_named (fun p => by cases p <;> decide) fun p q same => by
    cases p <;> cases q <;> first | rfl | exact absurd same (by decide)

theorem Instantiation.ofName?_eq_some {name : String} {i : Instantiation} :
    ofName? name = some i ↔ name = i.name :=
  find?_named (fun i => by cases i <;> decide) fun i j same => by
    cases i <;> cases j <;> first | rfl | exact absurd same (by decide)

def Variables.unset (vars : Variables) (names : List String) : Variables := fun name =>
  if name ∈ names then none else vars name

namespace Config.Layer

/-- The value of a key is of the kind that the key is for. -/
inductive Fits : String → Toml → Prop where
  | text {key : String} (known : key ∈ ["root", "env", "extension", "package-dir"])
      (value : String) : Fits key (.string value)
  | switch {key : String} (known : key ∈ ["minify", "process-shim"]) (value : Bool) :
      Fits key (.boolean value)
  | names (values : List String) (isTables : Bool) :
      Fits "externals" (.array (values.map .string) isTables)
  | platform (p : Platform) {value : Toml} (chosen : choice? value = some p.name) :
      Fits "platform" value
  | instantiation (i : Instantiation) {value : Toml} (chosen : choice? value = some i.name) :
      Fits "instantiation" value

theorem string?_eq_some {value : Toml} {s : String} : string? value = some s ↔ value = .string s := by
  cases value <;> simp [string?]

theorem boolean?_eq_some {value : Toml} {b : Bool} :
    boolean? value = some b ↔ value = .boolean b := by
  cases value <;> simp [boolean?]

theorem mapM_string?_eq_some {elements : List Toml} {names : List String} :
    elements.mapM string? = some names ↔ elements = names.map .string := by
  induction elements generalizing names with
  | nil => cases names <;> simp
  | cons first rest ih =>
    rw [List.mapM_cons]
    cases names <;> simp [Option.bind_eq_some_iff, string?_eq_some, ih]

theorem strings?_eq_some {value : Toml} {names : List String} :
    strings? value = some names ↔ ∃ isTables, value = .array (names.map .string) isTables := by
  cases value <;> simp [strings?, mapM_string?_eq_some]

theorem set?_isSome {l : Layer} {key : String} {value : Toml} :
    (l.set? key value).isSome ↔ Fits key value := by
  constructor
  · intro h
    unfold set? at h
    split at h
    case h_10 => cases h
    all_goals
      rw [Option.isSome_map] at h
      obtain ⟨said, read⟩ := Option.isSome_iff_exists.mp h
    case h_1 | h_2 | h_4 | h_5 => exact string?_eq_some.mp read ▸ .text (by decide) said
    case h_3 | h_9 => exact boolean?_eq_some.mp read ▸ .switch (by decide) said
    case h_6 =>
      obtain ⟨isTables, rfl⟩ := strings?_eq_some.mp read
      exact .names said isTables
    case h_7 =>
      obtain ⟨name, chosen, known⟩ := Option.bind_eq_some_iff.mp read
      exact .platform said (Platform.ofName?_eq_some.mp known ▸ chosen)
    case h_8 =>
      obtain ⟨name, chosen, known⟩ := Option.bind_eq_some_iff.mp read
      exact .instantiation said (Instantiation.ofName?_eq_some.mp known ▸ chosen)
  · intro h
    cases h with
    | text known value =>
      simp only [List.mem_cons, List.not_mem_nil, or_false] at known
      rcases known with rfl | rfl | rfl | rfl <;> rfl
    | switch known value =>
      simp only [List.mem_cons, List.not_mem_nil, or_false] at known
      rcases known with rfl | rfl <;> rfl
    | names values isTables =>
      have read : strings? (.array (values.map .string) isTables) = some values :=
        strings?_eq_some.mpr ⟨isTables, rfl⟩
      simp [set?, read]
    | platform p chosen => simp [set?, chosen, Platform.ofName?_eq_some.mpr rfl]
    | instantiation i chosen => simp [set?, chosen, Instantiation.ofName?_eq_some.mpr rfl]

theorem foldlM_set?_isSome {members : List (String × Toml)} {l : Layer} :
    (members.foldlM (fun (l : Layer) (key, value) => l.set? key value) l).isSome ↔
      ∀ m ∈ members, Fits m.1 m.2 := by
  induction members generalizing l with
  | nil => simp
  | cons m rest ih =>
    rw [List.foldlM_cons, List.forall_mem_cons, ← @set?_isSome l]
    dsimp only
    cases l.set? m.1 m.2 with
    | none => simp
    | some next => simpa using ih

theorem ofText?_isSome {text : String} : (ofText? text).isSome ↔
    ∃ members, Toml.parse text = some members ∧ ∀ m ∈ members, Fits m.1 m.2 := by
  unfold ofText?
  cases Toml.parse text with
  | none => simp
  | some members => simpa using foldlM_set?_isSome

end Config.Layer

namespace Configure

open Config (Layer)

/-- The file can be read, and holds settings and nothing else. -/
def Legible (d : Disk) (file : Path) : Prop :=
  ∃ text members, d.readText file = .ok text ∧ Toml.parse text = some members ∧
    ∀ m ∈ members, Layer.Fits m.1 m.2

theorem mergeFile_run (d : Disk) (file : Path) (c : Config) :
    (Legible d file ∧ ∃ l, (mergeFile d file).run.run c = (.ok ⟨⟩, Layer.onto l c)) ∨
      (¬ Legible d file ∧ ∃ e, (mergeFile d file).run.run c = (.error e, c)) := by
  unfold mergeFile Legible
  cases read : d.readText file with
  | error cause => exact .inr ⟨by simp, _, rfl⟩
  | ok text =>
    have legible : (∃ text' members, Except.ok (ε := IoFault) text = .ok text' ∧
        Toml.parse text' = some members ∧ ∀ m ∈ members, Layer.Fits m.1 m.2) ↔
        (Layer.ofText? text).isSome := by
      rw [Layer.ofText?_isSome]
      simp
    rw [legible]
    dsimp only
    cases Layer.ofText? text with
    | none => exact .inr ⟨Bool.false_ne_true, _, rfl⟩
    | some l => exact .inl ⟨rfl, _, rfl⟩

def switchWords : List String := ["1", "true", "yes", "on", "0", "false", "no", "off", ""]

def BadMinify (vars : Variables) : Prop :=
  ∃ word, vars "CJSPACK_MINIFY" = some word ∧ ∀ name ∈ switchWords, ¬ Spells word name

def BadPlatform (vars : Variables) : Prop :=
  ∃ word, vars "CJSPACK_PLATFORM" = some word ∧ ∀ p : Platform, ¬ Spells word p.name

theorem switch?_eq_none {word : String} :
    switch? word = none ↔ ∀ name ∈ switchWords, ¬ Spells word name := by
  have lower : ∀ name ∈ switchWords, name.toList.map Char.toLower = name.toList := by decide
  have spelled : (∀ name ∈ switchWords, ¬ Spells word name) ↔
      word.map Char.toLower ∉ switchWords := by
    refine ⟨fun other mem => other _ mem ?_, fun new name mem same => new ?_⟩
    · exact (spells_iff (lower _ mem)).mpr rfl
    · exact (spells_iff (lower name mem)).mp same ▸ mem
  have words : switchWords = ["1", "true", "yes", "on"] ++ ["0", "false", "no", "off", ""] := rfl
  rw [spelled, words, List.mem_append, not_or, ← List.contains_iff_mem, ← List.contains_iff_mem,
    switch?]
  generalize ["1", "true", "yes", "on"].contains (word.map Char.toLower) = on,
    ["0", "false", "no", "off", ""].contains (word.map Char.toLower) = off
  cases on <;> cases off <;> simp

theorem platform_eq_none {word : String} :
    Platform.ofName? (word.map Char.toLower) = none ↔ ∀ p : Platform, ¬ Spells word p.name := by
  have lower (p : Platform) : p.name.toList.map Char.toLower = p.name.toList := by
    cases p <;> decide
  simp only [spells_iff (lower _), ← Platform.ofName?_eq_some, Option.eq_none_iff_forall_ne_some, ne_eq]

def fromWord {α : Type} (said : Option String) (read : String → Option α)
    (fault : String → ConfigFault) (set : α → Config → Config) : Configure PUnit :=
  match said with
  | none => return
  | some word =>
    match read word with
    | none => throw (fault word)
    | some value => modify (set value)

theorem fromWord_run {α : Type} (said : Option String) (read : String → Option α)
    (fault : String → ConfigFault) (set : α → Config → Config) (c : Config) :
    ((∃ word, said = some word ∧ read word = none) ∧
      ∃ e, (fromWord said read fault set).run.run c = (.error e, c)) ∨
    (¬ (∃ word, said = some word ∧ read word = none) ∧
      (fromWord said read fault set).run.run c = (.ok ⟨⟩, (said.bind read).elim c (set · c))) := by
  cases said with
  | none => exact .inr ⟨by simp, rfl⟩
  | some word =>
    unfold fromWord
    rw [Option.bind_some]
    dsimp only
    cases understood : read word with
    | none => exact .inl ⟨⟨word, rfl, understood⟩, _, rfl⟩
    | some value => exact .inr ⟨by simp [understood], rfl⟩

variable {vars : Variables} {c : Config}

theorem applyMinify_run (vars : Variables) (c : Config) :
    (BadMinify vars ∧ ∃ e, (applyMinify vars).run.run c = (.error e, c)) ∨
    (¬ BadMinify vars ∧ ∃ minify, (applyMinify vars).run.run c = (.ok ⟨⟩, { c with minify := minify })) := by
  have step : applyMinify vars = fromWord (vars "CJSPACK_MINIFY") switch? .badMinify
      fun minify c => { c with minify := minify } := by
    unfold applyMinify fromWord
    cases vars "CJSPACK_MINIFY" with
    | none => rfl
    | some word =>
      dsimp only
      cases switch? word <;> rfl
  have bad : BadMinify vars ↔ ∃ word, vars "CJSPACK_MINIFY" = some word ∧ switch? word = none := by
    simp only [BadMinify, switch?_eq_none]
  rw [bad, step]
  refine (fromWord_run ..).imp id (And.imp id fun ran => ?_)
  rw [ran]
  cases (vars "CJSPACK_MINIFY").bind switch? with
  | none => exact ⟨c.minify, rfl⟩
  | some minify => exact ⟨minify, rfl⟩

theorem applyPlatform_run (vars : Variables) (c : Config) :
    (BadPlatform vars ∧ ∃ e, (applyPlatform vars).run.run c = (.error e, c)) ∨
    (¬ BadPlatform vars ∧ ∃ c', (applyPlatform vars).run.run c = (.ok ⟨⟩, c')) := by
  have step : applyPlatform vars = fromWord (vars "CJSPACK_PLATFORM")
      (fun word => Platform.ofName? (word.map Char.toLower))
      (fun word => .badPlatform (word.map Char.toLower))
      fun platform c => { c with platform := platform } := by
    unfold applyPlatform fromWord
    cases vars "CJSPACK_PLATFORM" with
    | none => rfl
    | some word =>
      dsimp only
      cases Platform.ofName? (word.map Char.toLower) <;> rfl
  have bad : BadPlatform vars ↔ ∃ word, vars "CJSPACK_PLATFORM" = some word ∧
      Platform.ofName? (word.map Char.toLower) = none := by
    simp only [BadPlatform, platform_eq_none]
  rw [bad, step]
  exact (fromWord_run ..).imp id (And.imp id fun ran => ⟨_, ran⟩)

theorem applyEnv_run (vars : Variables) (c : Config) : (applyEnv vars).run.run c =
    (.ok ⟨⟩, { c with env := ((vars "CJSPACK_ENV").or (vars "NODE_ENV")).getD c.env }) := by
  unfold applyEnv
  rw [Option.orElse_eq_orElse, Option.orElse_eq_or]
  cases (vars "CJSPACK_ENV").or (vars "NODE_ENV") <;> rfl

/-- A configuration after variables of which one says nothing. -/
structure Kept (vars : Variables) (c c' : Config) : Prop where
  root : c'.root = c.root
  extension : c'.extension = c.extension
  packageDir : c'.packageDir = c.packageDir
  externals : c'.externals = c.externals
  instantiation : c'.instantiation = c.instantiation
  processShim : c'.processShim = c.processShim
  platform : c'.platform = c.platform
  minify : BadMinify vars → c'.minify = c.minify
  /-- what remains is as a call sets it that succeeds -/
  rest : (BadMinify vars →
      (applyVariables (vars.unset ["CJSPACK_MINIFY", "CJSPACK_PLATFORM"])).run.run c = (.ok ⟨⟩, c')) ∧
    (¬ BadMinify vars →
      (applyVariables (vars.unset ["CJSPACK_PLATFORM"])).run.run c = (.ok ⟨⟩, c'))

def withEnv (vars : Variables) (c : Config) : Config :=
  { c with env := ((vars "CJSPACK_ENV").or (vars "NODE_ENV")).getD c.env }

theorem applyVariables_run (vars : Variables) (c : Config) : (applyVariables vars).run.run c =
    (do applyMinify vars; applyPlatform vars : Configure PUnit).run.run (withEnv vars c) := by
  rw [applyVariables, Build.run_bind, applyEnv_run]
  rfl

theorem applyVariables_badMinify (bad : BadMinify vars) (c : Config) :
    ∃ e c', (applyVariables vars).run.run c = (.error e, c') ∧ Kept vars c c' := by
  obtain ⟨-, e, failed⟩ :=
    (applyMinify_run vars (withEnv vars c)).resolve_right fun good => good.1 bad
  have ran : (applyVariables vars).run.run c = (.error e, withEnv vars c) := by
    rw [applyVariables_run, Build.run_bind, failed]
  refine ⟨e, _, ran, rfl, rfl, rfl, rfl, rfl, rfl, rfl, fun _ => rfl, fun _ => ?_,
    fun good => (good bad).elim⟩
  rw [applyVariables_run]
  rfl

section

variable (good : ¬ BadMinify vars)
include good

theorem applyVariables_badPlatform (bad : BadPlatform vars) (c : Config) :
    ∃ e c', (applyVariables vars).run.run c = (.error e, c') ∧ Kept vars c c' := by
  obtain ⟨-, minify, set⟩ := (applyMinify_run vars (withEnv vars c)).resolve_left fun bad => good bad.1
  obtain ⟨-, e, failed⟩ := (applyPlatform_run vars { withEnv vars c with minify := minify }).resolve_right
    fun good => good.1 bad
  have ran : (applyVariables vars).run.run c =
      (.error e, { withEnv vars c with minify := minify }) := by
    rw [applyVariables_run, Build.run_bind, set]
    exact failed
  refine ⟨e, _, ran, rfl, rfl, rfl, rfl, rfl, rfl, rfl, fun bad => (good bad).elim,
    fun bad => (good bad).elim, fun _ => ?_⟩
  have others : withEnv (vars.unset ["CJSPACK_PLATFORM"]) c = withEnv vars c ∧
      applyMinify (vars.unset ["CJSPACK_PLATFORM"]) = applyMinify vars := ⟨rfl, rfl⟩
  rw [applyVariables_run, Build.run_bind, others.1, others.2, set]
  rfl

theorem applyVariables_good (good' : ¬ BadPlatform vars) (c : Config) :
    ∃ c', (applyVariables vars).run.run c = (.ok ⟨⟩, c') := by
  obtain ⟨-, minify, set⟩ := (applyMinify_run vars (withEnv vars c)).resolve_left fun bad => good bad.1
  obtain ⟨-, c', set'⟩ := (applyPlatform_run vars { withEnv vars c with minify := minify }).resolve_left
    fun bad => good' bad.1
  refine ⟨c', ?_⟩
  rw [applyVariables_run, Build.run_bind, set]
  exact set'

end

/-- When a step fails on a configuration, and what is true of the configuration that it leaves then. -/
structure Fails (step : Configure PUnit) (c : Config) (bad : Prop) (left : Config → Prop) : Prop where
  exactly : bad ↔ ∃ e c', step.run.run c = (.error e, c')
  leaves : ∀ e c', step.run.run c = (.error e, c') → left c'

theorem Fails.of_cases {step : Configure PUnit} {bad : Prop} {left : Config → Prop}
    (good : ¬ bad → ∃ c', step.run.run c = (.ok ⟨⟩, c'))
    (failed : bad → ∃ e c', step.run.run c = (.error e, c') ∧ left c') : Fails step c bad left := by
  by_cases isBad : bad
  · obtain ⟨e, c', ran, kept⟩ := failed isBad
    refine ⟨⟨fun _ => ⟨e, c', ran⟩, fun _ => isBad⟩, fun e' other again => ?_⟩
    cases ran.symm.trans again
    exact kept
  · obtain ⟨c', ran⟩ := good isBad
    refine ⟨⟨fun is => (isBad is).elim, fun ⟨e, other, again⟩ => ?_⟩, fun e other again => ?_⟩
    · cases ran.symm.trans again
    · cases ran.symm.trans again

/-- A file that cannot be read as settings, and no other, leaves a configuration as it was. Variables
fail on a word that says nothing for the first of two of them or else for the other one: what was set
before that stays set as without these two, and nothing else changes. -/
theorem refused_steps_keep (c : Config) :
    (∀ d file, Fails (mergeFile d file) c (¬ Legible d file) (· = c)) ∧
    ∀ vars, Fails (applyVariables vars) c (BadMinify vars ∨ ¬ BadMinify vars ∧ BadPlatform vars)
      (Kept vars c) := by
  refine ⟨fun d file => .of_cases (fun legible => ?_) fun illegible => ?_,
    fun vars => .of_cases (fun good => ?_) fun bad => ?_⟩
  · obtain ⟨-, l, ran⟩ := (mergeFile_run d file c).resolve_right fun failed => legible failed.1
    exact ⟨l.onto c, ran⟩
  · obtain ⟨-, e, ran⟩ := (mergeFile_run d file c).resolve_left fun merged => illegible merged.1
    exact ⟨e, c, ran, rfl⟩
  · obtain ⟨minify, platform⟩ := not_or.mp good
    exact applyVariables_good minify (fun bad => platform ⟨minify, bad⟩) c
  · rcases bad with minify | ⟨minify, platform⟩
    · exact applyVariables_badMinify minify c
    · exact applyVariables_badPlatform minify platform c

/-- The environment and the switch are set before the platform is misspelled. -/
example :
    let vars : Variables
      | "NODE_ENV" => some "production"
      | "CJSPACK_MINIFY" => some "Yes"
      | "CJSPACK_PLATFORM" => some "Deno"
      | _ => none
    (applyVariables vars).run.run .default_ =
      (.error (.badPlatform "deno"), { Config.default_ with env := "production", minify := true }) := by
  change @Eq (Except ConfigFault PUnit × Config) _ _
  decide +kernel

end Configure

end Bundler
