import Bundler.Proofs.Made
import Bundler.Proofs.Resolution

/-! Specifiers that are left to the host. A configured one is refused only if it is a host module
that the platform does not provide. A bundle lists them in the order in which a walk from its entry
meets them, with the requires of a module at the place where it is first required. -/

namespace Bundler

namespace Resolver

/-- None of the places where a bare specifier is looked for holds a file. -/
structure Absent (r : Resolver) (d : Disk) (specifier : String) : Prop where
  noEntry : d.isDirectory (r.packagePath specifier) → ∀ p, ¬ r.Entry d (r.packagePath specifier) p
  noFile : ¬ d.isFile (r.packagePath specifier)
  noExtended : ¬ d.isFile (r.extended (r.packagePath specifier))

/-- The directory that a bare specifier names has a manifest that cannot be understood. -/
def Blocked (r : Resolver) (d : Disk) (specifier : String) : Prop :=
  d.isDirectory (r.packagePath specifier) ∧ d.HasBadManifest (r.packagePath specifier)

variable {r : Resolver} {d : Disk} {specifier : String} {base : Path}

theorem absent_of_nowhere (noDirectory : ¬ d.isDirectory (r.packagePath specifier))
    (noFile : ¬ d.isFile (r.packagePath specifier))
    (noExtended : ¬ d.isFile (r.extended (r.packagePath specifier))) :
    r.Absent d specifier ∧ ¬ r.Blocked d specifier :=
  ⟨⟨fun isDirectory => (noDirectory isDirectory).elim, noFile, noExtended⟩,
    fun blocked => noDirectory blocked.1⟩

section

variable (bare : Specifier.isRelative specifier = false)
include bare

theorem meetsBadManifest_iff {directory : Path} :
    r.MeetsBadManifest d specifier base directory ↔
      directory = r.packagePath specifier ∧ r.Blocked d specifier := by
  rw [MeetsBadManifest, enters_of_bare bare]
  constructor
  · rintro ⟨⟨rfl, isDirectory⟩, bad⟩
    exact ⟨rfl, isDirectory, bad⟩
  · rintro ⟨rfl, isDirectory, bad⟩
    exact ⟨⟨rfl, isDirectory⟩, bad⟩

theorem resolve_of_blocked (blocked : r.Blocked d specifier) :
    r.resolve d specifier base =
      .error (.badManifest (Disk.manifestPath (r.packagePath specifier))) :=
  resolve_badManifest_iff.mpr ⟨_, (meetsBadManifest_iff bare).mpr ⟨rfl, blocked⟩, rfl⟩

theorem resolve_of_listed (listed : specifier ∈ r.externals) (absent : r.Absent d specifier)
    (clear : ¬ r.Blocked d specifier) : r.resolve d specifier base = .ok (.external specifier) := by
  have sound : ∀ directory, ¬ r.MeetsBadManifest d specifier base directory :=
    fun directory meets => clear ((meetsBadManifest_iff bare).mp meets).2
  exact resolve_external_iff.mpr ⟨rfl, ⟨bare, .inr listed⟩, sound,
    (not_finds_of_bare bare sound).mpr ⟨absent.noEntry, absent.noFile, absent.noExtended⟩⟩

end

end Resolver

namespace Browser

def disk : Disk := ⟨.empty, []⟩

def plan : Plan :=
  .ofConfig (.ofString "/") { Config.default_ with
    platform := .browser
    externals := ["electron", "fs"] }

theorem absent_electron :
    plan.resolver.Absent disk "electron" ∧ ¬ plan.resolver.Blocked disk "electron" :=
  Resolver.absent_of_nowhere (by decide +kernel) (by decide +kernel) (by decide +kernel)

theorem absent_fs : plan.resolver.Absent disk "fs" ∧ ¬ plan.resolver.Blocked disk "fs" :=
  Resolver.absent_of_nowhere (by decide +kernel) (by decide +kernel) (by decide +kernel)

end Browser

namespace Build

variable {plan : Plan} {d : Disk} {depth : Nat} {base : Path} {specifier left : String}
  {c : Context}

theorem includeModule_of_error {e : BundleFault}
    (h : plan.resolver.resolve d specifier base = .error e) :
    (includeModule plan d (depth + 1) base specifier : Build _).run.run c = (.error e, c) := by
  rw [includeModule, h]
  rfl

theorem includeModule_of_external
    (h : plan.resolver.resolve d specifier base = .ok (.external left)) :
    (includeModule plan d (depth + 1) base specifier : Build _).run.run c =
      if !plan.platform.providesHostModules && Specifier.isHost left then
        (.error (.unavailable left plan.platform), c)
      else (.ok none, c.leave left) := by
  by_cases refused : (!plan.platform.providesHostModules && Specifier.isHost left) = true
  · rw [if_pos refused, includeModule, h]
    dsimp only
    rw [leaveToHost, if_pos refused]
    rfl
  · rw [if_neg refused, includeModule, h]
    dsimp only
    rw [leaveToHost, if_neg refused]
    rfl

/-- What becomes of a listed specifier that is not relative and that no file answers to. -/
structure HostAnswer (plan : Plan) (d : Disk) (specifier : String) (c : Context)
    (outcome : Except BundleFault (Option ContentId) × Context) : Prop where
  /-- it is left to the host, and stands in the list from then on, where the host may have it -/
  left : ¬ plan.resolver.Blocked d specifier →
    (plan.platform.providesHostModules ∨ ¬ Specifier.IsBuiltIn specifier) →
    outcome = (.ok none, c.leave specifier) ∧ specifier ∈ (c.leave specifier).externals
  /-- a host module that the platform does not provide is refused although it is listed -/
  refused : ¬ plan.resolver.Blocked d specifier →
    ¬ plan.platform.providesHostModules → Specifier.IsBuiltIn specifier →
    outcome = (.error (.unavailable specifier plan.platform), c)
  /-- a manifest in its place that cannot be understood is complained of first -/
  blocked : plan.resolver.Blocked d specifier → outcome =
    (.error (.badManifest (Disk.manifestPath (plan.resolver.packagePath specifier))), c)

theorem includeModule_listed (bare : Specifier.isRelative specifier = false)
    (listed : specifier ∈ plan.resolver.externals) (absent : plan.resolver.Absent d specifier) :
    HostAnswer plan d specifier c
      ((includeModule plan d (depth + 1) base specifier : Build _).run.run c) where
  left clear provided := by
    rw [includeModule_of_external (Resolver.resolve_of_listed bare listed absent clear)]
    rw [← Specifier.isHost_iff] at provided
    refine ⟨if_neg ?_, c.mem_leave_externals specifier⟩
    rcases provided with provided | other
    · simp [provided]
    · simp [other]
  refused clear missing builtIn := by
    rw [includeModule_of_external (Resolver.resolve_of_listed bare listed absent clear)]
    rw [← Specifier.isHost_iff] at builtIn
    refine if_pos ?_
    simp [missing, builtIn]
  blocked blocked := includeModule_of_error (Resolver.resolve_of_blocked bare blocked)

theorem includeModule_listed_electron :
    Specifier.isRelative "electron" = false ∧ "electron" ∈ Browser.plan.resolver.externals ∧
    Browser.plan.resolver.Absent Browser.disk "electron" ∧
    (includeModule Browser.plan Browser.disk 1 (.ofString "/") "electron" : Build _).run.run
      .empty = (.ok none, Context.empty.leave "electron") := by
  have bare : Specifier.isRelative "electron" = false := by decide
  have listed : "electron" ∈ Browser.plan.resolver.externals := by decide
  obtain ⟨absent, clear⟩ := Browser.absent_electron
  have other : ¬ Specifier.IsBuiltIn "electron" := by
    rw [← Specifier.isHost_iff]
    decide +kernel
  refine ⟨bare, listed, absent, ?_⟩
  exact ((includeModule_listed bare listed absent).left clear (.inr other)).1

/-- Where the platform has no modules of the host, a listed one of them ends the build. -/
theorem not_includeModule_listed : ¬ ∀ (plan : Plan) (d : Disk) (depth : Nat) (base : Path)
    (specifier : String) (c : Context), Specifier.isRelative specifier = false →
    specifier ∈ plan.resolver.externals → plan.resolver.Absent d specifier →
    ¬ plan.resolver.Blocked d specifier →
    ∃ c', (includeModule plan d (depth + 1) base specifier : Build _).run.run c = (.ok none, c') ∧
      specifier ∈ c'.externals := by
  intro left
  have bare : Specifier.isRelative "fs" = false := by decide
  have listed : "fs" ∈ Browser.plan.resolver.externals := by decide
  obtain ⟨absent, clear⟩ := Browser.absent_fs
  obtain ⟨c', ran, -⟩ :=
    left Browser.plan Browser.disk 0 (.ofString "/") "fs" .empty bare listed absent clear
  have refused : (!Browser.plan.platform.providesHostModules && Specifier.isHost "fs") = true := by
    decide +kernel
  rw [includeModule_of_external (Resolver.resolve_of_listed bare listed absent clear),
    if_pos refused] at ran
  cases ran

end Build

/-- A walk through the specifiers that are required from a directory, told by the disk alone: the
contents that were come to before it, the specifiers for the host that it meets one after the other,
and the contents that were come to after it. The requires of a module are walked where the module is
come to for the first time. -/
inductive Plan.Meets (plan : Plan) (d : Disk) :
    List ContentId → Path → List String → List String → List ContentId → Prop where
  | done {seen : List ContentId} {base : Path} : Meets plan d seen base [] [] seen
  | host {seen seen' : List ContentId} {base : Path} {specifier : String} {rest met : List String}
      (resolved : plan.resolver.resolve d specifier base = .ok (.external specifier))
      (after : Meets plan d seen base rest met seen') :
      Meets plan d seen base (specifier :: rest) (specifier :: met) seen'
  | again {seen seen' : List ContentId} {base path : Path} {specifier text : String}
      {kind : ModuleKind} {rest met : List String}
      (resolved : plan.resolver.resolve d specifier base = .ok (.file path path.directory kind))
      (read : d.readText path = .ok text)
      (there : .ofText text ∈ seen)
      (after : Meets plan d seen base rest met seen') :
      Meets plan d seen base (specifier :: rest) met seen'
  | first {seen between seen' : List ContentId} {base path : Path} {specifier text : String}
      {kind : ModuleKind} {wrapped : Script.Node} {rest inner met : List String}
      (resolved : plan.resolver.resolve d specifier base = .ok (.file path path.directory kind))
      (read : d.readText path = .ok text)
      (new : .ofText text ∉ seen)
      (parsed : Script.parse true (Wrapper.wrap (.ofText text) text plan.instantiation) =
        .ok wrapped)
      (inside : Meets plan d (.ofText text :: seen) path.directory
        (wrapped.live plan.env).requires inner between)
      (after : Meets plan d between base rest met seen') :
      Meets plan d seen base (specifier :: rest) (inner ++ met) seen'

theorem Plan.Meets.unique {plan : Plan} {d : Disk} {seen seen₁ seen₂ : List ContentId} {base : Path}
    {specifiers met₁ met₂ : List String} (h₁ : plan.Meets d seen base specifiers met₁ seen₁)
    (h₂ : plan.Meets d seen base specifiers met₂ seen₂) : met₁ = met₂ ∧ seen₁ = seen₂ := by
  induction h₁ generalizing met₂ seen₂ with
  | done =>
    cases h₂
    exact ⟨rfl, rfl⟩
  | host resolved _ later =>
    cases h₂ with
    | host _ after =>
      obtain ⟨same, ends⟩ := later after
      exact ⟨congrArg _ same, ends⟩
    | again resolved' => cases resolved.symm.trans resolved'
    | first resolved' => cases resolved.symm.trans resolved'
  | again resolved read there _ later =>
    cases h₂ with
    | host resolved' => cases resolved.symm.trans resolved'
    | again _ _ _ after => exact later after
    | first resolved' read' new =>
      -- the same text cannot be both seen before and new
      cases resolved.symm.trans resolved'
      cases read.symm.trans read'
      exact (new there).elim
  | first resolved read new parsed _ _ deeper later =>
    cases h₂ with
    | host resolved' => cases resolved.symm.trans resolved'
    | again resolved' read' there =>
      cases resolved.symm.trans resolved'
      cases read.symm.trans read'
      exact (new there).elim
    | first resolved' read' _ parsed' inside after =>
      cases resolved.symm.trans resolved'
      cases read.symm.trans read'
      cases parsed.symm.trans parsed'
      obtain ⟨rfl, rfl⟩ := deeper inside
      obtain ⟨rfl, rfl⟩ := later after
      exact ⟨rfl, rfl⟩

namespace Context

theorem leave_externals_of_met {c : Context} {met : List String} (specifier : String)
    (h : c.externals = met.eraseDups) :
    (c.leave specifier).externals = (met ++ [specifier]).eraseDups := by
  have there : c.externals.contains specifier ↔ specifier ∈ met := by
    rw [List.contains_iff_mem, h, List.mem_eraseDups]
  rw [eraseDups_concat, leave]
  split
  · rename_i listed
    rw [if_pos (there.mp listed), h]
  · rename_i new
    rw [if_neg fun mem => new (there.mpr mem), ← h]

theorem mem_leave_iff {c : Context} {specifier other : String} :
    other ∈ (c.leave specifier).externals ↔ other ∈ c.externals ∨ other = specifier := by
  unfold leave
  split
  · rename_i there
    exact ⟨.inl, fun k => k.elim id fun same => same ▸ List.contains_iff_mem.mp there⟩
  · rw [List.mem_append, List.mem_singleton]

theorem knows_enter_iff {c : Context} {id other : ContentId} :
    (c.enter id).knows other ↔ other = id ∨ c.knows other := by
  rw [knows_iff, knows_iff, enter, List.mem_cons]
  exact or_left_comm

theorem knows_complete_iff {c : Context} {id other : ContentId} {p : Path} {program : Script.Node}
    (walking : id ∈ c.inProgress) : (c.complete id p program).knows other ↔ c.knows other := by
  rw [knows_iff, knows_iff, complete, Graph.contains_insert, List.mem_filter, bne_iff_ne]
  by_cases same : other = id
  · simp [same, walking]
  · simp [same]

def passThrough (specifier : String) : String :=
  "Leaving built-in '" ++ specifier ++ "' to the host runtime"

theorem warned : Kept fun c => c.warnings = c.externals.map passThrough where
  read holds _ := holds
  leave specifier holds := by
    unfold leave
    split
    · exact holds
    · rw [holds, List.map_append]
      rfl
  record holds _ := by
    unfold record
    split <;> exact holds
  enter holds _ := holds
  complete _ _ _ holds _ _ := holds

end Context

def Plan.Hosts (plan : Plan) (d : Disk) (base : Path) (specifiers : List String) (left : String) :
    Prop := left ∈ specifiers ∧ plan.resolver.resolve d left base = .ok (.external left)

theorem Plan.left_of_settles {plan : Plan} {d : Disk} {externals : List String} {base : Path}
    {left : String} (settles : plan.Settles d externals base left)
    (hosted : plan.resolver.resolve d left base = .ok (.external left)) : left ∈ externals := by
  rcases settles with ⟨_, _, _, same, -⟩ | ⟨-, mem⟩
  · cases hosted.symm.trans same
  · exact mem

section

variable {plan : Plan} {d : Disk} {base : Path} {specifiers : List String} {c c' : Context}
  {answers : List (Option ContentId)}

theorem Walk.meets (h : Walk plan d base specifiers c answers c') (sound : c.Sound plan d)
    {seen : List ContentId} (tracks : ∀ id, id ∈ seen ↔ c.knows id) :
    ∃ met seen', plan.Meets d seen base specifiers met seen' ∧ (∀ id, id ∈ seen' ↔ c'.knows id) ∧
      ∀ before : List String, c.externals = before.eraseDups →
        c'.externals = (before ++ met).eraseDups := by
  induction h generalizing seen with
  | done =>
    exact ⟨[], seen, .done, tracks, fun before listed => by rw [List.append_nil]; exact listed⟩
  | host resolved _ _ later =>
    obtain rfl := Resolver.left_of_resolve resolved
    obtain ⟨met, seen', meets, knows, listed⟩ :=
      later (sound.leave _) fun id => (tracks id).trans (by simp [Context.knows])
    refine ⟨_ :: met, seen', .host resolved meets, knows, fun before earlier => ?_⟩
    rw [listed _ (Context.leave_externals_of_met _ earlier), List.append_assoc,
      List.singleton_append]
  | known resolved read named known _ later =>
    obtain ⟨rfl, holds, current⟩ := sound.found resolved read
    obtain ⟨met, seen', meets, knows, listed⟩ :=
      later (current.record known) fun id => (tracks id).trans (by simp [Context.knows])
    refine ⟨met, seen', .again resolved holds ((tracks _).mpr (named ▸ known)) meets, knows,
      fun before earlier => listed before ?_⟩
    rw [Context.record_externals]
    exact earlier
  | new resolved read named new isScript parsed inside after deeper later =>
    -- a module counts as seen from where it is entered, so its own requires come first
    subst named
    obtain ⟨rfl, holds, opened, walked, completed⟩ :=
      sound.walked resolved read rfl new isScript parsed inside
    obtain ⟨inner, between, meetsInside, knowsInside, listedInside⟩ := deeper opened fun id => by
      rw [List.mem_cons, Context.knows_enter_iff, tracks id]
      rfl
    obtain ⟨met, seen', meets, knows, listed⟩ :=
      later (completed.record (Context.knows_complete ..)) fun id => by
        rw [Context.knows_record, knowsInside id,
          Context.knows_complete_iff (inside.inProgress ▸ List.mem_cons_self)]
    refine ⟨inner ++ met, seen', .first resolved holds (fun mem => new ((tracks _).mp mem)) parsed
      meetsInside meets, knows, fun before earlier => ?_⟩
    rw [← List.append_assoc]
    refine listed _ ?_
    rw [Context.record_externals]
    exact listedInside before earlier

/-- What a walk leaves to the host was left to it before, or is one of its specifiers, or is
required by a module that stands in the graph. -/
theorem Walk.left_from (h : Walk plan d base specifiers c answers c') (sound : c.Sound plan d)
    {left : String} (mem : left ∈ c'.externals) :
    left ∈ c.externals ∨ plan.Hosts d base specifiers left ∨
      ∃ m ∈ c'.graph.modules, ∃ live ∈ plan.moduleProgram? d m,
        plan.Hosts d m.path.directory live.requires left := by
  induction h with
  | done => exact .inl mem
  | host resolved _ _ later =>
    obtain rfl := Resolver.left_of_resolve resolved
    rcases later (sound.leave _) mem with early | ⟨here, hosted⟩ | inside
    · rcases Context.mem_leave_iff.mp early with old | rfl
      · exact .inl old
      · exact .inr (.inl ⟨List.mem_cons_self, resolved⟩)
    · exact .inr (.inl ⟨List.mem_cons_of_mem _ here, hosted⟩)
    · exact .inr (.inr inside)
  | known resolved read _ known _ later =>
    obtain ⟨-, -, current⟩ := sound.found resolved read
    rcases later (current.record known) mem with early | ⟨here, hosted⟩ | inside
    · rw [Context.record_externals] at early
      exact .inl early
    · exact .inr (.inl ⟨List.mem_cons_of_mem _ here, hosted⟩)
    · exact .inr (.inr inside)
  | new resolved read named new isScript parsed inside after deeper later =>
    obtain ⟨rfl, holds, opened, walked, completed⟩ :=
      sound.walked resolved read named new isScript parsed inside
    have own := after.completed_mem walked inside.inProgress
    rcases later (completed.record (Context.knows_complete ..)) mem
      with early | ⟨here, hosted⟩ | other
    · rw [Context.record_externals] at early
      rcases deeper opened early with old | hosted | ⟨m, there, live, program, hosted⟩
      · exact .inl old
      · subst named
        exact .inr (.inr ⟨_, own, _, Plan.moduleProgram?_eq holds parsed, hosted⟩)
      · exact .inr (.inr ⟨m, after.completed_subset there, live, program, hosted⟩)
    · exact .inr (.inl ⟨List.mem_cons_of_mem _ here, hosted⟩)
    · exact .inr (.inr other)

end

/-- What is told of the specifiers that a build leaves to the host. -/
structure PassedOn (plan : Plan) (d : Disk) (path : Path) (graph : Graph)
    (externals warnings : List String) : Prop where
  /-- they are the live requires of the entry and of the modules that the host answers -/
  mem : ∀ left, left ∈ externals ↔
    (∃ live ∈ plan.entryProgram? d path, plan.Hosts d path.directory live.requires left) ∨
    ∃ m ∈ graph.modules, ∃ live ∈ plan.moduleProgram? d m,
      plan.Hosts d m.path.directory live.requires left
  /-- none is there twice -/
  nodup : externals.Nodup
  /-- they stand where the walk from the entry meets them first; there is one such walk -/
  order : ∃ live ∈ plan.entryProgram? d path, ∃ met seen,
    plan.Meets d [] path.directory live.requires met seen ∧ externals = met.eraseDups ∧
    ∀ met' seen', plan.Meets d [] path.directory live.requires met' seen' → met' = met
  /-- one line is told of each, in the same order -/
  warned : warnings = externals.map Context.passThrough

theorem nodup_eraseDups (l : List String) : l.eraseDups.Nodup := by
  induction l using List.reverseRecOn with
  | nil => exact List.nodup_nil
  | append_singleton l s ih =>
    rw [eraseDups_concat]
    split
    · exact ih
    · rename_i new
      refine List.nodup_append.mpr ⟨ih, List.pairwise_singleton _ _, ?_⟩
      rintro a old b last rfl
      exact new (List.mem_eraseDups.mp (List.mem_singleton.mp last ▸ old))

theorem Build.passedOn_of_entry {plan : Plan} {d : Disk} {path : Path} {script : EntryScript}
    {c : Context} (h : (Build.entry plan d path).run.run .empty = (.ok script, c)) :
    PassedOn plan d path c.graph c.externals c.warnings := by
  obtain ⟨cache, live, answers, hashbang, source, start, walk, rfl⟩ := walk_of_entry h
  obtain ⟨sound, -, settled⟩ := walk.sound start
  obtain ⟨met, seen, meets, -, listed⟩ := @Walk.meets _ _ _ _ _ _ _ walk start [] fun id => by
    simp [Context.knows, Context.empty, Graph.empty, Graph.contains]
  have order : c.externals = met.eraseDups := listed [] rfl
  refine ⟨fun left => ⟨fun mem => ?_, ?_⟩, order ▸ nodup_eraseDups met,
    ⟨_, source, met, seen, meets, order, fun met' seen' other => (other.unique meets).1⟩,
    (Context.warned.walk walk rfl).1⟩
  · rcases walk.left_from start mem with old | hosted | inside
    · cases old
    · exact .inl ⟨_, source, hosted⟩
    · exact .inr inside
  · rintro (⟨live, program, here, hosted⟩ | ⟨m, there, live, program, here, hosted⟩)
    · cases source.symm.trans program
      exact Plan.left_of_settles (settled left here) hosted
    · obtain ⟨live', program', linked⟩ := (sound.modules m there).linked
      cases program.symm.trans program'
      exact Plan.left_of_settles (linked.settled left here) hosted

namespace Bundle

theorem Made.warnings_eq {d : Disk} {c : Config} {entry path root : Path} {bundle : Bundle}
    {warnings : List String} {script : EntryScript} {context : Context} {shorten : Emit.Minifier}
    (made : Made shorten d c entry bundle path root script context)
    (h : make d c entry shorten = (.ok bundle, warnings)) : warnings = context.warnings := by
  have ran := congrArg Prod.snd h
  simp only [make, made.start, made.below, made.built, bind, Except.bind, pure, Except.pure] at ran
  exact ran.symm

namespace Trail

/-- A module asks for the host before its importer does, and for one specifier that both name. -/
def disk : Disk where
  tree := ⟨[(["main.js".toList], .file (.text "require('./a');require('http');require('fs')")),
    (["a.js".toList], .file (.text "require('fs');require('path')"))]⟩
  cwd := []

def entry : Path := .ofString "/main.js"

def hasThree : Except BundleFault Bundle × List String → Bool
  | (.ok bundle, _) => bundle.externals == ["fs", "path", "http"]
  | (.error _, _) => false

theorem three_of_hasThree {outcome : Except BundleFault Bundle × List String}
    (h : hasThree outcome = true) : ∃ bundle warnings, outcome = (.ok bundle, warnings) ∧
      bundle.externals = ["fs", "path", "http"] := by
  obtain ⟨_ | bundle, warnings⟩ := outcome
  · cases h
  · exact ⟨bundle, warnings, rfl, beq_iff_eq.mp h⟩

set_option maxRecDepth 100000 in
theorem hasThree_make : hasThree (make disk .default_ entry) = true := by
  decide +kernel

end Trail

/-- The specifiers that a bundle leaves to the host are those of its live requires that the host
answers, without repeats, in the order in which they are met; and the run warns of each once. -/
theorem externals_in_order {d : Disk} {c : Config} {entry : Path} {bundle : Bundle}
    {warnings : List String} {shorten : Emit.Minifier}
    (h : make d c entry shorten = (.ok bundle, warnings)) :
    ∃ path root script context, Made shorten d c entry bundle path root script context ∧
      PassedOn (.ofConfig root c) d path context.graph bundle.externals warnings := by
  obtain ⟨path, root, script, context, made⟩ := made_of_make h
  refine ⟨path, root, script, context, made, ?_⟩
  rw [made.externals, made.warnings_eq h]
  exact Build.passedOn_of_entry made.built

theorem externals_in_order_trail : ∃ bundle warnings,
    make Trail.disk .default_ Trail.entry = (.ok bundle, warnings) ∧
    bundle.externals = ["fs", "path", "http"] ∧
    warnings = ["fs", "path", "http"].map Context.passThrough ∧
    ∃ path root script context,
      Made Script.Node.print Trail.disk .default_ Trail.entry bundle path root script context ∧
      PassedOn (.ofConfig root .default_) Trail.disk path context.graph bundle.externals
        warnings := by
  obtain ⟨bundle, warnings, ran, externals⟩ := Trail.three_of_hasThree Trail.hasThree_make
  obtain ⟨path, root, script, context, made, passed⟩ := externals_in_order ran
  exact ⟨bundle, warnings, ran, externals, externals ▸ passed.warned, path, root, script, context,
    made, passed⟩

end Bundle

end Bundler
