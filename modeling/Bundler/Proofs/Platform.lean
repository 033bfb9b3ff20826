import Bundler.Proofs.Congruence
import Bundler.Proofs.Halt
import Bundler.Proofs.Made

/-! What the platform has a say in. A build for the browser goes step by step as the one for node does,
up to the first module of the host that is asked for and that no package stands in for. There it is
refused, so the platform decides whether there is a bundle, and never what is in it. -/

namespace Bundler

namespace Context

variable {c : Context} {specifier : String}

theorem leave_externals_of_new (new : specifier ∉ c.externals) :
    (c.leave specifier).externals = c.externals ++ [specifier] := by
  unfold leave
  rw [if_neg fun there => new (List.contains_iff_mem.mp there)]

theorem mem_of_mem_leave_externals {other : String}
    (mem : other ∈ (c.leave specifier).externals) : other ∈ c.externals ∨ other = specifier := by
  unfold leave at mem
  split at mem
  · exact .inl mem
  · exact (List.mem_append.mp mem).imp_right List.mem_singleton.mp

end Context

namespace Build

variable {α β : Type}

/-- From a context without modules of the host among its externals, the first computation does what the
second does as long as it leaves no such module to the host either, and is refused the first of them
otherwise. -/
structure Forbids (x y : Build α) : Prop where
  keeps : ∀ c, c.externals <+: (y.run.run c).2.externals
  same_or_refused : ∀ c, c.externals.find? Specifier.isHost = none →
    (x.run.run c = y.run.run c ∧ (y.run.run c).2.externals.find? Specifier.isHost = none) ∨
    ∃ specifier, (x.run.run c).1 = .error (.unavailable specifier .browser) ∧
      (y.run.run c).2.externals.find? Specifier.isHost = some specifier

namespace Forbids

theorem steady {x : Build α} (same : ∀ c, (x.run.run c).2.externals = c.externals) :
    Forbids x x where
  keeps c := (same c).symm ▸ List.prefix_rfl
  same_or_refused c clean := .inl ⟨rfl, (same c).symm ▸ clean⟩

theorem bind {x y : Build α} {f g : α → Build β} (first : Forbids x y)
    (rest : ∀ a, Forbids (f a) (g a)) : Forbids (x >>= f) (y >>= g) where
  keeps c := by
    have early := first.keeps c
    rw [run_bind]
    rcases ran : y.run.run c with ⟨e | a, between⟩
    · rw [ran] at early
      exact early
    · rw [ran] at early
      exact early.trans ((rest a).keeps between)
  same_or_refused c clean := by
    rw [run_bind, run_bind]
    rcases first.same_or_refused c clean with ⟨same, still⟩ | ⟨specifier, refused, found⟩
    · rw [same]
      rcases ran : y.run.run c with ⟨e | a, between⟩
      · rw [ran] at still
        exact .inl ⟨rfl, still⟩
      · rw [ran] at still
        exact (rest a).same_or_refused between still
    · refine .inr ⟨specifier, ?_, ?_⟩
      · rcases ran : x.run.run c with ⟨e | a, between⟩
        · rw [ran] at refused
          cases refused
          rfl
        · rw [ran] at refused
          cases refused
      · -- what is left to the host later comes after it
        rcases ran : y.run.run c with ⟨e | a, between⟩
        · rw [ran] at found
          exact found
        · rw [ran] at found
          exact ((rest a).keeps between).find?_eq_some found

theorem readText (d : Disk) (p : Path) : Forbids (Build.readText d p) (Build.readText d p) := by
  refine steady fun c => ?_
  rcases ran : (Build.readText d p : Build String).run.run c with ⟨e | text, c'⟩
  · rw [(readText_error ran).2]
  · obtain ⟨cache, -, rfl⟩ := readText_ok ran
    rfl

theorem leaveToHost (plan : Plan) (specifier : String) :
    Forbids (Build.leaveToHost { plan with platform := .browser } specifier)
      (Build.leaveToHost { plan with platform := .node } specifier) where
  keeps c := c.prefix_leave_externals specifier
  same_or_refused c clean := by
    have provided : (Build.leaveToHost { plan with platform := .node } specifier : Build _).run.run
        c = (.ok ⟨⟩, c.leave specifier) := rfl
    rw [provided]
    have noHost := List.find?_eq_none.mp clean
    cases isHost : Specifier.isHost specifier with
    | false =>
      refine .inl ⟨?_, List.find?_eq_none.mpr fun other mem => ?_⟩
      · simp only [Build.leaveToHost, isHost, Bool.and_false]
        rfl
      · rcases Context.mem_of_mem_leave_externals mem with there | rfl
        · exact noHost other there
        · simp [isHost]
    | true =>
      -- no module of the host was left before, so this one is the first
      refine .inr ⟨specifier, ?_, ?_⟩
      · simp only [Build.leaveToHost, isHost, Bool.and_true]
        rfl
      · have new : specifier ∉ c.externals := fun there => noHost specifier there isHost
        rw [Context.leave_externals_of_new new, List.find?_append, clean, Option.none_or]
        exact List.find?_cons_of_pos isHost

theorem congruence (plan : Plan) : Congruence plan .browser .node fun _ => Forbids where
  pure _ := steady fun _ => rfl
  bind := bind
  malformed _ := steady fun _ => rfl
  record id := steady (·.record_externals id)
  throw _ := steady fun _ => rfl
  getContext := steady fun _ => rfl
  readText := readText
  leaveToHost := leaveToHost plan
  enter _ := steady fun _ => rfl
  complete _ _ _ := steady fun _ => rfl

theorem entry (plan : Plan) (d : Disk) (path : Path) :
    Forbids (Build.entry { plan with platform := .browser } d path)
      (Build.entry { plan with platform := .node } d path) :=
  (congruence plan).buildEntry d path

end Forbids

end Build

namespace Bundle

def finish (shorten : Emit.Minifier) (c : Config)
    (ran : Except BundleFault EntryScript × Context) :
    Except BundleFault Bundle × List String :=
  (do
    let script ← ran.1
    let code ← Emit.emit script ran.2.graph ran.2.bound
      ⟨c.minify, if c.processShim then some c.env else none⟩ shorten
    return ⟨code, ran.2.graph.modules.map (·.path), ran.2.externals⟩, ran.2.warnings)

variable {shorten : Emit.Minifier} {d : Disk} {c : Config} {entry : Path}

theorem make_cases (shorten : Emit.Minifier) (d : Disk) (c : Config) (entry : Path) :
    (∃ e, ∀ p, make d { c with platform := p } entry shorten = (.error e, [])) ∨
    ∃ path root, ∀ p, make d { c with platform := p } entry shorten =
      finish shorten c
        ((Build.entry { Plan.ofConfig root c with platform := p } d path).run.run .empty) := by
  cases start : absolute d.cwd entry with
  | error e =>
    refine .inl ⟨e, fun p => ?_⟩
    simp only [make, start, bind, Except.bind]
  | ok path =>
    cases below : rootOf d.cwd c path with
    | error e =>
      refine .inl ⟨e, fun p => ?_⟩
      have below : rootOf d.cwd { c with platform := p } path = .error e := below
      simp only [make, start, below, bind, Except.bind]
    | ok root =>
      refine .inr ⟨path, root, fun p => ?_⟩
      have below : rootOf d.cwd { c with platform := p } path = .ok root := below
      simp only [make, start, below, bind, Except.bind, pure, Except.pure, finish]
      rfl

theorem finish_error {ran : Except BundleFault EntryScript × Context} {e : BundleFault}
    (h : ran.1 = .error e) : (finish shorten c ran).1 = .error e := by
  rw [finish, h]
  rfl

theorem finish_externals {ran : Except BundleFault EntryScript × Context} {bundle : Bundle}
    (h : (finish shorten c ran).1 = .ok bundle) : bundle.externals = ran.2.externals := by
  obtain ⟨built, context⟩ := ran
  cases built with
  | error e => cases h
  | ok script =>
    simp only [finish, bind, Except.bind, pure, Except.pure] at h
    split at h
    · cases h
    · cases h
      rfl

/-- Both runs end alike if the one for node leaves no module of the host to it; otherwise the one for
the browser is refused the first of them. -/
theorem same_or_refused (shorten : Emit.Minifier) (d : Disk) (c : Config) (entry : Path) :
    (make d { c with platform := .browser } entry shorten =
      make d { c with platform := .node } entry shorten ∧
      ∀ bundle, (make d { c with platform := .node } entry shorten).1 = .ok bundle →
        bundle.externals.find? Specifier.isHost = none) ∨
    ∃ specifier,
      (make d { c with platform := .browser } entry shorten).1 =
        .error (.unavailable specifier .browser) ∧
      ∀ bundle, (make d { c with platform := .node } entry shorten).1 = .ok bundle →
        bundle.externals.find? Specifier.isHost = some specifier := by
  rcases make_cases shorten d c entry with ⟨e, failed⟩ | ⟨path, root, ran⟩
  · rw [failed, failed]
    exact .inl ⟨rfl, fun bundle made => nomatch made⟩
  · rw [ran, ran]
    rcases (Build.Forbids.entry (.ofConfig root c) d path).same_or_refused .empty rfl with
      ⟨same, clean⟩ | ⟨specifier, refused, found⟩
    · rw [same]
      exact .inl ⟨rfl, fun bundle made => finish_externals made ▸ clean⟩
    · exact .inr ⟨specifier, finish_error refused, fun bundle made => finish_externals made ▸ found⟩

/-- The platform only forbids. A run for the browser makes a bundle exactly when the one for node makes
it without leaving a module of the host to it; and then it is the same bundle, with the same warnings.
When the run for node leaves modules of the host to it, the one for the browser is refused the first of
them. Where the run for node fails, the other one fails alike or is refused such a module before. -/
theorem platform_only_forbids (shorten : Emit.Minifier) (d : Disk) (c : Config) (entry : Path) :
    (∀ bundle, (make d { c with platform := .browser } entry shorten).1 = .ok bundle ↔
      (make d { c with platform := .node } entry shorten).1 = .ok bundle ∧
        ∀ specifier ∈ bundle.externals, ¬ Specifier.isHost specifier) ∧
    (∀ bundle specifier, (make d { c with platform := .node } entry shorten).1 = .ok bundle →
      bundle.externals.find? Specifier.isHost = some specifier →
      (make d { c with platform := .browser } entry shorten).1 =
        .error (.unavailable specifier .browser)) ∧
    (make d { c with platform := .browser } entry shorten =
        make d { c with platform := .node } entry shorten ∨
      ∃ specifier, (make d { c with platform := .browser } entry shorten).1 =
        .error (.unavailable specifier .browser)) := by
  rcases same_or_refused shorten d c entry with ⟨same, noHost⟩ | ⟨specifier, refused, found⟩
  · rw [same]
    refine ⟨fun bundle => ⟨fun made => ⟨made, ?_⟩, And.left⟩, fun bundle specifier made host => ?_,
      .inl rfl⟩
    · exact List.find?_eq_none.mp (noHost bundle made)
    · cases (noHost bundle made).symm.trans host
  · rw [refused]
    refine ⟨fun bundle => ⟨fun made => ?_, fun ⟨made, noHost⟩ => ?_⟩,
      fun bundle other made host => ?_, .inr ⟨specifier, rfl⟩⟩
    · cases made
    · cases (found bundle made).symm.trans (List.find?_eq_none.mpr noHost)
    · cases (found bundle made).symm.trans host
      rfl

namespace Hosted

def disk : Disk where
  tree := ⟨[(["main.js".toList], .file (.text "require('lib'); require('fs'); require('path');"))]⟩
  cwd := []

def config : Config := { Config.default_ with externals := ["lib"] }

def main : Path := .ofString "/main.js"

def externalsOf : Except BundleFault Bundle → List String
  | .ok bundle => bundle.externals
  | .error _ => []

set_option maxRecDepth 100000 in
theorem externalsOf_make : externalsOf (make disk { config with platform := .node } main).1 =
    ["lib", "fs", "path"] := by
  decide +kernel

theorem made : ∃ bundle, (make disk { config with platform := .node } main).1 = .ok bundle ∧
    bundle.externals = ["lib", "fs", "path"] := by
  have left := externalsOf_make
  rcases ran : (make disk { config with platform := .node } main).1 with e | bundle
  · rw [ran] at left
    cases left
  · rw [ran] at left
    exact ⟨bundle, rfl, left⟩

end Hosted

/-- For the browser the first module of the host is refused, past one that is only listed. -/
theorem platform_only_forbids_refused : ∃ bundle,
    (make Hosted.disk { Hosted.config with platform := .node } Hosted.main).1 = .ok bundle ∧
    bundle.externals = ["lib", "fs", "path"] ∧
    (make Hosted.disk { Hosted.config with platform := .browser } Hosted.main).1 =
      .error (.unavailable "fs" .browser) := by
  obtain ⟨bundle, made, externals⟩ := Hosted.made
  have first : bundle.externals.find? Specifier.isHost = some "fs" := by
    rw [externals]
    decide +kernel
  exact ⟨bundle, made, externals, (platform_only_forbids Script.Node.print Hosted.disk Hosted.config
    Hosted.main).2.1 bundle "fs" made first⟩

end Bundle

end Bundler
