import Bundler.Proofs.Nesting
import Bundler.Proofs.Rewriting
import Bundler.Proofs.Walk

/-! The walks that fail, as derivations. A derivation shows which require could not be answered and
why. What was walked before it has succeeded, so what holds after every walk that succeeds holds also
of what a failed build leaves. -/

namespace Bundler

/-- A walk through the specifiers that are required from a directory, with the fault that it ends
with and the context in which it is given up. -/
inductive Halt (plan : Plan) (d : Disk) :
    Path → List String → Context → BundleFault → Context → Prop where
  | later {base : Path} {specifier : String} {rest : List String} {c between c' : Context}
      {answers : List (Option ContentId)} {e : BundleFault}
      (first : Walk plan d base [specifier] c answers between)
      (after : Halt plan d base rest between e c') :
      Halt plan d base (specifier :: rest) c e c'
  | unresolved {base : Path} {specifier : String} {rest : List String} {c : Context}
      {e : BundleFault} (failed : plan.resolver.resolve d specifier base = .error e) :
      Halt plan d base (specifier :: rest) c e c
  | unavailable {base : Path} {specifier left : String} {rest : List String} {c : Context}
      (resolved : plan.resolver.resolve d specifier base = .ok (.external left))
      (missing : (!plan.platform.providesHostModules && Specifier.isHost left) = true) :
      Halt plan d base (specifier :: rest) c (.unavailable left plan.platform) c
  | unread {base path nextBase : Path} {specifier : String} {kind : ModuleKind}
      {rest : List String} {c : Context} {e : BundleFault}
      (resolved : plan.resolver.resolve d specifier base = .ok (.file path nextBase kind))
      (failed : c.cache.read d path = .error e) :
      Halt plan d base (specifier :: rest) c e c
  | malformed {base path nextBase : Path} {specifier text : String} {kind : ModuleKind}
      {rest : List String} {c : Context} {cache : Cache}
      (resolved : plan.resolver.resolve d specifier base = .ok (.file path nextBase kind))
      (read : c.cache.read d path = .ok (text, cache))
      (new : ¬ { c with cache := cache }.knows (.ofText text))
      (noScript : (Script.parse true text).toOption = none) :
      Halt plan d base (specifier :: rest) c (.malformed path) { c with cache := cache }
  | unwrapped {base path nextBase : Path} {specifier text : String} {kind : ModuleKind}
      {rest : List String} {c : Context} {cache : Cache}
      (resolved : plan.resolver.resolve d specifier base = .ok (.file path nextBase kind))
      (read : c.cache.read d path = .ok (text, cache))
      (new : ¬ { c with cache := cache }.knows (.ofText text))
      (noScript : (Script.parse true
        (Wrapper.wrap (.ofText text) text plan.instantiation)).toOption = none) :
      Halt plan d base (specifier :: rest) c (.malformed path)
        ({ c with cache := cache }.enter (.ofText text))
  | inside {base path nextBase : Path} {specifier text : String} {kind : ModuleKind}
      {rest : List String} {c c' : Context} {cache : Cache} {wrapped : Script.Node}
      {e : BundleFault}
      (resolved : plan.resolver.resolve d specifier base = .ok (.file path nextBase kind))
      (read : c.cache.read d path = .ok (text, cache))
      (new : ¬ { c with cache := cache }.knows (.ofText text))
      (parsed : Script.parse true
        (Wrapper.wrap (.ofText text) text plan.instantiation) = .ok wrapped)
      (inside : Halt plan d nextBase (wrapped.live plan.env).requires
        ({ c with cache := cache }.enter (.ofText text)) e c') :
      Halt plan d base (specifier :: rest) c e c'

namespace Build

variable {plan : Plan} {d : Disk} {c c' : Context} {e : BundleFault}

theorem readText_error {p : Path}
    (h : (readText d p : Build _).run.run c = (.error e, c')) :
    c.cache.read d p = .error e ∧ c' = c := by
  rcases run_bind_error h with looked | ⟨_, _, looked, h⟩
  · cases looked
  cases looked
  cases read : c.cache.read d p with
  | error e =>
    rw [read] at h
    cases h
    exact ⟨rfl, rfl⟩
  | ok found =>
    rw [read] at h
    cases h

theorem parseScript_error {p : Path} {text : String}
    (h : (parseScript p text : Build _).run.run c = (.error e, c')) :
    (Script.parse true text).toOption = none ∧ e = .malformed p ∧ c' = c := by
  unfold parseScript at h
  cases parsed : Script.parse true text with
  | error _ =>
    rw [parsed] at h
    cases h
    exact ⟨rfl, rfl, rfl⟩
  | ok program =>
    rw [parsed] at h
    cases h

theorem leaveToHost_error {specifier : String}
    (h : (leaveToHost plan specifier : Build _).run.run c = (.error e, c')) :
    (!plan.platform.providesHostModules && Specifier.isHost specifier) = true ∧
      e = .unavailable specifier plan.platform ∧ c' = c := by
  unfold leaveToHost at h
  split at h
  · rename_i missing
    rcases run_bind_error h with refused | ⟨_, _, refused, -⟩
    · cases refused
      exact ⟨missing, rfl, rfl⟩
    · cases refused
  · cases h

theorem bindProgram_error {ask : String → Build (Option ContentId)} {program : Script.Node}
    (h : (bindProgram plan ask program).run.run c = (.error e, c')) :
    ((program.live plan.env).requires.mapM (answer ask)).run.run c = (.error e, c') := by
  rw [bindProgram_eq, map_eq_pure_bind] at h
  rcases run_bind_error h with early | ⟨_, _, -, late⟩
  · exact early
  · cases late

section

variable {depth : Nat} (deeper : ∀ {base : Path} {specifiers : List String} {c c' : Context},
  (specifiers.mapM (answer (includeModule plan d depth base) : String → Build _)).run.run c =
    (.error e, c') → Halt plan d base specifiers c e c')
include deeper

theorem halt_of_include {base : Path} {specifier : String} (rest : List String)
    (h : (includeModule plan d (depth + 1) base specifier : Build _).run.run c = (.error e, c')) :
    Halt plan d base (specifier :: rest) c e c' := by
  unfold includeModule at h
  cases resolved : plan.resolver.resolve d specifier base with
  | error e =>
    rw [resolved] at h
    cases h
    exact .unresolved resolved
  | ok resolution =>
    rw [resolved] at h
    cases resolution with
    | external left =>
      rcases run_bind_error h with refused | ⟨_, _, -, h⟩
      · obtain ⟨missing, rfl, rfl⟩ := leaveToHost_error refused
        exact .unavailable resolved missing
      · cases h
    | file path nextBase kind =>
      rcases run_bind_error h with lost | ⟨text, _, looked, h⟩
      · obtain ⟨failed, rfl⟩ := readText_error lost
        exact .unread resolved failed
      obtain ⟨cache, read, rfl⟩ := readText_ok looked
      rcases run_bind_error h with there | ⟨_, _, there, h⟩
      · cases there
      cases there
      split at h
      · cases h
      rename_i new
      rcases run_bind_error h with single | ⟨alone, _, single, h⟩
      · obtain ⟨noScript, rfl, rfl⟩ := parseScript_error single
        exact .malformed resolved read new noScript
      obtain ⟨-, rfl⟩ := parseScript_ok single
      rcases run_bind_error h with entered | ⟨_, _, entered, h⟩
      · cases entered
      cases entered
      rcases run_bind_error h with template | ⟨wrapped, _, template, h⟩
      · obtain ⟨noScript, rfl, rfl⟩ := parseScript_error template
        exact .unwrapped resolved read new noScript
      obtain ⟨parsed, rfl⟩ := parseScript_ok template
      -- behind the walk nothing fails any more
      rcases run_bind_error h with walked | ⟨program, _, -, h⟩
      · exact .inside resolved read new parsed (deeper (bindProgram_error walked))
      rcases run_bind_error h with completed | ⟨_, _, -, h⟩
      · cases completed
      · cases h

theorem halt_of_mapM {base : Path} {specifiers : List String}
    (h : (specifiers.mapM (answer (includeModule plan d (depth + 1) base) : String → Build _)).run.run
      c = (.error e, c')) : Halt plan d base specifiers c e c' := by
  induction specifiers generalizing c with
  | nil => cases h
  | cons specifier rest further =>
    rw [List.mapM_cons] at h
    rcases run_bind_error h with early | ⟨target, between, ran, h⟩
    · exact halt_of_include deeper rest (run_answer_error_iff.mp early)
    · have answered : ([specifier].mapM
          (answer (includeModule plan d (depth + 1) base) : String → Build _)).run.run c =
          (.ok [target], between) := by
        rw [List.mapM_cons, run_bind, ran]
        rfl
      have first : Walk plan d base [specifier] c [target] between := walk_of_answers answered
      rcases run_bind_error h with late | ⟨_, _, -, done⟩
      · exact .later first (further late)
      · cases done

end

theorem halt_of_answers {depth : Nat} {base : Path} {specifiers : List String} (enough : e ≠ .tooDeep)
    (h : (specifiers.mapM (answer (includeModule plan d depth base) : String → Build _)).run.run c =
      (.error e, c')) : Halt plan d base specifiers c e c' := by
  induction depth generalizing base specifiers c c' with
  | zero =>
    cases specifiers with
    | nil => cases h
    | cons specifier rest =>
      rw [List.mapM_cons] at h
      rcases run_bind_error h with early | ⟨target, _, ran, -⟩
      · cases run_answer_error_iff.mp early
        exact (enough rfl).elim
      · obtain ⟨_, refused, -⟩ := answer_ok ran
        cases refused
  | succ depth deeper => exact halt_of_mapM deeper h

theorem entry_error {path : Path} (h : (entry plan d path).run.run c = (.error e, c')) :
    (c.cache.read d path = .error e ∧ c' = c) ∨
    ∃ text cache, c.cache.read d path = .ok (text, cache) ∧
      (((Script.parse true text).toOption = none ∧ e = .malformed path ∧
          c' = { c with cache := cache }) ∨
        ∃ parsed, Script.parse true text = .ok parsed ∧
          Halt plan d path.directory ((splitHashbang parsed).2.live plan.env).requires
            { c with cache := cache } e c') := by
  have enough : e ≠ .tooDeep := by
    rintro rfl
    exact entry_not_tooDeep plan d path c (congrArg Prod.fst h)
  rcases run_bind_error h with lost | ⟨text, _, looked, h⟩
  · exact .inl (readText_error lost)
  obtain ⟨cache, read, rfl⟩ := readText_ok looked
  refine .inr ⟨text, cache, read, ?_⟩
  rcases run_bind_error h with single | ⟨parsed, _, single, h⟩
  · exact .inl (parseScript_error single)
  obtain ⟨isScript, rfl⟩ := parseScript_ok single
  refine .inr ⟨parsed, isScript, ?_⟩
  rcases run_bind_error h with there | ⟨_, _, there, h⟩
  · cases there
  cases there
  rcases run_bind_error h with walked | ⟨_, _, -, done⟩
  · exact halt_of_answers enough (bindProgram_error walked)
  · cases done

end Build

/-- What walks that succeed keep is kept by builds that fail, if it stays true when a text is read and
when a module is entered. -/
structure KeptByWalks (plan : Plan) (d : Disk) (inv : Context → Prop) : Prop where
  walk : ∀ {base specifiers c answers c'}, Walk plan d base specifiers c answers c' →
    inv c → inv c'
  read : ∀ {c p text cache}, inv c → c.cache.read d p = .ok (text, cache) →
    inv { c with cache := cache }
  enter : ∀ {c id}, inv c → ¬ c.knows id → inv (c.enter id)

theorem Kept.byWalks {inv : Context → Prop} (kept : Kept inv) (plan : Plan) (d : Disk) :
    KeptByWalks plan d inv where
  walk walked holds := (kept.walk walked holds).1
  read := kept.read
  enter := kept.enter

namespace KeptByWalks

variable {plan : Plan} {d : Disk} {inv : Context → Prop} (kept : KeptByWalks plan d inv)
  {c c' : Context}
include kept

theorem halt {base : Path} {specifiers : List String} {e : BundleFault}
    (h : Halt plan d base specifiers c e c') (holds : inv c) : inv c' := by
  induction h with
  | later first _ ih => exact ih (kept.walk first holds)
  | unresolved => exact holds
  | unavailable => exact holds
  | unread => exact holds
  | malformed _ read => exact kept.read holds read
  | unwrapped _ read new => exact kept.enter (kept.read holds read) new
  | inside _ read new _ _ ih => exact ih (kept.enter (kept.read holds read) new)

theorem entry (path : Path) (holds : inv c) :
    inv ((Build.entry plan d path).run.run c).2 := by
  rcases ran : (Build.entry plan d path).run.run c with ⟨e | script, c'⟩
  · rcases Build.entry_error ran with ⟨-, rfl⟩ | ⟨_, _, read, ⟨-, -, rfl⟩ | ⟨_, -, halt⟩⟩
    · exact holds
    · exact kept.read holds read
    · exact kept.halt halt (kept.read holds read)
  · obtain ⟨_, _, _, _, read, -, walk, -⟩ := Build.entry_ok ran
    exact kept.walk walk (kept.read holds read)

end KeptByWalks

end Bundler
