import Bundler.Proofs.Invariant

/-! The walks that succeed, as derivations. A derivation shows what was found for each specifier and
holds the derivation of every module that was included on the way, so what is true of a successful
build is shown by induction on its derivation. -/

namespace Bundler

/-- A walk through the specifiers that are required from a directory, with the answers it finds and
the context it leads to. -/
inductive Walk (plan : Plan) (d : Disk) :
    Path → List String → Context → List (Option ContentId) → Context → Prop where
  | done {base : Path} {c : Context} : Walk plan d base [] c [] c
  | host {base : Path} {specifier left : String} {rest : List String} {c c' : Context}
      {answers : List (Option ContentId)}
      (resolved : plan.resolver.resolve d specifier base = .ok (.external left))
      (provided : (!plan.platform.providesHostModules && Specifier.isHost left) = false)
      (after : Walk plan d base rest (c.leave left) answers c') :
      Walk plan d base (specifier :: rest) c (none :: answers) c'
  | known {base path nextBase : Path} {specifier text : String} {kind : ModuleKind}
      {rest : List String} {id : ContentId} {c c' : Context} {cache : Cache}
      {answers : List (Option ContentId)}
      (resolved : plan.resolver.resolve d specifier base = .ok (.file path nextBase kind))
      (read : c.cache.read d path = .ok (text, cache))
      (named : ContentId.ofText text = id)
      (known : { c with cache := cache }.knows id)
      (after : Walk plan d base rest ({ c with cache := cache }.record id) answers c') :
      Walk plan d base (specifier :: rest) c (some id :: answers) c'
  | new {base path nextBase : Path} {specifier text : String} {kind : ModuleKind}
      {rest : List String} {id : ContentId} {c between c' : Context} {cache : Cache}
      {alone wrapped : Script.Node} {inner answers : List (Option ContentId)}
      (resolved : plan.resolver.resolve d specifier base = .ok (.file path nextBase kind))
      (read : c.cache.read d path = .ok (text, cache))
      (named : ContentId.ofText text = id)
      (new : ¬ { c with cache := cache }.knows id)
      (isScript : Script.parse true text = .ok alone)
      (parsed : Script.parse true (Wrapper.wrap id text plan.instantiation) = .ok wrapped)
      (inside : Walk plan d nextBase (wrapped.live plan.env).requires
        ({ c with cache := cache }.enter id) inner between)
      (after : Walk plan d base rest
        ((between.complete id path ((wrapped.live plan.env).fill inner).1).record id) answers c') :
      Walk plan d base (specifier :: rest) c (some id :: answers) c'

namespace Build

variable {plan : Plan} {d : Disk} {c c' : Context}

theorem readText_ok {p : Path} {text : String}
    (h : (readText d p : Build _).run.run c = (.ok text, c')) :
    ∃ cache, c.cache.read d p = .ok (text, cache) ∧ c' = { c with cache := cache } := by
  obtain ⟨_, _, looked, h⟩ := run_bind_ok h
  cases looked
  cases read : c.cache.read d p with
  | error e =>
    rw [read] at h
    cases h
  | ok found =>
    rw [read] at h
    cases h
    exact ⟨_, rfl, rfl⟩

theorem parseScript_ok {p : Path} {text : String} {program : Script.Node}
    (h : (parseScript p text : Build _).run.run c = (.ok program, c')) :
    Script.parse true text = .ok program ∧ c' = c := by
  unfold parseScript at h
  cases parsed : Script.parse true text with
  | error e =>
    rw [parsed] at h
    cases h
  | ok found =>
    rw [parsed] at h
    cases h
    exact ⟨rfl, rfl⟩

theorem leaveToHost_ok {specifier : String} {u : PUnit}
    (h : (leaveToHost plan specifier : Build _).run.run c = (.ok u, c')) :
    (!plan.platform.providesHostModules && Specifier.isHost specifier) = false ∧
      c' = c.leave specifier := by
  unfold leaveToHost at h
  split at h
  · obtain ⟨_, _, refused, -⟩ := run_bind_ok h
    cases refused
  · rename_i provided
    cases h
    exact ⟨Bool.not_eq_true _ ▸ provided, rfl⟩

theorem bindProgram_ok {ask : String → Build (Option ContentId)} {program bound : Script.Node}
    (h : (bindProgram plan ask program).run.run c = (.ok bound, c')) :
    ∃ answers, ((program.live plan.env).requires.mapM (answer ask)).run.run c = (.ok answers, c') ∧
      ((program.live plan.env).fill answers).1 = bound := by
  rw [bindProgram_eq] at h
  exact run_map_ok h

theorem answer_ok {ask : String → Build (Option ContentId)} {specifier : String}
    {target : Option ContentId}
    (h : (answer ask specifier).run.run c = (.ok target, c')) :
    ∃ between, (ask specifier).run.run c = (.ok target, between) ∧
      c' = target.elim between between.record := by
  obtain ⟨found, between, asked, h⟩ := run_bind_ok h
  cases found with
  | none =>
    cases h
    exact ⟨_, asked, rfl⟩
  | some id =>
    cases h
    exact ⟨_, asked, rfl⟩

section

variable {depth : Nat} (deeper : ∀ {base : Path} {specifiers : List String} {c c' : Context}
  {answers : List (Option ContentId)},
  (specifiers.mapM (answer (includeModule plan d depth base) : String → Build _)).run.run c =
    (.ok answers, c') → Walk plan d base specifiers c answers c')
include deeper

theorem walk_of_include {base : Path} {specifier : String} {rest : List String} {between : Context}
    {target : Option ContentId} {answers : List (Option ContentId)}
    (h : (includeModule plan d (depth + 1) base specifier : Build _).run.run c =
      (.ok target, between))
    (after : Walk plan d base rest (target.elim between between.record) answers c') :
    Walk plan d base (specifier :: rest) c (target :: answers) c' := by
  unfold includeModule at h
  cases resolved : plan.resolver.resolve d specifier base with
  | error e =>
    rw [resolved] at h
    cases h
  | ok resolution =>
    rw [resolved] at h
    cases resolution with
    | external left =>
      obtain ⟨_, _, hosted, h⟩ := run_bind_ok h
      obtain ⟨provided, rfl⟩ := leaveToHost_ok hosted
      cases h
      exact .host resolved provided after
    | file path nextBase kind =>
      obtain ⟨text, _, looked, h⟩ := run_bind_ok h
      obtain ⟨cache, read, rfl⟩ := readText_ok looked
      obtain ⟨_, _, there, h⟩ := run_bind_ok h
      cases there
      generalize named : ContentId.ofText text = id at h
      split at h
      · rename_i known
        cases h
        exact .known resolved read named known after
      · rename_i new
        -- the module is entered, walked to its end, and joins the graph
        obtain ⟨alone, _, single, h⟩ := run_bind_ok h
        obtain ⟨isScript, rfl⟩ := parseScript_ok single
        obtain ⟨_, _, entered, h⟩ := run_bind_ok h
        cases entered
        obtain ⟨wrapped, _, template, h⟩ := run_bind_ok h
        obtain ⟨parsed, rfl⟩ := parseScript_ok template
        obtain ⟨program, between, walked, h⟩ := run_bind_ok h
        obtain ⟨inner, inside, rfl⟩ := bindProgram_ok walked
        obtain ⟨_, _, completed, h⟩ := run_bind_ok h
        cases completed
        cases h
        exact .new resolved read named new isScript parsed (deeper inside) after

theorem walk_of_mapM {base : Path} {specifiers : List String} {answers : List (Option ContentId)}
    (h : (specifiers.mapM (answer (includeModule plan d (depth + 1) base) : String → Build _)).run.run
      c = (.ok answers, c')) : Walk plan d base specifiers c answers c' := by
  induction specifiers generalizing c answers with
  | nil =>
    cases h
    exact .done
  | cons specifier rest further =>
    rw [List.mapM_cons] at h
    obtain ⟨target, middle, first, h⟩ := run_bind_ok h
    obtain ⟨answers, _, later, h⟩ := run_bind_ok h
    cases h
    obtain ⟨found, asked, rfl⟩ := answer_ok first
    exact walk_of_include deeper asked (further later)

end

theorem walk_of_answers {depth : Nat} {base : Path} {specifiers : List String}
    {answers : List (Option ContentId)}
    (h : (specifiers.mapM (answer (includeModule plan d depth base) : String → Build _)).run.run c =
      (.ok answers, c')) : Walk plan d base specifiers c answers c' := by
  induction depth generalizing base specifiers c answers c' with
  | zero =>
    cases specifiers with
    | nil =>
      cases h
      exact .done
    | cons specifier rest =>
      rw [List.mapM_cons] at h
      obtain ⟨target, _, first, -⟩ := run_bind_ok h
      obtain ⟨_, refused, -⟩ := answer_ok first
      cases refused
  | succ depth deeper => exact walk_of_mapM deeper h

theorem entry_ok {path : Path} {script : EntryScript}
    (h : (entry plan d path).run.run c = (.ok script, c')) :
    ∃ text cache parsed answers, c.cache.read d path = .ok (text, cache) ∧
      Script.parse true text = .ok parsed ∧
      Walk plan d path.directory ((splitHashbang parsed).2.live plan.env).requires
        { c with cache := cache } answers c' ∧
      script = ⟨path, (((splitHashbang parsed).2.live plan.env).fill answers).1,
        (splitHashbang parsed).1⟩ := by
  obtain ⟨text, _, looked, h⟩ := run_bind_ok h
  obtain ⟨cache, read, rfl⟩ := readText_ok looked
  obtain ⟨parsed, _, single, h⟩ := run_bind_ok h
  obtain ⟨isScript, rfl⟩ := parseScript_ok single
  obtain ⟨_, _, there, h⟩ := run_bind_ok h
  cases there
  obtain ⟨bound, _, walked, h⟩ := run_bind_ok h
  cases h
  obtain ⟨answers, answered, rfl⟩ := bindProgram_ok walked
  exact ⟨text, cache, parsed, answers, read, isScript, walk_of_answers answered, rfl⟩

end Build

section

variable {plan : Plan} {d : Disk} {base : Path} {specifiers : List String} {c c' : Context}
  {answers : List (Option ContentId)}

theorem Kept.walk {inv : Context → Prop} (kept : Kept inv)
    (h : Walk plan d base specifiers c answers c') (holds : inv c) :
    inv c' ∧ c'.inProgress = c.inProgress := by
  induction h with
  | done => exact ⟨holds, rfl⟩
  | host _ _ _ later =>
    obtain ⟨keeps, same⟩ := later (kept.leave _ holds)
    exact ⟨keeps, same.trans (Context.leave_inProgress ..)⟩
  | known _ read _ known _ later =>
    obtain ⟨keeps, same⟩ := later (kept.record (kept.read holds read) known)
    exact ⟨keeps, same.trans (Context.record_inProgress ..)⟩
  | @new _ path _ _ _ _ _ id c between _ _ _ wrapped inner _ _ read _ new _ _ _ _ deeper later =>
    have started := kept.read holds read
    obtain ⟨walked, same⟩ := deeper (kept.enter started new)
    have fresh := Context.not_mem_of_new new
    have completed := kept.complete path ((wrapped.live plan.env).fill inner).1 started walked fresh
      same
    obtain ⟨keeps, later⟩ := later (kept.record completed (between.knows_complete ..))
    refine ⟨keeps, later.trans ?_⟩
    rw [Context.record_inProgress]
    exact Context.complete_inProgress path _ fresh same

theorem Walk.inProgress (h : Walk plan d base specifiers c answers c') :
    c'.inProgress = c.inProgress := (Kept.always.walk h trivial).2

theorem Walk.extends (h : Walk plan d base specifiers c answers c') : c'.Extends c :=
  ((Context.Extends.kept c).walk h .rfl).1

theorem Walk.completed_subset {between : Context} {id : ContentId} {path : Path}
    {program : Script.Node} (after : Walk plan d base specifiers
      ((between.complete id path program).record id) answers c') :
    between.graph.modules ⊆ c'.graph.modules := by
  have kept := after.extends.modules.subset
  rw [Context.record_graph] at kept
  exact List.Subset.trans (Graph.prefix_insert ..).subset kept

theorem Walk.knows (h : Walk plan d base specifiers c answers c') {id : ContentId}
    (known : c.knows id) : c'.knows id := by
  rw [Context.knows_iff] at known ⊢
  rw [h.inProgress]
  exact known.imp_left h.extends.contains

theorem Walk.knows_answer (h : Walk plan d base specifiers c answers c') {id : ContentId}
    (mem : some id ∈ answers) : c'.knows id := by
  induction h with
  | done => cases mem
  | host _ _ _ later =>
    rcases List.mem_cons.mp mem with same | mem
    · cases same
    · exact later mem
  | known _ _ _ known after later =>
    rcases List.mem_cons.mp mem with same | mem
    · cases same
      exact after.knows (by simpa using known)
    · exact later mem
  | new _ _ _ _ _ _ _ after _ later =>
    rcases List.mem_cons.mp mem with same | mem
    · cases same
      exact after.knows (by simpa using Context.knows_complete ..)
    · exact later mem

end

end Bundler
