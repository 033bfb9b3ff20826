import Bundler.Proofs.Run

/-! A program is rewritten in one walk that settles lists of statements before it visits them, settles
each statement once more on the way, and goes on without effect after a failure. What comes of it is
what three separate steps make: a pure pass that prunes the program, the calls for what it then
requires, and the answers in their places. -/

namespace Bundler

namespace Script.Node

theorem sizeOf_settledParts_lt {env : String} {slot : Slot} {parts : List Node} {part : Node}
    (mem : part ∈ settledParts env slot parts) : sizeOf part < sizeOf parts := by
  have below {n : Node} (there : n ∈ parts) : sizeOf ((settle env n).getD (leaf .empty)) <
      sizeOf parts :=
    Nat.lt_of_le_of_lt (sizeOf_settled_le env n) (List.sizeOf_lt_of_mem there)
  cases slot with
  | listed =>
    obtain ⟨n, there, settled⟩ := List.mem_filterMap.mp mem
    simpa only [settled, Option.getD_some] using below there
  | single =>
    obtain ⟨n, there, rfl⟩ := List.mem_map.mp mem
    exact below there
  | inner => exact List.sizeOf_lt_of_mem mem

/-- The tree with its guards settled from the top down, in a pass that asks for nothing. -/
def prune (env : String) (n : Node) : Node :=
  ⟨n.form, n.notes, (settledParts env n.form.slot n.parts).attach.map fun part => part.1.prune env⟩
  termination_by sizeOf n
  decreasing_by
    have smaller := sizeOf_settledParts_lt part.2
    have parts : sizeOf n.parts < sizeOf n := by
      cases n
      simp only [mk.sizeOf_spec]
      omega
    omega

theorem prune_eq_live (env : String) (n : Node) : n.prune env = n.live env := by
  fun_induction prune env n with
  | case1 n ih =>
    rw [live_settled, mk.injEq]
    refine ⟨rfl, rfl, ?_⟩
    rw [List.map_congr_left fun part _ => ih part, List.attach_map_val (f := live env)]

end Script.Node

namespace Build

variable {σ α β : Type}

/-- Calls that are made one after the other fail where the first of them does, in the state that it
leaves. -/
theorem run_mapM_error_iff {f : α → ExceptT BundleFault (StateM σ) β} {l : List α} {s s' : σ}
    {e : BundleFault} : (l.mapM f).run.run s = (.error e, s') ↔
      ∃ before a after answers between, l = before ++ a :: after ∧
        (before.mapM f).run.run s = (.ok answers, between) ∧
        (f a).run.run between = (.error e, s') := by
  induction l generalizing s with
  | nil =>
    constructor
    · intro fails
      cases fails
    · rintro ⟨before, a, after, _, _, split, -⟩
      exact (List.append_ne_nil_of_right_ne_nil before (List.cons_ne_nil a after) split.symm).elim
  | cons first rest ih =>
    rw [List.mapM_cons]
    constructor
    · intro fails
      rcases run_bind_error fails with early | ⟨b, between, ran, later⟩
      · exact ⟨[], first, rest, [], s, rfl, rfl, early⟩
      rcases run_bind_error later with later | ⟨_, _, -, later⟩
      · obtain ⟨before, a, after, answers, last, rfl, answered, fails⟩ := ih.mp later
        refine ⟨first :: before, a, after, b :: answers, last, rfl, ?_, fails⟩
        rw [List.mapM_cons, run_bind, ran]
        dsimp only
        rw [run_bind, answered]
        rfl
      · cases later
    · rintro ⟨before, a, after, answers, between, split, answered, fails⟩
      -- the call that fails is the first one or comes later
      cases before with
      | nil =>
        cases split
        cases answered
        rw [run_bind, fails]
      | cons head before =>
        cases split
        rw [List.mapM_cons] at answered
        obtain ⟨b, next, ran, answered⟩ := run_bind_ok answered
        obtain ⟨bs, _, answered, done⟩ := run_bind_ok answered
        cases done
        have later := ih.mpr ⟨before, a, after, bs, _, rfl, answered, fails⟩
        rw [run_bind, ran]
        dsimp only
        rw [run_bind, later]

theorem run_answer_error_iff {ask : String → Build (Option ContentId)} {specifier : String}
    {c c' : Context} {e : BundleFault} :
    (answer ask specifier).run.run c = (.error e, c') ↔
      (ask specifier).run.run c = (.error e, c') := by
  constructor
  · intro fails
    rcases run_bind_error fails with early | ⟨target, _, -, later⟩
    · exact early
    · cases target <;> cases later
  · intro fails
    rw [answer, run_bind, fails]

/-- Prune a program, ask for the specifiers that are left in the order of the text and until one
fails, and put each answer in the place of its call. -/
def bindInPhases (plan : Plan) (ask : String → Build (Option ContentId)) (program : Script.Node) :
    Build Script.Node := do
  let pruned := program.prune plan.env
  let answers ← pruned.requires.mapM (answer ask)
  return (pruned.fill answers).1

/-- The walk over a program ends as its three phases do, in the same context; and if a call fails, it
ends with the failure of the first that does, in the context that this call left. -/
theorem bindProgram_in_phases (plan : Plan) (d : Disk) (depth : Nat) (base : Path)
    (program : Script.Node) (c : Context) :
    (bindProgram plan (includeModule plan d depth base) program : Build _).run.run c =
        (bindInPhases plan (includeModule plan d depth base) program).run.run c ∧
      ∀ e c', (bindProgram plan (includeModule plan d depth base) program : Build _).run.run c =
          (.error e, c') ↔
        ∃ before specifier after answers between,
          (program.prune plan.env).requires = before ++ specifier :: after ∧
          (before.mapM (answer (includeModule plan d depth base)) : Build _).run.run c =
            (.ok answers, between) ∧
          (includeModule plan d depth base specifier : Build _).run.run between =
            (.error e, c') := by
  have phases : bindProgram plan (includeModule plan d depth base) program =
      bindInPhases plan (includeModule plan d depth base) program := by
    rw [bindProgram_eq, bindInPhases, Script.Node.prune_eq_live, map_eq_pure_bind]
  refine ⟨by rw [phases], fun e c' => ?_⟩
  have asked : (bindProgram plan (includeModule plan d depth base) program : Build _).run.run c =
      (.error e, c') ↔ ((program.prune plan.env).requires.mapM
        (answer (includeModule plan d depth base)) : Build _).run.run c = (.error e, c') := by
    rw [phases]
    constructor
    · intro fails
      rcases run_bind_error fails with early | ⟨_, _, -, later⟩
      · exact early
      · cases later
    · intro fails
      rw [bindInPhases, run_bind, fails]
  rw [asked, run_mapM_error_iff]
  simp only [run_answer_error_iff]

end Build

end Bundler
