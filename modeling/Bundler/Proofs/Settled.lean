import Bundler.Proofs.Dropped
import Bundler.Proofs.Rewriting
import Bundler.Proofs.Script.Placed.Reader
import Bundler.Proofs.Script.Site

/-! A program that has been rewritten has no decided guard left in it. Guards are settled where they
stand, before what is inside them is looked at, and neither what is pruned below nor the answers to its
requires decides a test that was undecided. -/

namespace Bundler

namespace Script.Node

/-- An `if` with a test that is decided. -/
inductive Decided (env : String) : Node → Prop where
  | mk {notes : List Comment} {test consequent alternate : Node} {holds : Bool}
      (decided : condition env test = some holds) :
      Decided env ⟨.ifElse, notes, [test, consequent, alternate]⟩

/-- No decided `if` is left anywhere in the tree. -/
def Settled (env : String) (n : Node) : Prop :=
  ∀ position part, n.at? position = some part → ¬ part.Decided env

theorem settled_iff {env : String} {n : Node} :
    n.Settled env ↔ ¬ n.Decided env ∧ ∀ part ∈ n.parts, part.Settled env := by
  constructor
  · intro settled
    refine ⟨settled [] n rfl, fun part mem position found => ?_⟩
    obtain ⟨i, there⟩ := List.mem_iff_getElem?.mp mem
    intro at_
    exact settled (i :: position) found (Option.bind_eq_some_iff.mpr ⟨part, there, at_⟩)
  · rintro ⟨own, below⟩ position found at_
    cases position with
    | nil =>
      cases at_
      exact own
    | cons i position =>
      obtain ⟨part, there, at_⟩ := Option.bind_eq_some_iff.mp at_
      exact below part (List.mem_of_getElem? there) position found at_

variable {env : String} {n : Node}

theorem not_decided_of_form (h : n.form ≠ .ifElse) : ¬ n.Decided env := by
  rintro ⟨_⟩
  exact h rfl

theorem not_decided_of_settled {kept : Node} (h : settle env n = some kept) :
    ¬ kept.Decided env := by
  rintro ⟨decided⟩
  rw [condition_of_settled h] at decided
  cases decided

theorem Placed.settled {kept : Node} (placed : n.Placed) (h : settle env n = some kept) :
    kept.Placed := by
  fun_induction settle env n with
  | case1 notes test consequent alternate _ ih =>
    obtain ⟨-, below⟩ := placed
    exact ih (below consequent (by simp)) h
  | case2 => cases h
  | case3 notes test consequent alternate _ _ ih =>
    obtain ⟨-, below⟩ := placed
    exact ih (below alternate (by simp)) h
  | case4 =>
    cases h
    exact placed
  | case5 =>
    cases h
    exact placed

theorem Placed.part {form : Form} {notes : List Comment} {parts : List Node} {part : Node}
    (placed : Placed ⟨form, notes, parts⟩) (mem : part ∈ settledParts env form.slot parts) :
    part.Placed ∧ ¬ part.Decided env := by
  obtain ⟨own, below⟩ := placed
  cases slot : form.slot with
  | listed =>
    rw [slot] at mem
    obtain ⟨n, there, settled⟩ := List.mem_filterMap.mp mem
    exact ⟨(below n there).settled settled, not_decided_of_settled settled⟩
  | single =>
    rw [slot] at mem
    obtain ⟨n, there, rfl⟩ := List.mem_map.mp mem
    cases settled : settle env n with
    | none => exact ⟨.mk (by simp) (by simp), not_decided_of_form (by decide)⟩
    | some kept => exact ⟨(below n there).settled settled, not_decided_of_settled settled⟩
  | inner =>
    rw [slot] at mem
    obtain ⟨i, there⟩ := List.mem_iff_getElem?.mp mem
    refine ⟨below part mem, not_decided_of_form fun isIf => ?_⟩
    have statement := own i part there isIf
    rw [isStatementAt_inner slot] at statement
    cases statement

theorem Placed.decided_of_live (placed : n.Placed) (h : (n.live env).Decided env) :
    n.Decided env := by
  obtain ⟨form, notes, parts⟩ := n
  obtain ⟨own, -⟩ := placed
  generalize pruned : live env ⟨form, notes, parts⟩ = remains at h
  obtain ⟨decided⟩ := h
  rw [live_settled] at pruned
  obtain ⟨rfl, rfl, all⟩ := Node.mk.inj pruned
  rw [show Form.slot .ifElse = .single from rfl, settledParts, List.map_map] at all
  obtain ⟨test, _, rfl, rfl, two⟩ := List.map_eq_cons_iff.mp all
  obtain ⟨consequent, _, rfl, -, one⟩ := List.map_eq_cons_iff.mp two
  obtain ⟨alternate, rfl, -⟩ := List.map_eq_singleton_iff.mp one
  have plain : settle env test = some test := by
    apply settle.eq_2
    rintro _ _ _ _ rfl
    cases own 0 _ rfl rfl
  rw [Function.comp_apply, plain, Option.getD_some, condition_live] at decided
  exact .mk decided

theorem Placed.settled_prune (placed : n.Placed) (undecided : ¬ n.Decided env) :
    (n.prune env).Settled env := by
  -- What is pruned next is undecided where it stands, and this is what carries the recursion.
  fun_induction prune env n with
  | case1 n ih =>
    rw [settled_iff]
    constructor
    · intro decided
      rw [← prune, prune_eq_live] at decided
      exact undecided (placed.decided_of_live decided)
    · intro pruned mem
      obtain ⟨⟨part, there⟩, -, rfl⟩ := List.mem_map.mp mem
      obtain ⟨form, notes, parts⟩ := n
      obtain ⟨partPlaced, partUndecided⟩ := placed.part there
      exact ih ⟨part, there⟩ partPlaced partUndecided

theorem fill_of_other (answers : List (Option ContentId)) (h : n.requireSpecifier? = none) :
    (n.fill answers).1 = ⟨n.form, n.notes, (fillParts n.parts answers).1⟩ := by
  obtain ⟨form, notes, parts⟩ := n
  rw [fill, h]

theorem fill_of_call (answers : List (Option ContentId)) {specifier : String}
    (h : n.requireSpecifier? = some specifier) :
    (n.fill answers).1 = answered answers.head?.join n := by
  obtain ⟨form, notes, parts⟩ := n
  rw [fill, h]

theorem forall₂_fillParts (ns : List Node) (answers : List (Option ContentId)) :
    List.Forall₂ (fun n n' => ∃ rest, n' = (n.fill rest).1) ns (fillParts ns answers).1 := by
  induction ns generalizing answers with
  | nil => exact .nil
  | cons n rest ih => exact .cons ⟨answers, rfl⟩ (ih _)

theorem transparent_fill : Transparent fun n n' => ∃ answers, n' = (n.fill answers).1 where
  form := by
    rintro n _ ⟨answers, rfl⟩
    cases one : n.requireSpecifier? with
    | some specifier => rw [fill_of_call answers one, answered_form]
    | none => rw [fill_of_other answers one]
  parts := by
    rintro n _ ⟨answers, rfl⟩ - noCall
    cases one : n.requireSpecifier? with
    | some specifier =>
      obtain ⟨isOptional, closing, isCall⟩ := requireSpecifier?_form one
      exact (noCall isOptional closing isCall).elim
    | none =>
      rw [fill_of_other answers one]
      exact forall₂_fillParts n.parts answers

theorem settled_leaf (h : n.form ≠ .ifElse) (noParts : n.parts = []) : n.Settled env := by
  rw [settled_iff, noParts]
  exact ⟨not_decided_of_form h, nofun⟩

theorem settled_answered {specifier : String} (target : Option ContentId)
    (h : n.requireSpecifier? = some specifier) : (answered target n).Settled env := by
  obtain ⟨_, _, _, _, _, _, rfl⟩ := requireSpecifier?_eq_some.mp h
  have callee (name : String) (notes : List Comment) :
      Settled env ⟨.identifier name, notes, []⟩ := settled_leaf (by simp) rfl
  have text (value : String) (lone : Bool) (notes : List Comment) :
      Settled env ⟨.string value lone, notes, []⟩ := settled_leaf (by simp) rfl
  rw [settled_iff]
  cases target with
  | none =>
    exact ⟨not_decided_of_form nofun, List.forall_mem_cons.mpr
      ⟨callee _ _, List.forall_mem_singleton.mpr (text _ _ _)⟩⟩
  | some id => exact ⟨not_decided_of_form nofun, List.forall_mem_singleton.mpr (callee _ _)⟩

theorem Settled.fill (settled : n.Settled env) (answers : List (Option ContentId)) :
    (n.fill answers).1.Settled env := by
  induction n using Node.ind generalizing answers with
  | step form notes parts ih =>
    cases one : requireSpecifier? ⟨form, notes, parts⟩ with
    | some specifier =>
      rw [fill_of_call answers one]
      exact settled_answered _ one
    | none =>
      obtain ⟨undecided, below⟩ := settled_iff.mp settled
      have each := forall₂_fillParts parts answers
      rw [fill_of_other answers one, settled_iff]
      dsimp only
      constructor
      · generalize (fillParts parts answers).1 = filled at each
        rintro ⟨decided⟩
        -- The tests before and after the answers are the first of three parts each.
        obtain _ | ⟨tests, _ | ⟨_, _ | ⟨_, _ | _⟩⟩⟩ := each
        rw [← transparent_fill.condition env tests] at decided
        exact undecided (.mk decided)
      · intro part mem
        obtain ⟨i, there⟩ := List.mem_iff_getElem?.mp mem
        have bound : i < parts.length := by
          rw [each.length_eq]
          exact (List.getElem?_eq_some_iff.mp there).1
        obtain ⟨rest, -, filled⟩ := fillParts_getElem? (List.getElem?_eq_getElem bound) answers
        rw [there] at filled
        cases filled
        exact ih _ (List.getElem_mem bound) (below _ (List.getElem_mem bound)) rest

end Script.Node

namespace Polling

/-- A script is rewritten on its own, and a test holds of the script, of what it is rewritten to and
of the context then. -/
def rewrites (source : String) (test : Script.Node → Script.Node → Context → Bool) : Bool :=
  match Script.parse true source with
  | .error _ => false
  | .ok program =>
    match (Build.bindProgram plan (Build.includeModule plan default 1 (.ofString "/")) program :
        Build _).run.run .empty with
    | (.ok bound, c) => test program bound c
    | (.error _, _) => false

theorem rewrites_spec {source : String} {test : Script.Node → Script.Node → Context → Bool}
    (h : rewrites source test) : ∃ program bound c, Script.parse true source = .ok program ∧
      (Build.bindProgram plan (Build.includeModule plan default 1 (.ofString "/")) program :
        Build _).run.run .empty = (.ok bound, c) ∧ test program bound c := by
  unfold rewrites at h
  split at h
  · cases h
  · rename_i program read
    split at h
    · rename_i bound c ran
      exact ⟨program, bound, c, read, ran, h⟩
    · cases h

def callback : String :=
  "f(() => \x7b while (x) if ('development' == process.env.NODE_ENV) if (y) require('fs') \x7d);"

end Polling

namespace Build

/-- No decided `if` is left in a program that has been rewritten, at whatever place. -/
theorem bindProgram_settled {plan : Plan} {d : Disk} {depth : Nat} {base : Path}
    {program bound : Script.Node} {c c' : Context} (plain : program.Plain)
    (ran : (bindProgram plan (includeModule plan d depth base) program : Build _).run.run c =
      (.ok bound, c')) : bound.Settled plan.env := by
  rw [bindProgram_eq] at ran
  obtain ⟨answers, -, rfl⟩ := run_map_ok ran
  have undecided : ¬ program.Decided plan.env := Script.Node.not_decided_of_form plain.form
  rw [← Script.Node.prune_eq_live]
  exact (plain.placed.settled_prune undecided).fill answers

set_option maxRecDepth 100000 in
/-- A require in the innermost guard of the callback is met, and the guard is gone. -/
theorem bindProgram_settled_callback : ∃ program bound c,
    Script.parse true Polling.callback = .ok program ∧ program.Plain ∧
    (bindProgram Polling.plan (includeModule Polling.plan default 1 (.ofString "/")) program :
      Build _).run.run .empty = (.ok bound, c) ∧
    c.externals = ["fs"] ∧ bound.Settled Polling.plan.env := by
  have rewritten : Polling.rewrites Polling.callback fun _ _ c => c.externals == ["fs"] := by
    decide +kernel
  obtain ⟨program, bound, c, read, ran, externals⟩ := Polling.rewrites_spec rewritten
  have plain := Script.plain_of_parse read
  exact ⟨program, bound, c, read, plain, ran, beq_iff_eq.mp externals,
    bindProgram_settled plain ran⟩

end Build

end Bundler
