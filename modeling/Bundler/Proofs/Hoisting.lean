import Bundler.Proofs.Settled
import Mathlib.Data.List.Flatten

/-! What is declared by `var` belongs to the function around it, wherever in it the declaration stands.
Branches that a decided guard drops go with the declarations in them, so the names that a function has
once it is pruned are those that are declared outside such branches. -/

namespace Bundler

namespace Script

def Form.isScope : Form → Bool
  | .program _ _ | .body _ | .staticBlock => true
  | _ => false

def Form.isVar (form : Form) : Bool := form = .declare .var

/-- The names that a pattern, a declarator or a declaration binds, from those of its parts. -/
def Form.binds : Form → List (List String) → List String
  | .identifier name, _ => [name]
  | .declare _, below | .arrayPattern, below | .objectPattern, below | .rest, below =>
    below.flatten
  | .patternProperty _ _, [_, target] => target
  | .declarator, [target, _] | .defaulted, [target, _] => target
  | _, _ => []

namespace Node

def boundNames : Node → List String := fold fun n below => n.form.binds below

section

variable (wanted closed : Form → Bool)

mutual

/-- The nodes of wanted forms in a tree, in the order of the text; what is inside a closed form is
left out. -/
def search : Node → List Node
  | ⟨form, notes, parts⟩ =>
    (if wanted form then [⟨form, notes, parts⟩] else []) ++
      if closed form then [] else searchParts parts

def searchParts : List Node → List Node
  | [] => []
  | n :: rest => n.search ++ searchParts rest

end

mutual

def searchKept (env : String) (slot : Slot) : Node → List Node
  | ⟨.ifElse, notes, [test, consequent, alternate]⟩ =>
    match verdict env slot test with
    | some true => searchKept env slot consequent
    | some false => if alternate.isAbsent then [] else searchKept env slot alternate
    | none =>
      (if wanted .ifElse then [⟨.ifElse, notes, [test, consequent, alternate]⟩] else []) ++
        if closed .ifElse then [] else searchKeptParts env .single [test, consequent, alternate]
  | ⟨form, notes, parts⟩ =>
    (if wanted form then [⟨form, notes, parts⟩] else []) ++
      if closed form then [] else searchKeptParts env form.slot parts

def searchKeptParts (env : String) (slot : Slot) : List Node → List Node
  | [] => []
  | n :: rest => n.searchKept env slot ++ searchKeptParts env slot rest

end

end

/-- The places in a tree that have `var`s of their own: the top level, function bodies and static
blocks. -/
def scopes (n : Node) : List Node := n.search Form.isScope fun _ => false

def keptScopes (env : String) (n : Node) : List Node :=
  n.searchKept Form.isScope (fun _ => false) env .inner

/-- The names that are declared by `var` in a scope, in any statement but not in a scope inside. -/
def varNames (scope : Node) : List String :=
  (searchParts Form.isVar Form.isScope scope.parts).flatMap boundNames

/-- Those of its names that are declared outside all branches that are dropped. -/
def keptNames (env : String) (scope : Node) : List String :=
  (searchKeptParts Form.isVar Form.isScope env scope.form.slot scope.parts).flatMap boundNames

section

variable {wanted closed : Form → Bool} {env : String}

theorem searchParts_pruned (noHole : wanted .empty = false) {slot : Slot} {parts : List Node}
    (each : ∀ n ∈ parts, (n.pruned env slot).elim [] (search wanted closed) =
      (n.searchKept wanted closed env slot).map (live env)) :
    searchParts wanted closed (prunedParts env slot parts) =
      (searchKeptParts wanted closed env slot parts).map (live env) := by
  induction parts with
  | nil => rfl
  | cons n rest ih =>
    obtain ⟨first, later⟩ := List.forall_mem_cons.mp each
    rw [prunedParts, searchKeptParts, List.map_append, ← first, ← ih later]
    cases n.pruned env slot with
    | some kept => rfl
    | none =>
      rw [keep, Option.elim_none, List.nil_append]
      split
      · rfl
      · have hole : search wanted closed (leaf .empty) = [] := by
          simp [leaf, of, search, searchParts, noHole]
        rw [searchParts, hole, List.nil_append]

theorem search_prunedParts {form : Form} {notes : List Comment} {parts : List Node}
    (below : searchParts wanted closed (prunedParts env form.slot parts) =
      (searchKeptParts wanted closed env form.slot parts).map (live env)) :
    search wanted closed ⟨form, notes, prunedParts env form.slot parts⟩ =
      ((if wanted form then [Node.mk form notes parts] else []) ++ if closed form then [] else
        searchKeptParts wanted closed env form.slot parts).map (live env) := by
  rw [search, below, List.map_append]
  congr 1
  · split
    · rw [List.map_singleton, live_eq]
    · rfl
  · split <;> rfl

theorem search_pruned (noHole : wanted .empty = false) (slot : Slot) (n : Node) :
    (n.pruned env slot).elim [] (search wanted closed) =
      (n.searchKept wanted closed env slot).map (live env) := by
  -- A branch takes the place of its guard, so it is searched for the guard's slot.
  induction n using Node.ind generalizing slot with
  | step form notes parts ih =>
    have below := searchParts_pruned noHole fun n mem => ih n mem form.slot
    by_cases guard : ∃ test consequent alternate, form = .ifElse ∧ parts = [test, consequent, alternate]
    · obtain ⟨test, consequent, alternate, rfl, rfl⟩ := guard
      rw [pruned, searchKept]
      cases verdict env slot test with
      | none => exact search_prunedParts below
      | some holds =>
        cases holds with
        | true => exact ih consequent (by simp) slot
        | false =>
          dsimp only
          split
          · rfl
          · exact ih alternate (by simp) slot
    · have other (test consequent alternate : Node) (isIf : form = .ifElse)
          (three : parts = [test, consequent, alternate]) : False :=
        guard ⟨test, consequent, alternate, isIf, three⟩
      rw [pruned.eq_2 _ _ _ _ _ other, searchKept.eq_2 _ _ _ _ _ _ _ other]
      exact search_prunedParts below

theorem search_live (noHole : wanted .empty = false) (n : Node) :
    (n.live env).search wanted closed = (n.searchKept wanted closed env .inner).map (live env) := by
  rw [← search_pruned noHole, pruned_inner, live_eq]
  rfl

end

theorem scopes_live (env : String) (n : Node) :
    (n.live env).scopes = (n.keptScopes env).map (live env) :=
  search_live rfl n

theorem boundNames_mk (form : Form) (notes : List Comment) (parts : List Node) :
    boundNames ⟨form, notes, parts⟩ = form.binds (parts.map boundNames) := by
  rw [boundNames, fold, foldParts_eq]

theorem binds_cases (form : Form) :
    (form.slot = .inner ∧ ∀ isOptional closing, form ≠ .call isOptional closing) ∨
      ∀ below, form.binds below = [] := by
  cases form <;> first | exact .inr fun _ => rfl | exact .inl ⟨rfl, nofun⟩

theorem map_eq_of_forall₂ {R : Node → Node → Prop} {α : Type} {f : Node → α}
    {parts parts' : List Node} (each : ∀ n ∈ parts, ∀ n', R n n' → f n = f n')
    (h : List.Forall₂ R parts parts') : parts.map f = parts'.map f := by
  induction h with
  | nil => rfl
  | cons first _ ih =>
    obtain ⟨own, later⟩ := List.forall_mem_cons.mp each
    rw [List.map_cons, List.map_cons, own _ first, ih later]

theorem Transparent.boundNames {R : Node → Node → Prop} (t : Transparent R) {n n' : Node}
    (h : R n n') : n.boundNames = n'.boundNames := by
  induction n using Node.ind generalizing n' with
  | step form notes parts ih =>
    obtain ⟨form', notes', parts'⟩ := n'
    cases t.form h
    -- A form that binds names has parts that correspond, one by one.
    rw [boundNames_mk, boundNames_mk]
    rcases binds_cases form with ⟨slot, noCall⟩ | none
    · have names : parts.map Node.boundNames = parts'.map Node.boundNames :=
        map_eq_of_forall₂ (fun n mem n' h => ih n mem h) (t.parts h slot noCall)
      rw [names]
    · rw [none, none]

theorem varNames_live {env : String} {scope : Node} :
    (scope.live env).varNames = scope.keptNames env := by
  have found : searchParts Form.isVar Form.isScope (scope.live env).parts =
      (searchKeptParts Form.isVar Form.isScope env scope.form.slot scope.parts).map (live env) := by
    rw [live_eq]
    exact searchParts_pruned rfl fun n _ => search_pruned rfl _ n
  have names (n : Node) : (n.live env).boundNames = n.boundNames :=
    ((transparent_live env).boundNames rfl).symm
  rw [varNames, found, keptNames, List.flatMap_map]
  simp only [names]

section

variable {wanted closed : Form → Bool} {env : String}

theorem searchParts_eq (wanted closed : Form → Bool) (parts : List Node) :
    searchParts wanted closed parts = (parts.map (search wanted closed)).flatten := by
  induction parts with
  | nil => rfl
  | cons n rest ih => rw [searchParts, ih, List.map_cons, List.flatten_cons]

theorem searchKeptParts_sublist {slot : Slot} {parts : List Node}
    (each : ∀ n ∈ parts, (n.searchKept wanted closed env slot).Sublist (n.search wanted closed)) :
    (searchKeptParts wanted closed env slot parts).Sublist (searchParts wanted closed parts) := by
  induction parts with
  | nil => exact .slnil
  | cons n rest ih =>
    obtain ⟨first, later⟩ := List.forall_mem_cons.mp each
    rw [searchKeptParts, searchParts]
    exact first.append (ih later)

theorem searchKept_sublist (enters : closed .ifElse = false) (slot : Slot) (n : Node) :
    (n.searchKept wanted closed env slot).Sublist (n.search wanted closed) := by
  induction n using Node.ind generalizing slot with
  | step form notes parts ih =>
    have below := searchKeptParts_sublist fun n mem => ih n mem form.slot
    have all : ((if wanted form then [Node.mk form notes parts] else []) ++ if closed form then []
        else searchKeptParts wanted closed env form.slot parts).Sublist
          (search wanted closed ⟨form, notes, parts⟩) := by
      rw [search]
      refine (List.Sublist.refl _).append ?_
      split
      · exact .slnil
      · exact below
    by_cases guard : ∃ test consequent alternate, form = .ifElse ∧ parts = [test, consequent, alternate]
    · -- of a guard that is decided one branch is searched at most, and the whole search has both
      obtain ⟨test, consequent, alternate, rfl, rfl⟩ := guard
      have branch {n : Node} (mem : n ∈ [test, consequent, alternate]) :
          (n.searchKept wanted closed env slot).Sublist
            (search wanted closed ⟨.ifElse, notes, [test, consequent, alternate]⟩) := by
        have inParts : (n.search wanted closed).Sublist
            (searchParts wanted closed [test, consequent, alternate]) := by
          rw [searchParts_eq]
          exact List.sublist_flatten_of_mem (List.mem_map_of_mem mem)
        rw [search, enters]
        exact ((ih n mem slot).trans inParts).trans (List.sublist_append_right _ _)
      rw [searchKept]
      cases verdict env slot test with
      | none => exact all
      | some holds =>
        cases holds with
        | true => exact branch (by simp)
        | false =>
          dsimp only
          split
          · exact List.nil_sublist _
          · exact branch (by simp)
    · rw [searchKept.eq_2]
      · exact all
      · intro test consequent alternate isIf three
        exact guard ⟨test, consequent, alternate, isIf, three⟩

end

theorem keptNames_sublist (env : String) (scope : Node) :
    (scope.keptNames env).Sublist scope.varNames := by
  have found : (searchKeptParts Form.isVar Form.isScope env scope.form.slot scope.parts).Sublist
      (searchParts Form.isVar Form.isScope scope.parts) :=
    searchKeptParts_sublist fun n _ => searchKept_sublist rfl _ n
  exact found.flatMap boundNames

section

variable {wanted closed : Form → Bool}

/-- Nothing is found in a call that requires, whether it is bound or not. -/
theorem search_answered (closed : Form → Bool)
    (few : ∀ form, wanted form → form.isScope ∨ form.isVar) {n : Node} {specifier : String}
    (target : Option ContentId) (h : n.requireSpecifier? = some specifier) :
    n.search wanted closed = [] ∧ (answered target n).search wanted closed = [] := by
  have unwanted {form : Form} (scope : form.isScope = false) (isVar : form.isVar = false) :
      wanted form = false := by
    refine Bool.eq_false_iff.mpr fun h => ?_
    rcases few form h with isScope | isVariable
    · exact Bool.eq_false_iff.mp scope isScope
    · exact Bool.eq_false_iff.mp isVar isVariable
  have callee (name : String) : wanted (.identifier name) = false := unwanted rfl rfl
  have text (value : String) (lone : Bool) : wanted (.string value lone) = false := unwanted rfl rfl
  have call (isOptional : Bool) (closing : List Comment) : wanted (.call isOptional closing) = false :=
    unwanted rfl rfl
  obtain ⟨_, _, _, _, _, _, rfl⟩ := requireSpecifier?_eq_some.mp h
  cases target <;> simp [answered, bindTo, search, searchParts, callee, text, call]

theorem forall₂_searchParts_fill {ns : List Node}
    (each : ∀ n ∈ ns, ∀ answers, List.Forall₂ (fun n n' => ∃ rest, n' = (n.fill rest).1)
      (n.search wanted closed) ((n.fill answers).1.search wanted closed))
    (answers : List (Option ContentId)) :
    List.Forall₂ (fun n n' => ∃ rest, n' = (n.fill rest).1) (searchParts wanted closed ns)
      (searchParts wanted closed (fillParts ns answers).1) := by
  induction ns generalizing answers with
  | nil => exact .nil
  | cons n rest ih =>
    obtain ⟨first, later⟩ := List.forall_mem_cons.mp each
    exact List.rel_append (first answers) (ih later _)

theorem forall₂_search_fill (few : ∀ form, wanted form → form.isScope ∨ form.isVar) (n : Node)
    (answers : List (Option ContentId)) :
    List.Forall₂ (fun n n' => ∃ rest, n' = (n.fill rest).1) (n.search wanted closed)
      ((n.fill answers).1.search wanted closed) := by
  induction n using Node.ind generalizing answers with
  | step form notes parts ih =>
    cases one : requireSpecifier? ⟨form, notes, parts⟩ with
    | some specifier =>
      obtain ⟨before, after⟩ := search_answered closed few answers.head?.join one
      rw [fill_of_call answers one, before, after]
      exact .nil
    | none =>
      have filled := fill_of_other answers one
      rw [filled, search, search]
      refine List.rel_append ?_ ?_
      · split
        · exact .cons ⟨answers, filled.symm⟩ .nil
        · exact .nil
      · split
        · exact .nil
        · exact forall₂_searchParts_fill ih answers

end

theorem forall₂_scopes_fill (n : Node) (answers : List (Option ContentId)) :
    List.Forall₂ (fun n n' => ∃ rest, n' = (n.fill rest).1) n.scopes (n.fill answers).1.scopes :=
  forall₂_search_fill (fun _ => .inl) n answers

theorem wanted_of_mem {wanted closed : Form → Bool} {n found : Node}
    (mem : found ∈ n.search wanted closed) : wanted found.form := by
  induction n using Node.ind with
  | step form notes parts ih =>
    rw [search] at mem
    rcases List.mem_append.mp mem with own | below
    · split at own
      · rename_i isWanted
        rw [List.mem_singleton.mp own]
        exact isWanted
      · cases own
    · split at below
      · cases below
      · rw [searchParts_eq] at below
        obtain ⟨_, image, inPart⟩ := List.mem_flatten.mp below
        obtain ⟨part, mem, rfl⟩ := List.mem_map.mp image
        exact ih part mem inPart

theorem varNames_fill {scope : Node} (isScope : scope.form.isScope)
    (answers : List (Option ContentId)) : (scope.fill answers).1.varNames = scope.varNames := by
  have noCall : scope.requireSpecifier? = none := by
    refine Option.eq_none_iff_forall_ne_some.mpr fun specifier requires => ?_
    obtain ⟨isOptional, closing, isCall⟩ := requireSpecifier?_form requires
    rw [isCall] at isScope
    cases isScope
  have found : List.Forall₂ (fun n n' => ∃ rest, n' = (n.fill rest).1)
      (searchParts Form.isVar Form.isScope scope.parts)
      (searchParts Form.isVar Form.isScope (fillParts scope.parts answers).1) :=
    forall₂_searchParts_fill (fun n _ => forall₂_search_fill (fun _ => .inr) n) answers
  have names := map_eq_of_forall₂ (fun n _ n' h => transparent_fill.boundNames h) found
  rw [fill_of_other answers noCall, varNames, varNames, List.flatMap_def, List.flatMap_def, names]

/-- How a scope comes out of pruning: its names are those that were declared outside the dropped
branches, and none is new. -/
structure KeepsVars (env : String) (before after : Node) : Prop where
  form : after.form = before.form
  names : after.varNames = before.keptNames env
  fewer : after.varNames.Sublist before.varNames

theorem keepsVars_live (env : String) (scope : Node) : scope.KeepsVars env (scope.live env) where
  form := by rw [live_settled]
  names := varNames_live
  fewer := by
    rw [varNames_live]
    exact keptNames_sublist env scope

theorem KeepsVars.fill {env : String} {before after : Node} (h : before.KeepsVars env after)
    (isScope : after.form.isScope) (answers : List (Option ContentId)) :
    before.KeepsVars env (after.fill answers).1 := by
  have names : (after.fill answers).1.varNames = after.varNames := varNames_fill isScope answers
  refine ⟨?_, names.trans h.names, names ▸ h.fewer⟩
  rw [← transparent_fill.form ⟨answers, rfl⟩, h.form]

theorem keepsVars_scopes (env : String) (program : Node) :
    List.Forall₂ (KeepsVars env) (program.keptScopes env) (program.live env).scopes := by
  rw [scopes_live, List.forall₂_map_right_iff]
  exact List.forall₂_same.mpr fun scope _ => keepsVars_live env scope

end Node

end Script

namespace Hoisted

def function : String :=
  "function f() \x7b if (process.env.NODE_ENV === 'test') \x7b var [a, b] = c; \x7d " ++
    "for (var i in d) \x7b var a; \x7d \x7d"

def assigned : String := "if (process.env.NODE_ENV === 'test') \x7b var a; \x7d a = 1;"

/-- The names of all scopes of a script are these before it is rewritten, and those afterwards. -/
def renames (source : String) (before after : List (List String)) : Bool :=
  Polling.rewrites source fun program bound _ =>
    program.scopes.map Script.Node.varNames == before &&
      bound.scopes.map Script.Node.varNames == after

theorem renames_spec {source : String} {before after : List (List String)}
    (h : renames source before after) : ∃ program bound c,
      Script.parse true source = .ok program ∧
      (Build.bindProgram Polling.plan
        (Build.includeModule Polling.plan default 1 (.ofString "/")) program : Build _).run.run
          .empty = (.ok bound, c) ∧
      program.scopes.map Script.Node.varNames = before ∧
      bound.scopes.map Script.Node.varNames = after := by
  obtain ⟨program, bound, c, read, ran, names⟩ := Polling.rewrites_spec h
  obtain ⟨first, second⟩ := Bool.and_eq_true_iff.mp names
  exact ⟨program, bound, c, read, ran, beq_iff_eq.mp first, beq_iff_eq.mp second⟩

end Hoisted

namespace Build

/-- Once a program is pruned its scopes are those that it had outside the dropped branches, in their
order, and what is declared by `var` in each is what was declared in it outside the dropped branches.
So it is in the program that comes of a walk. -/
theorem vars_outside_dropped (plan : Plan) (program : Script.Node) :
    List.Forall₂ (Script.Node.KeepsVars plan.env) (program.keptScopes plan.env)
        (program.live plan.env).scopes ∧
      ∀ d depth base c bound c',
        (bindProgram plan (includeModule plan d depth base) program : Build _).run.run c =
          (.ok bound, c') →
        List.Forall₂ (Script.Node.KeepsVars plan.env) (program.keptScopes plan.env)
          bound.scopes := by
  have pruned := Script.Node.keepsVars_scopes plan.env program
  refine ⟨pruned, fun d depth base c bound c' ran => ?_⟩
  rw [bindProgram_eq] at ran
  obtain ⟨answers, -, rfl⟩ := run_map_ok ran
  have filled := Script.Node.forall₂_scopes_fill (program.live plan.env) answers
  rw [Script.Node.scopes_live, List.forall₂_map_left_iff] at filled
  have scopes : ∀ scope ∈ program.keptScopes plan.env, scope.form.isScope := fun _ mem =>
    Script.Node.wanted_of_mem ((Script.Node.searchKept_sublist rfl _ program).subset mem)
  refine ((List.forall₂_and_left _ _).mpr ⟨scopes, filled⟩).imp ?_
  rintro scope after ⟨isScope, rest, rfl⟩
  have kept := Script.Node.keepsVars_live plan.env scope
  exact kept.fill (kept.form ▸ isScope) rest

set_option maxRecDepth 100000 in
theorem vars_outside_dropped_function : ∃ program bound c,
    Script.parse true Hoisted.function = .ok program ∧
    (bindProgram Polling.plan (includeModule Polling.plan default 1 (.ofString "/")) program :
      Build _).run.run .empty = (.ok bound, c) ∧
    List.Forall₂ (Script.Node.KeepsVars Polling.plan.env) (program.keptScopes Polling.plan.env)
      bound.scopes ∧
    program.scopes.map Script.Node.varNames = [[], ["a", "b", "i", "a"]] ∧
    bound.scopes.map Script.Node.varNames = [[], ["i", "a"]] := by
  have names : Hoisted.renames Hoisted.function [[], ["a", "b", "i", "a"]] [[], ["i", "a"]] := by
    decide +kernel
  obtain ⟨program, bound, c, read, ran, before, after⟩ := Hoisted.renames_spec names
  exact ⟨program, bound, c, read, ran, (vars_outside_dropped _ program).2 _ _ _ _ _ _ ran, before, after⟩

set_option maxRecDepth 100000 in
/-- A name that is declared in a dropped branch only is declared no more, though it is still
assigned to. -/
theorem not_vars_kept : ∃ program bound c,
    Script.parse true Hoisted.assigned = .ok program ∧
    (bindProgram Polling.plan (includeModule Polling.plan default 1 (.ofString "/")) program :
      Build _).run.run .empty = (.ok bound, c) ∧
    program.scopes.map Script.Node.varNames = [["a"]] ∧
    bound.scopes.map Script.Node.varNames = [[]] := by
  have names : Hoisted.renames Hoisted.assigned [["a"]] [[]] := by decide +kernel
  exact Hoisted.renames_spec names

end Build

end Bundler
