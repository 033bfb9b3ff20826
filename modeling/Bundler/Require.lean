import Bundler.Digest
import Bundler.Guard

/-! Calls that require a module by a fixed specifier. One walk settles the guards of a program and
turns these calls into calls of module bindings; it remembers the first failure and leaves the rest
alone. The same in two steps is to prune the program first and to visit its calls afterwards. -/

namespace Bundler.Script

inductive Slot where
  /-- in a list of statements, in which one may be missing -/
  | listed
  /-- where there is one statement, such as the body of a loop -/
  | single
  /-- where no statement stands -/
  | inner
  deriving DecidableEq, Repr

def Form.slot : Form → Slot
  | .program _ _ | .body _ | .block | .case | .staticBlock => .listed
  | .ifElse | .forLoop | .forIn | .forOf _ | .whileLoop | .doLoop | .withScope | .labeled _ =>
    .single
  | _ => .inner

namespace Node

def requireSpecifier? : Node → Option String
  | ⟨.call _ _, _, [⟨.identifier "require", _, []⟩, ⟨.string specifier _, _, []⟩]⟩ =>
    some specifier
  | _ => none

def bindTo (id : ContentId) : Node → Node
  | ⟨form, notes, ⟨.identifier _, calleeNotes, parts⟩ :: _⟩ =>
    ⟨form, notes, [⟨.identifier id.binding, calleeNotes, parts⟩]⟩
  | n => n

def answered (target : Option ContentId) (call : Node) : Node :=
  match target with
  | some id => bindTo id call
  | none => call

/-- Put the remains of one part before those of the rest. A statement that is gone leaves a list,
and an empty statement anywhere else. -/
def keep (slot : Slot) (first : Option Node) (rest : List Node) : List Node :=
  match first with
  | some n => n :: rest
  | none => if slot = .listed then rest else leaf .empty :: rest

def verdict (env : String) (slot : Slot) (test : Node) : Option Bool :=
  if slot = .inner then none else condition env test

mutual

/-- The tree with all its guards settled; nothing if it comes to no statement at all. -/
def pruned (env : String) (slot : Slot) : Node → Option Node
  | ⟨.ifElse, notes, [test, consequent, alternate]⟩ =>
    match verdict env slot test with
    | some true => pruned env slot consequent
    | some false => if alternate.isAbsent then none else pruned env slot alternate
    | none => some ⟨.ifElse, notes, prunedParts env .single [test, consequent, alternate]⟩
  | ⟨form, notes, parts⟩ => some ⟨form, notes, prunedParts env form.slot parts⟩

def prunedParts (env : String) (slot : Slot) : List Node → List Node
  | [] => []
  | n :: rest => keep slot (n.pruned env slot) (prunedParts env slot rest)

end

def live (env : String) (program : Node) : Node := (program.pruned env .inner).getD program

mutual

def requires : Node → List String
  | ⟨form, notes, parts⟩ =>
    match requireSpecifier? ⟨form, notes, parts⟩ with
    | some specifier => [specifier]
    | none => requiresOf parts

def requiresOf : List Node → List String
  | [] => []
  | n :: rest => n.requires ++ requiresOf rest

end

def settleInPlace (env : String) (statement : Node) : Node × Bool :=
  match settle env statement with
  | some kept => (kept, true)
  | none => (leaf .empty, false)

def settleAll (env : String) (statements : List Node) : List Node :=
  let settled := statements.map (settleInPlace env)
  let kept := settled.map (·.2)
  let statements := settled.map (·.1)
  if kept.contains false then ((statements.zip kept).filter (·.2)).map (·.1) else statements

theorem settleAll_eq (env : String) (statements : List Node) :
    settleAll env statements = statements.filterMap (settle env) := by
  have taken : ((statements.map (settleInPlace env)).filter (·.2)).map (·.1) =
      statements.filterMap (settle env) := by
    induction statements with
    | nil => rfl
    | cons n rest ih =>
      cases settled : settle env n <;>
        simpa [settleInPlace, settled, List.filterMap_cons] using ih
  have paired (settled : List (Node × Bool)) :
      (settled.map (·.1)).zip (settled.map (·.2)) = settled := by
    rw [List.zip_map', List.map_id']
  rw [settleAll]
  split
  · rw [paired, taken]
  · rename_i all
    have kept : ∀ pair ∈ statements.map (settleInPlace env), pair.2 = true := by
      simpa using all
    rw [← taken, List.filter_eq_self.mpr kept]

theorem sizeOf_settled_le (env : String) (n : Node) :
    sizeOf ((settle env n).getD (leaf .empty)) ≤ sizeOf n := by
  fun_induction settle env n with
  | case1 => simp only [mk.sizeOf_spec, List.cons.sizeOf_spec]; omega
  | case2 => simp only [Option.getD_none, leaf, of, mk.sizeOf_spec]; simp; omega
  | case3 => simp only [mk.sizeOf_spec, List.cons.sizeOf_spec]; omega
  | case4 => exact Nat.le_refl _
  | case5 => exact Nat.le_refl _

theorem sizeOf_settleInPlace_le (env : String) (n : Node) :
    sizeOf (settleInPlace env n).1 ≤ sizeOf n := by
  have h := sizeOf_settled_le env n
  unfold settleInPlace
  cases settled : settle env n <;> rwa [settled] at h

theorem sizeOf_settleAll_le (env : String) (statements : List Node) :
    sizeOf (settleAll env statements) ≤ sizeOf statements := by
  rw [settleAll_eq]
  induction statements with
  | nil => exact Nat.le_refl _
  | cons n rest ih =>
    have first := sizeOf_settled_le env n
    rw [List.filterMap_cons]
    cases settled : settle env n with
    | none => simp only [List.cons.sizeOf_spec]; omega
    | some kept =>
      rw [settled, Option.getD_some] at first
      simp only [List.cons.sizeOf_spec]
      omega

/-- A walk that remembers its first failure. After it nothing more is asked for. -/
abbrev Rewriting (ε : Type) (m : Type → Type) := StateT (Option ε) m

section

variable {ε : Type} {m : Type → Type} [Monad m] (env : String)
  (ask : String → m (Except ε (Option ContentId)))

def rewriteCall (specifier : String) (call : Node) : Rewriting ε m Node := do
  match ← ask specifier with
  | .ok target => return answered target call
  | .error e =>
    set (some e)
    return call

mutual

def visitStatements (statements : List Node) : Rewriting ε m (List Node) := do
  if (← get).isSome then return statements
  else visitEach .listed (settleAll env statements)
  termination_by 3 * sizeOf statements + 1
  decreasing_by
    have := sizeOf_settleAll_le env statements
    omega

/-- A statement is settled when it is visited, also in a list where that has been done. -/
def visitStatement (statement : Node) : Rewriting ε m Node := do
  if (← get).isSome then return statement
  else visitNode (settleInPlace env statement).1
  termination_by 3 * sizeOf statement + 2
  decreasing_by
    have := sizeOf_settleInPlace_le env statement
    omega

def visitNode : Node → Rewriting ε m Node
  | ⟨.call isOptional closing, notes, parts⟩ => do
    if (← get).isSome then return ⟨.call isOptional closing, notes, parts⟩
    else
      match requireSpecifier? ⟨.call isOptional closing, notes, parts⟩ with
      | some specifier => rewriteCall ask specifier ⟨.call isOptional closing, notes, parts⟩
      | none =>
        let parts ← visitEach .inner parts
        return ⟨.call isOptional closing, notes, parts⟩
  | ⟨form, notes, parts⟩ => do
    let parts ←
      (if form.slot = .listed then visitStatements parts else visitEach form.slot parts)
    return ⟨form, notes, parts⟩
  termination_by n => 3 * sizeOf n + 1
  decreasing_by all_goals simp only [mk.sizeOf_spec]; omega

/-- The parts of a node one after the other. What stands beside a single statement, such as the
test of a loop, is no guard, and to settle it changes nothing. -/
def visitEach (slot : Slot) : List Node → Rewriting ε m (List Node)
  | [] => return []
  | n :: rest => do
    let first ← (if slot = .inner then visitNode n else visitStatement n)
    let rest ← visitEach slot rest
    return first :: rest
  termination_by parts => 3 * sizeOf parts
  decreasing_by all_goals simp only [List.cons.sizeOf_spec]; omega

end

end

end Node

end Bundler.Script
