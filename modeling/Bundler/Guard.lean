import Bundler.Script.Node

/-! Guards: `if` statements that compare `process.env.NODE_ENV` with a fixed text. For a known
environment a guard is decided, and the branch that would run stands for the whole. -/

namespace Bundler.Script.Node

def isEnvironment : Node → Bool
  | ⟨.member "NODE_ENV" false, _, [object]⟩ =>
    match object.bare with
    | ⟨.member "env" false, _, [⟨.identifier "process", _, _⟩]⟩ => true
    | _ => false
  | _ => false

def fixedText? : Node → Option String
  | ⟨.string value _, _, _⟩ => some value
  | ⟨.template [quasi], _, []⟩ => quasi.cooked
  | _ => none

/-- Whether an operator compares for equality, and if so whether it asks for a difference. -/
def comparison? : BinaryOp → Option Bool
  | .equal | .identical => some false
  | .notEqual | .notIdentical => some true
  | _ => none

/-- What a test comes to in an environment, if it compares the environment with a fixed text. -/
def condition (env : String) (test : Node) : Option Bool :=
  match test.bare with
  | ⟨.binary op, _, [left, right]⟩ =>
    match comparison? op with
    | none => none
    | some isNegated =>
      let left := left.bare
      let right := right.bare
      let text :=
        if left.isEnvironment then right.fixedText?
        else if right.isEnvironment then left.fixedText?
        else none
      text.map fun t => (t == env) != isNegated
  | _ => none

inductive Pruned where
  | unchanged (statement : Node)
  | replaced (branch : Node)
  | removed

def pruneOnce (env : String) (statement : Node) : Pruned :=
  match statement with
  | ⟨.ifElse, notes, [test, consequent, alternate]⟩ =>
    match condition env test with
    | some true => .replaced consequent
    | some false => if alternate.isAbsent then .removed else .replaced alternate
    | none => .unchanged ⟨.ifElse, notes, [test, consequent, alternate]⟩
  | n => .unchanged n

def settle (env : String) : Node → Option Node
  | ⟨.ifElse, notes, [test, consequent, alternate]⟩ =>
    match condition env test with
    | some true => settle env consequent
    | some false => if alternate.isAbsent then none else settle env alternate
    | none => some ⟨.ifElse, notes, [test, consequent, alternate]⟩
  | n => some n

end Bundler.Script.Node
