import Bundler.Script.Node

/-! What was read as an expression, taken again as what an assignment, a loop or an arrow binds:
the text `[a, { b = 1 }]` means a list at first and a pattern once `=` or `=>` follows. -/

namespace Bundler.Script.Node

def simpleTarget? : Node → Option Node
  | ⟨.paren, notes, [inner]⟩ => inner.simpleTarget?.map fun n => ⟨.paren, notes, [n]⟩
  | ⟨.identifier name, notes, parts⟩ => some ⟨.identifier name, notes, parts⟩
  | ⟨.member name false, notes, parts⟩ => some ⟨.member name false, notes, parts⟩
  | ⟨.index false, notes, parts⟩ => some ⟨.index false, notes, parts⟩
  | _ => none

mutual

/-- The pattern that an expression reads as; only an element of another pattern can be left out or
have a default value. -/
def targetWithin? (isElement : Bool) : Node → Option Node
  | ⟨.array, notes, parts⟩ => (elementTargets? parts).map fun ps => ⟨.arrayPattern, notes, ps⟩
  | ⟨.object, notes, parts⟩ => (propertyTargets? parts).map fun ps => ⟨.objectPattern, notes, ps⟩
  | ⟨.hole, notes, parts⟩ => if isElement then some ⟨.hole, notes, parts⟩ else none
  | ⟨.assign none, notes, parts⟩ => if isElement then some ⟨.defaulted, notes, parts⟩ else none
  | n => n.simpleTarget?

/-- A spread becomes the rest of the pattern and must come last, with no comma after it. -/
def elementTargets? : List Node → Option (List Node)
  | [] => some []
  | [⟨.spread false, notes, [inner]⟩] =>
    (inner.targetWithin? false).map fun p => [⟨.rest, notes, [p]⟩]
  | n :: rest => do
    let p ← n.targetWithin? true
    let ps ← elementTargets? rest
    some (p :: ps)

def propertyTarget? : Node → Option Node
  | ⟨.property isComputed isShorthand, notes, [key, ⟨.shorthandDefault, _, parts⟩]⟩ =>
    some ⟨.patternProperty isComputed isShorthand, notes, [key, ⟨.defaulted, [], parts⟩]⟩
  | ⟨.property isComputed isShorthand, notes, [key, value]⟩ =>
    (value.targetWithin? true).map fun p =>
      ⟨.patternProperty isComputed isShorthand, notes, [key, p]⟩
  | _ => none

def propertyTargets? : List Node → Option (List Node)
  | [] => some []
  | [⟨.spread false, notes, [inner]⟩] => inner.simpleTarget?.map fun p => [⟨.rest, notes, [p]⟩]
  | n :: rest => do
    let p ← n.propertyTarget?
    let ps ← propertyTargets? rest
    some (p :: ps)

end

def target? (n : Node) : Option Node := n.targetWithin? false

def boundName? : Node → Option String
  | ⟨.identifier name, _, _⟩ => some name
  | ⟨.defaulted, _, [⟨.identifier name, _, _⟩, _]⟩ => some name
  | _ => none

def bindingProperty (isComputed isShorthand : Bool) (key value : Node) : Form :=
  match key.form with
  | .keyName name => .patternProperty isComputed (isShorthand || value.boundName? == some name)
  | _ => .patternProperty isComputed isShorthand

mutual

/-- A target that introduces names has names alone at its leaves, and none in parentheses. -/
def binding? : Node → Option Node
  | ⟨.identifier name, notes, parts⟩ => some ⟨.identifier name, notes, parts⟩
  | ⟨.hole, notes, parts⟩ => some ⟨.hole, notes, parts⟩
  | ⟨.defaulted, notes, [inner, value]⟩ =>
    inner.binding?.map fun p => ⟨.defaulted, notes, [p, value]⟩
  | ⟨.rest, notes, [inner]⟩ => inner.binding?.map fun p => ⟨.rest, notes, [p]⟩
  | ⟨.arrayPattern, notes, parts⟩ => (bindings? parts).map fun ps => ⟨.arrayPattern, notes, ps⟩
  | ⟨.objectPattern, notes, parts⟩ => (bindings? parts).map fun ps => ⟨.objectPattern, notes, ps⟩
  | ⟨.patternProperty isComputed isShorthand, notes, [key, value]⟩ =>
    value.binding?.map fun p => ⟨bindingProperty isComputed isShorthand key p, notes, [key, p]⟩
  | _ => none

def bindings? : List Node → Option (List Node)
  | [] => some []
  | n :: rest => do
    let p ← n.binding?
    let ps ← bindings? rest
    some (p :: ps)

end

def usesAwait : Node → Bool :=
  fold fun n below =>
    match n.form with
    | .identifier name => name == "await"
    | .function _ _ _ _ | .method _ _ _ _ _ => false
    | _ => below.any id

/-- The parameters that a parenthesised list before an arrow stands for. Those of an asynchronous
function use no variable named `await`. -/
def parameters? (isAsync : Bool) (items : List Node) : Option Node := do
  let targets ← elementTargets? items
  if (targets.any fun n => n.form == .hole) || (isAsync && items.any usesAwait) then none
  else
    let patterns ← bindings? targets
    some (of .parameters patterns)

/-- Whether some part was read in the hope of an assignment or an arrow that did not come. -/
def isUnfinished : Node → Bool :=
  any fun n =>
    match n.form with
    | .arrowHead _ | .shorthandDefault => true
    | _ => false

end Bundler.Script.Node
