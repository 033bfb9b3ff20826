import Bundler.Script.Parse.Function

/-! Expressions, from the literals up to assignments and comma lists. -/

namespace Bundler.Script.Grammar

open Bundler.Script.Parser

def objectItem (parse : Grammar) (scope : Scope) : Parser Node := do
  let scope := scope.allowIn
  if ← takeMark "..." then
    return .of (.spread false) [← parse scope .assignment]
  else
    let m ← modifiers false
    let first ← token
    let (key, isComputed) ← propertyKey parse scope
    if ← atMark "(" then methodTail parse m key isComputed
    else if m.role != .plain || m.isAsync || m.isGenerator then fail
    else if ← takeMark ":" then
      return .of (.property isComputed false) [key, ← parse scope .assignment]
    else
      match first with
      | .name text _ =>
        unless nameable scope text do fail
        let value := Node.leaf (.identifier text)
        if ← takeMark "=" then
          let given ← parse scope .assignment
          return .of (.property false true) [key, .of .shorthandDefault [value, given]]
        else return .of (.property false true) [key, value]
      | _ => fail

def objectLiteral (parse : Grammar) (scope : Scope) : Parser Node := do
  expectMark "\x7b"
  let (items, trailing) ← commaList "\x7d" (objectItem parse scope)
  expectMark "\x7d"
  return .of .object (if trailing then items.map Node.followed else items)

def arrayItem (parse : Grammar) (scope : Scope) : Parser Node := do
  if ← takeMark "," then return .leaf .hole
  else
    let element ← if ← takeMark "..." then
        pure (.of (.spread false) [← parse scope.allowIn .assignment])
      else parse scope.allowIn .assignment
    let comma ← takeMark ","
    unless comma || (← atMark "]") do fail
    return if comma then element.followed else element

def arrayLiteral (parse : Grammar) (scope : Scope) : Parser Node := do
  expectMark "["
  let items ← many (return !(← atMark "]")) (arrayItem parse scope)
  expectMark "]"
  return .of .array items

/-- The substitutions of a template and the texts after them; `rounds` bounds their number. -/
def templateRest (parse : Grammar) (scope : Scope) : Nat → Parser (List Node × List Quasi)
  | 0 => throw .tooDeep
  | rounds + 1 => do
    let value ← parse scope.allowIn .expression
    let cursor ← get
    unless cursor.token == .mark "\x7d" do fail
    match Token.templateFrom (cursor.here.drop 1) with
    | some (.template raw cooked isLast, rest) =>
      moveTo (.template raw cooked isLast) rest
      if isLast then return ([value], [⟨raw, cooked⟩])
      else
        let (values, quasis) ← templateRest parse scope rounds
        return (value :: values, ⟨raw, cooked⟩ :: quasis)
    | _ => fail

def template (parse : Grammar) (scope : Scope) (isTagged : Bool) : Parser Node := do
  match ← token with
  | .template raw cooked isLast =>
    advance
    let (values, quasis) ← if isLast then pure ([], []) else do
      templateRest parse scope (← roundsLeft)
    let quasis := ⟨raw, cooked⟩ :: quasis
    unless isTagged || quasis.all (·.cooked.isSome) do fail
    return .of (.template quasis) values
  | _ => fail

def regex : Parser Node := do
  let cursor ← get
  match Token.readRegex (cursor.here.drop 1) with
  | none => fail
  | some (body, flags, rest) =>
    moveTo (.mark "/") rest
    return .leaf (.regex body flags)

def callArguments (parse : Grammar) (scope : Scope) : Parser (List Node × List Comment) := do
  expectMark "("
  let (items, trailing) ← commaList ")" do
    let leading ← notes
    let item ← if ← takeMark "..." then
        pure (Node.of (.spread false) [← parse scope.allowIn .assignment])
      else parse scope.allowIn .assignment
    return item.withNotes leading
  let closing ← notes
  expectMark ")"
  return (if trailing then items.map Node.followed else items, closing)

def parenthesised (parse : Grammar) (scope : Scope) : Parser Node := do
  expectMark "("
  let (items, trailing) ← commaList ")" do
    if ← takeMark "..." then
      let target ← parse scope.allowIn .assignment
      unless ← atMark ")" do fail
      return Node.of (.spread false) [target]
    else parse scope.allowIn .assignment
  expectMark ")"
  if ← atMark "=>" then return .of (.arrowHead false) items
  else if trailing || items.any fun n => n.form == .spread false then fail
  else
    match items with
    | [] => fail
    | [item] => return .of .paren [item]
    | _ => return .of .paren [.of .sequence items]

def importTail (parse : Grammar) (scope : Scope) : Parser Node := do
  if ← takeMark "." then
    expectWord "meta"
    return .leaf (.metaProperty "import" "meta")
  else
    expectMark "("
    let source ← parse scope.allowIn .assignment
    let options ← if (← takeMark ",") && !(← atMark ")") then
        let options ← parse scope.allowIn .assignment
        let _ ← takeMark ","
        pure options
      else pure .absent
    expectMark ")"
    return .of .importCall [source, options]

/-- From after the word `async`, which is a name unless a function follows on the same line. -/
def asyncTail (parse : Grammar) (scope : Scope) : Parser Node := do
  if ← afterBreak then return .leaf (.identifier "async")
  else if ← takeWord "function" then functionTail parse scope true false false
  else if ← atIdentifier { scope with awaits := true } then
    let parameter ← identifier { scope with awaits := true }
    unless (← atMark "=>") && !(← afterBreak) do fail
    return .of (.arrowHead true) [parameter]
  else return .leaf (.identifier "async")

/-- The links of a member chain: properties, calls and tagged templates. Also whether one of them
is optional. `rounds` bounds their number. -/
def links (parse : Grammar) (scope : Scope) (mayCall : Bool) :
    Nat → Node → Bool → Parser (Node × Bool)
  | 0, _, _ => throw .tooDeep
  | rounds + 1, base, isOptional => do
    let again (n : Node) (o : Bool) := links parse scope mayCall rounds n o
    match ← token with
    | .mark "." =>
      advance
      match ← token with
      | .name text _ | .privateName text =>
        advance
        again (.of (.member text false) [base]) isOptional
      | _ => fail
    | .mark "?." =>
      unless mayCall do fail
      advance
      match ← token with
      | .name text _ | .privateName text =>
        advance
        again (.of (.member text true) [base]) true
      | .mark "[" =>
        advance
        let key ← parse scope.allowIn .expression
        expectMark "]"
        again (.of (.index true) [base, key]) true
      | .mark "(" =>
        let (args, closing) ← callArguments parse scope
        again (.of (.call true closing) (base :: args)) true
      | _ => fail
    | .mark "[" =>
      advance
      let key ← parse scope.allowIn .expression
      expectMark "]"
      again (.of (.index false) [base, key]) isOptional
    | .mark "(" =>
      if mayCall then
        let mayHead := base.form == .identifier "async" && !(← afterBreak)
        let (args, closing) ← callArguments parse scope
        if mayHead && (← atMark "=>") then return (.of (.arrowHead true) args, false)
        else again (.of (.call false closing) (base :: args)) isOptional
      else return (base, isOptional)
    | .template _ _ _ =>
      if isOptional then fail
      else
        let quasi ← template parse scope true
        again (.of .tagged [base, quasi]) false
    | _ => return (base, isOptional)

def newTail (parse : Grammar) (scope : Scope) : Parser Node := do
  if ← takeMark "." then
    expectWord "target"
    return .leaf (.metaProperty "new" "target")
  else
    let callee ← parse scope .constructed
    if ← atMark "(" then
      let (args, closing) ← callArguments parse scope
      return .of (.construct closing) (callee :: args)
    else return .of (.construct []) [callee]

def chained (parse : Grammar) (scope : Scope) (base : Node) : Parser Node := do
  let (n, isOptional) ← links parse scope true (← roundsLeft) base false
  return if isOptional then .of .chain [n] else n

def primaryWord (parse : Grammar) (scope : Scope) (word : String) : Parser Node := do
  match word with
  | "this" =>
    advance
    return .leaf .this
  | "null" =>
    advance
    return .leaf .null
  | "true" =>
    advance
    return .leaf (.boolean true)
  | "false" =>
    advance
    return .leaf (.boolean false)
  | "function" =>
    advance
    functionTail parse scope false false false
  | "class" =>
    advance
    classTail parse scope false false
  | "new" =>
    advance
    newTail parse scope
  | "import" =>
    advance
    importTail parse scope
  | "super" =>
    advance
    unless (← atMark "(") || (← atMark ".") || (← atMark "[") do fail
    return .leaf .super
  | "async" =>
    advance
    asyncTail parse scope
  | _ => identifier scope

def primary (parse : Grammar) (scope : Scope) : Parser Node := do
  match ← token with
  | .name text hasEscape =>
    if hasEscape then identifier scope else primaryWord parse scope text
  | .number value =>
    advance
    return .leaf (.number value)
  | .bigint digits =>
    advance
    return .leaf (.bigint digits)
  | .string value _ lone =>
    advance
    return .leaf (.string value lone)
  | .template _ _ _ => template parse scope false
  | .mark "(" => parenthesised parse scope
  | .mark "[" => arrayLiteral parse scope
  | .mark "\x7b" => objectLiteral parse scope
  | .mark "/" | .mark "/=" => regex
  | _ => fail

def leftSide (parse : Grammar) (scope : Scope) : Parser Node := do
  let base ← primary parse scope
  match base.form with
  | .arrowHead _ => return base
  | _ => chained parse scope base

def constructed (parse : Grammar) (scope : Scope) : Parser Node := do
  if ← atWord "import" then fail
  let base ← primary parse scope
  match base.form with
  | .arrowHead _ => fail
  | _ =>
    let (n, _) ← links parse scope false (← roundsLeft) base false
    return n

def stepOp? : Token → Option StepOp
  | .mark "++" => some .increment
  | .mark "--" => some .decrement
  | _ => none

def unaryOp? : Token → Option UnaryOp
  | .mark text => UnaryOp.ofText? text
  | .name text false => UnaryOp.ofText? text
  | _ => none

def unary (parse : Grammar) (scope : Scope) : Parser Node := do
  let here ← token
  match unaryOp? here, stepOp? here with
  | some op, _ =>
    advance
    return .of (.unary op) [← parse scope .unary]
  | none, some op =>
    advance
    let operand ← parse scope .unary
    return .of (.step op true) [← lift operand.simpleTarget?]
  | none, none =>
    if scope.awaits && here == .name "await" false then
      advance
      return .of .await [← parse scope .unary]
    else
      let operand ← parse scope .leftSide
      match stepOp? (← token) with
      | some op =>
        if ← afterBreak then return operand
        else
          advance
          return .of (.step op false) [← lift operand.simpleTarget?]
      | none => return operand

def binaryOp? (scope : Scope) : Token → Option BinaryOp
  | .mark text => BinaryOp.ofText? text
  | .name "in" false => if scope.hasIn then some .isIn else none
  | .name "instanceof" false => some .isInstance
  | _ => none

def isCoalesce (n : Node) : Bool := n.form == .binary .coalesce

def isAndOr (n : Node) : Bool := n.form == .binary .and || n.form == .binary .or

/-- `??` does not mix with `&&` and `||`, and a power has no unary operator on its left. -/
def mayJoin (op : BinaryOp) (left right : Node) : Bool :=
  match op with
  | .coalesce => !isAndOr left && !isAndOr right
  | .and | .or => !isCoalesce left && !isCoalesce right
  | .power =>
    match left.form with
    | .unary _ | .await => false
    | _ => true
  | _ => true

def binaryRest (parse : Grammar) (scope : Scope) (floor : Precedence) : Nat → Node → Parser Node
  | 0, _ => throw .tooDeep
  | rounds + 1, left => do
    match binaryOp? scope (← token) with
    | none => return left
    | some op =>
      if op.precedence ≤ floor then return left
      else
        advance
        let level := if op.groupsRight then op.precedence.looser else op.precedence
        let right ← parse scope (.binary level)
        unless mayJoin op left right do fail
        binaryRest parse scope floor rounds (.of (.binary op) [left, right])

def binary (parse : Grammar) (scope : Scope) (floor : Precedence) : Parser Node := do
  match ← token with
  | .privateName text =>
    advance
    unless binaryOp? scope (← token) == some .isIn &&
        floor.rank < Precedence.comparison.rank do fail
    binaryRest parse scope floor (← roundsLeft) (.leaf (.privateName text))
  | _ =>
    let left ← parse scope .unary
    binaryRest parse scope floor (← roundsLeft) left

def conditional (parse : Grammar) (scope : Scope) : Parser Node := do
  let test ← parse scope (.binary .conditional)
  if ← takeMark "?" then
    let consequent ← parse scope.allowIn .assignment
    expectMark ":"
    let alternate ← parse scope .assignment
    return .of .conditional [test, consequent, alternate]
  else return test

/-- The operator of an assignment: none for `=`, otherwise the one that is combined with it. -/
def assignOp? : Token → Option (Option BinaryOp)
  | .mark "=" => some none
  | .mark text => (BinaryOp.all.find? fun op => op.assigns && op.text ++ "=" == text).map some
  | _ => none

def arrowTail (parse : Grammar) (scope : Scope) (isAsync : Bool) (parameters : Node) :
    Parser Node := do
  if ← afterBreak then fail
  expectMark "=>"
  let inner := scope.arrow isAsync
  let body ← if ← atMark "\x7b" then functionBody parse inner
    else parse { inner with returns := scope.returns } .assignment
  return .of (.arrow isAsync) [parameters, body]

def yieldTail (parse : Grammar) (scope : Scope) : Parser Node := do
  if ← afterBreak then return .of (.yield false) [.absent]
  else if ← takeMark "*" then return .of (.yield true) [← parse scope .assignment]
  else
    match ← token with
    | .ending => return .of (.yield false) [.absent]
    | .mark text =>
      if [")", "]", "\x7d", ",", ";", ":"].contains text then return .of (.yield false) [.absent]
      else return .of (.yield false) [← parse scope .assignment]
    | .name "in" false => return .of (.yield false) [.absent]
    | _ => return .of (.yield false) [← parse scope .assignment]

def assignment (parse : Grammar) (scope : Scope) : Parser Node := do
  if scope.yields && (← atWord "yield") then
    advance
    yieldTail parse scope
  else
    let left ← conditional parse scope
    match left.form, ← token with
    | .arrowHead isAsync, .mark "=>" =>
      arrowTail parse scope isAsync (← lift (Node.parameters? isAsync left.parts))
    | .identifier _, .mark "=>" => arrowTail parse scope false (.of .parameters [left])
    | _, here =>
      match assignOp? here with
      | none => return left
      | some op =>
        let target ← lift (if op.isNone then left.target? else left.simpleTarget?)
        advance
        let value ← parse scope .assignment
        return .of (.assign op) [target, value]

def expression (parse : Grammar) (scope : Scope) : Parser Node := do
  let first ← parse scope .assignment
  let more ← many (takeMark ",") (parse scope .assignment)
  return if more.isEmpty then first else .of .sequence (first :: more)

end Bundler.Script.Grammar
