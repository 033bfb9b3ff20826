import Bundler.Script.Parse.Declaration

/-! Statements. -/

namespace Bundler.Script.Grammar

open Bundler.Script.Parser

def condition (parse : Grammar) (scope : Scope) : Parser Node := do
  expectMark "("
  let test ← parse scope.allowIn .expression
  expectMark ")"
  return test

def alone (parse : Grammar) (scope : Scope) : Parser Node := parse scope (.statement true)

def ifTail (parse : Grammar) (scope : Scope) : Parser Node := do
  let test ← condition parse scope
  let consequent ← alone parse scope
  let alternate ← if ← takeWord "else" then alone parse scope else pure .absent
  return .of .ifElse [test, consequent, alternate]

def expressionUnless (parse : Grammar) (scope : Scope) (closing : String) : Parser Node := do
  if ← atMark closing then return .absent else parse scope .expression

def countingTail (parse : Grammar) (scope : Scope) (start : Node) : Parser Node := do
  expectMark ";"
  let test ← expressionUnless parse scope.allowIn ";"
  expectMark ";"
  let step ← expressionUnless parse scope.allowIn ")"
  expectMark ")"
  let body ← alone parse scope
  return .of .forLoop [start, test, step, body]

def iteratingTail (parse : Grammar) (scope : Scope) (isAwait : Bool) (left : Node) :
    Parser Node := do
  if ← takeWord "of" then
    let right ← parse scope.allowIn .assignment
    expectMark ")"
    return .of (.forOf isAwait) [left, right, ← alone parse scope]
  else
    expectWord "in"
    if isAwait then fail
    let right ← parse scope.allowIn .expression
    expectMark ")"
    return .of .forIn [left, right, ← alone parse scope]

def atIterating : Parser Bool := return (← atWord "of") || (← atWord "in")

def forTail (parse : Grammar) (scope : Scope) : Parser Node := do
  let isAwait ← if scope.awaits then takeWord "await" else pure false
  expectMark "("
  let inner := scope.forbidIn
  if ← atMark ";" then
    if isAwait then fail
    countingTail parse scope .absent
  else
    match ← declarationKind scope false with
    | some kind =>
      let items ← declarators parse inner
      let declaration := Node.of (.declare kind) items
      if ← atIterating then
        iteratingTail parse scope isAwait declaration
      else
        if isAwait || items.any (lacksValue kind) then fail
        countingTail parse scope declaration
    | none =>
      let start ← parse inner .expression
      if ← atIterating then
        iteratingTail parse scope isAwait (← lift start.target?)
      else
        if isAwait then fail
        countingTail parse scope start

def doTail (parse : Grammar) (scope : Scope) : Parser Node := do
  let body ← alone parse scope
  expectWord "while"
  let test ← condition parse scope
  let _ ← takeMark ";"
  return .of .doLoop [body, test]

def switchCase (parse : Grammar) (scope : Scope) : Parser Node := do
  let test ← if ← takeWord "default" then pure .absent else
      expectWord "case"
      parse scope.allowIn .expression
  expectMark ":"
  let items ← many
    (return !((← atMark "\x7d") || (← atWord "case") || (← atWord "default")))
    (parse scope.allowIn (.statement false))
  return .of .case (test :: items)

def switchTail (parse : Grammar) (scope : Scope) : Parser Node := do
  let value ← condition parse scope
  expectMark "\x7b"
  let cases ← many (return !(← atMark "\x7d")) (switchCase parse scope)
  expectMark "\x7d"
  return .of .switch (value :: cases)

def tryTail (parse : Grammar) (scope : Scope) : Parser Node := do
  let body ← block parse scope
  let caught ← if ← takeWord "catch" then do
      let binding ← if ← takeMark "(" then do
          let p ← parse scope .pattern
          expectMark ")"
          pure p
        else pure .absent
      pure (.of .handler [binding, ← block parse scope])
    else pure .absent
  let final ← if ← takeWord "finally" then block parse scope else pure .absent
  if caught.isAbsent && final.isAbsent then fail
  return .of .try_ [body, caught, final]

def jumpLabel (scope : Scope) : Parser (Option String) := do
  if !(← afterBreak) && (← atIdentifier scope) then return some (← identifierName scope)
  else return none

def atStatementEnd : Parser Bool :=
  return (← atMark ";") || (← atMark "\x7d") || (← token) == .ending || (← afterBreak)

def expressionStatement (parse : Grammar) (scope : Scope) : Parser Node := do
  let value ← parse scope .expression
  match value.form with
  | .identifier name =>
    if ← takeMark ":" then return .of (.labeled name) [← alone parse scope]
    else
      endStatement
      return .of .evaluate [value]
  | _ =>
    endStatement
    return .of .evaluate [value]

def wordStatement (parse : Grammar) (scope : Scope) (isAlone : Bool) (word : String) :
    Option (Parser Node) :=
  match word with
  | "if" => some (ifTail parse scope)
  | "for" => some (forTail parse scope)
  | "while" => some do
    let test ← condition parse scope
    return .of .whileLoop [test, ← alone parse scope]
  | "do" => some (doTail parse scope)
  | "with" => some do
    let object ← condition parse scope
    return .of .withScope [object, ← alone parse scope]
  | "switch" => some (switchTail parse scope)
  | "try" => some (tryTail parse scope)
  | "function" => some do
    if isAlone && (← atMark "*") then fail
    functionTail parse scope false true true
  | "class" => some do
    if isAlone then fail
    classTail parse scope true false
  | "break" => some do
    let label ← jumpLabel scope
    endStatement
    return .leaf (.break_ label)
  | "continue" => some do
    let label ← jumpLabel scope
    endStatement
    return .leaf (.continue_ label)
  | "return" => some do
    unless scope.returns do fail
    let value ← if ← atStatementEnd then pure .absent else parse scope .expression
    endStatement
    return .of .return_ [value]
  | "throw" => some do
    if ← afterBreak then fail
    let value ← parse scope .expression
    endStatement
    return .of .throw_ [value]
  | "debugger" => some do
    endStatement
    return .leaf .debugger
  | "export" => some (exportDeclaration parse scope)
  | _ => none

/-- A statement whose first word means something else before other tokens, or an expression. -/
def otherStatement (parse : Grammar) (scope : Scope) (isAlone : Bool) : Parser Node := do
  match ← declarationKind scope isAlone with
  | some kind =>
    let declaration ← declareTail parse scope kind
    endStatement
    return declaration
  | none =>
    let (next, lineBreak) ← peek
    if (← atWord "async") && next == .name "function" false && !lineBreak then
      if isAlone then fail
      advance
      advance
      functionTail parse scope true true true
    else if (← atWord "import") && next != .mark "(" && next != .mark "." then
      advance
      importDeclaration scope
    else expressionStatement parse scope

def statementAt (parse : Grammar) (scope : Scope) (isAlone : Bool) : Parser Node := do
  match ← token with
  | .mark "\x7b" => block parse scope
  | .mark ";" =>
    advance
    return .leaf .empty
  | .name word false =>
    match wordStatement parse scope isAlone word with
    | some rule =>
      advance
      rule
    | none => otherStatement parse scope isAlone
  | _ => expressionStatement parse scope

def statement (parse : Grammar) (scope : Scope) (isAlone : Bool) : Parser Node := do
  let leading ← notes
  return (← statementAt parse scope.allowIn isAlone).withNotes leading

end Bundler.Script.Grammar
