import Bundler.Script.Parse.Goal

/-! Binding patterns, parameters, function bodies, and the members of classes and objects. -/

namespace Bundler.Script.Grammar

open Bundler.Script.Parser

def propertyKey (parse : Grammar) (scope : Scope) : Parser (Node × Bool) := do
  match ← token with
  | .name text _ =>
    advance
    return (.leaf (.keyName text), false)
  | .privateName text =>
    advance
    return (.leaf (.privateName text), false)
  | .string value _ lone =>
    advance
    return (.leaf (.string value lone), false)
  | .number value =>
    advance
    return (.leaf (.number value), false)
  | .bigint digits =>
    advance
    return (.leaf (.bigint digits), false)
  | .mark "[" =>
    advance
    let key ← parse scope.allowIn .assignment
    expectMark "]"
    return (key, true)
  | _ => fail

def patternElement (parse : Grammar) (scope : Scope) : Parser Node := do
  let target ← parse scope .pattern
  if ← takeMark "=" then
    let value ← parse scope.allowIn .assignment
    return .of .defaulted [target, value]
  else return target

def restElement (target : Parser Node) (closing : String) : Parser Node := do
  expectMark "..."
  let target ← target
  unless ← atMark closing do fail
  return .of .rest [target]

def arrayPatternItem (parse : Grammar) (scope : Scope) : Parser Node := do
  if ← atMark "..." then restElement (parse scope .pattern) "]"
  else if ← takeMark "," then return .leaf .hole
  else
    let element ← patternElement parse scope
    unless (← takeMark ",") || (← atMark "]") do fail
    return element

def patternPropertyItem (parse : Grammar) (scope : Scope) : Parser Node := do
  if ← atMark "..." then restElement (identifier scope) "\x7d"
  else
    let first ← token
    let (key, isComputed) ← propertyKey parse scope
    if ← takeMark ":" then
      let value ← patternElement parse scope
      return .of (Node.bindingProperty isComputed false key value) [key, value]
    else
      match first with
      | .name text _ =>
        unless nameable scope text do fail
        let target := Node.leaf (.identifier text)
        if ← takeMark "=" then
          let value ← parse scope.allowIn .assignment
          return .of (.patternProperty false true) [key, .of .defaulted [target, value]]
        else return .of (.patternProperty false true) [key, target]
      | _ => fail

def pattern (parse : Grammar) (scope : Scope) : Parser Node := do
  if ← takeMark "[" then
    let items ← many (return !(← atMark "]")) (arrayPatternItem parse scope)
    expectMark "]"
    return .of .arrayPattern items
  else if ← takeMark "\x7b" then
    let (items, _) ← commaList "\x7d" (patternPropertyItem parse scope)
    expectMark "\x7d"
    return .of .objectPattern items
  else identifier scope

def parameters (parse : Grammar) (scope : Scope) : Parser Node := do
  expectMark "("
  let (items, _) ← commaList ")" do
    if ← atMark "..." then restElement (parse scope .pattern) ")" else patternElement parse scope
  expectMark ")"
  return .of .parameters items

/-- A string that is a statement of its own, at the start of a body, is a directive. -/
def asDirective (first : Token) (statement : Node) : Option Node :=
  match first, statement with
  | .string _ raw _, ⟨.evaluate, notes, [⟨.string _ _, _, _⟩]⟩ => some ⟨.directive raw, notes, []⟩
  | _, _ => none

def markDirectives : List (Token × Node) → List Node
  | [] => []
  | (first, statement) :: rest =>
    match asDirective first statement with
    | some directive => directive :: markDirectives rest
    | none => statement :: rest.map (·.2)

def bodyItems (parse : Grammar) (scope : Scope) (test : Parser Bool) : Parser (List Node) := do
  let items ← many test do
    let first ← token
    let statement ← parse scope (.statement false)
    return (first, statement)
  return markDirectives items

def statements (parse : Grammar) (scope : Scope) : Parser (List Node) :=
  many (return !(← atMark "\x7d")) (parse scope (.statement false))

def functionBody (parse : Grammar) (scope : Scope) : Parser Node := do
  expectMark "\x7b"
  let items ← bodyItems parse scope.allowIn (return !(← atMark "\x7d"))
  let closing ← notes
  expectMark "\x7d"
  return .of (.body closing) items

def block (parse : Grammar) (scope : Scope) : Parser Node := do
  expectMark "\x7b"
  let items ← statements parse scope.allowIn
  expectMark "\x7d"
  return .of .block items

def functionTail (parse : Grammar) (scope : Scope) (isAsync isDeclaration needsName : Bool) :
    Parser Node := do
  let isGenerator ← takeMark "*"
  let inner := Scope.function isAsync isGenerator
  let nameScope :=
    if isDeclaration then scope else { scope with yields := isGenerator, awaits := isAsync }
  let name ← if needsName || (← atIdentifier nameScope) then
      pure (some (← identifierName nameScope))
    else pure none
  let ps ← parameters parse inner
  let body ← functionBody parse inner
  return .of (.function isAsync isGenerator isDeclaration name) [ps, body]

structure Modifiers where
  isStatic : Bool
  role : MethodRole
  isAsync : Bool
  isGenerator : Bool
  isAccessor : Bool

def startsKey : Token → Bool
  | .name _ _ | .privateName _ | .string _ _ _ | .number _ | .bigint _ => true
  | .mark text => text == "["
  | _ => false

def takeModifier (word : String) (sameLine allowsStar : Bool) : Parser Bool := do
  if ← atWord word then
    let (next, lineBreak) ← peek
    if (startsKey next || (allowsStar && next == .mark "*")) && !(sameLine && lineBreak) then
      advance
      return true
    else return false
  else return false

def modifiers (inClass : Bool) : Parser Modifiers := do
  let isStatic ← if inClass then takeModifier "static" false true else pure false
  if ← takeModifier "get" false false then return ⟨isStatic, .getter, false, false, false⟩
  else if ← takeModifier "set" false false then return ⟨isStatic, .setter, false, false, false⟩
  else
    let isAccessor ← if inClass then takeModifier "accessor" true false else pure false
    let isAsync ← if isAccessor then pure false else takeModifier "async" true true
    let isGenerator ← if isAccessor then pure false else takeMark "*"
    return ⟨isStatic, .plain, isAsync, isGenerator, isAccessor⟩

def fitsRole (role : MethodRole) (parameters : List Node) : Bool :=
  match role, parameters with
  | .plain, _ => true
  | .getter, ps => ps.isEmpty
  | .setter, [⟨.rest, _, _⟩] => false
  | .setter, ps => ps.length == 1

def methodTail (parse : Grammar) (m : Modifiers) (key : Node) (isComputed : Bool) :
    Parser Node := do
  let inner := Scope.function m.isAsync m.isGenerator
  let ps ← parameters parse inner
  unless fitsRole m.role ps.parts do fail
  let body ← functionBody parse inner
  return .of (.method m.role m.isStatic m.isAsync m.isGenerator isComputed) [key, ps, body]

def classMember (parse : Grammar) (scope : Scope) : Parser Node := do
  let leading ← notes
  let (next, _) ← peek
  if (← atWord "static") && next == .mark "\x7b" then
    advance
    expectMark "\x7b"
    let items ← statements parse { Scope.classPart with awaits := true }
    expectMark "\x7d"
    return (Node.of .staticBlock items).withNotes leading
  else
    let m ← modifiers true
    let (key, isComputed) ← propertyKey parse scope
    if ← atMark "(" then
      return (← methodTail parse m key isComputed).withNotes leading
    else
      unless m.role == .plain && !m.isAsync && !m.isGenerator do fail
      let value ← if ← takeMark "=" then parse Scope.classPart .assignment else pure .absent
      endStatement
      return (Node.of (.field m.isStatic isComputed m.isAccessor) [key, value]).withNotes leading

def classTail (parse : Grammar) (scope : Scope) (isDeclaration needsName : Bool) :
    Parser Node := do
  let named ← if ← atWord "extends" then pure false else atIdentifier scope
  let name ← if needsName || named then
      pure (some (← identifierName scope))
    else pure none
  let base ← if ← takeWord "extends" then parse scope.allowIn .leftSide else pure .absent
  expectMark "\x7b"
  let _ ← many (atMark ";") advance
  let members ← many (return !(← atMark "\x7d")) do
    let member ← classMember parse scope
    let _ ← many (atMark ";") advance
    return member
  expectMark "\x7d"
  return .of (.classLike isDeclaration name) (base :: members)

end Bundler.Script.Grammar
