import Bundler.Script.Parse.Expression

/-! Declarations of variables, and what a file imports and exports. -/

namespace Bundler.Script.Grammar

open Bundler.Script.Parser

def needsValue (kind : DeclarationKind) (target : Node) : Bool :=
  match kind with
  | .const | .using_ | .awaitUsing => true
  | .var | .let_ =>
    match target.form with
    | .identifier _ => false
    | _ => true

def declarator (parse : Grammar) (scope : Scope) : Parser Node := do
  let target ← parse scope .pattern
  let value ← if ← takeMark "=" then parse scope .assignment else pure .absent
  return .of .declarator [target, value]

def lacksValue (kind : DeclarationKind) : Node → Bool
  | ⟨.declarator, _, [target, value]⟩ => value.isAbsent && needsValue kind target
  | _ => false

def declarators (parse : Grammar) (scope : Scope) : Parser (List Node) := do
  let first ← declarator parse scope
  let more ← many (takeMark ",") (declarator parse scope)
  return first :: more

def declareTail (parse : Grammar) (scope : Scope) (kind : DeclarationKind) : Parser Node := do
  let items ← declarators parse scope
  if items.any (lacksValue kind) then fail
  return .of (.declare kind) items

/-- Whether the word at the cursor begins a declaration by what follows it: a name or a pattern. -/
def startsLet (isAlone : Bool) : Parser Bool := do
  let (next, _) ← peek
  match next with
  | .name text _ => return !isAlone && text != "in" && text != "instanceof"
  | .mark text => return text == "[" || (text == "\x7b" && !isAlone)
  | _ => return false

def startsUsing : Parser Bool := do
  let (next, lineBreak) ← peek
  match next with
  | .name text _ => return !lineBreak && !isReserved text && text != "of"
  | _ => return false

def declarationKind (scope : Scope) (isAlone : Bool) : Parser (Option DeclarationKind) := do
  match ← token with
  | .name "var" false =>
    advance
    return some .var
  | .name "const" false =>
    if isAlone then fail
    advance
    return some .const
  | .name "let" false =>
    if ← startsLet isAlone then
      if isAlone then fail
      advance
      return some .let_
    else return none
  | .name "using" false =>
    if !isAlone && (← startsUsing) then
      advance
      return some .using_
    else return none
  | .name "await" false =>
    let (next, lineBreak) ← peek
    if scope.awaits && !isAlone && next == .name "using" false && !lineBreak then
      let start ← get
      advance
      if ← startsUsing then
        advance
        return some .awaitUsing
      else
        set start
        return none
    else return none
  | _ => return none

def externalName : Parser ExternalName := do
  match ← token with
  | .name text _ =>
    advance
    return ⟨text, false⟩
  | .string value _ _ =>
    advance
    return ⟨value, true⟩
  | _ => fail

def sourceText : Parser String := do
  match ← token with
  | .string value _ _ =>
    advance
    return value
  | _ => fail

def importAttributes : Parser (List (ExternalName × String)) := do
  if ← takeWord "with" then
    expectMark "\x7b"
    let (items, _) ← commaList "\x7d" do
      let key ← externalName
      expectMark ":"
      return (key, ← sourceText)
    expectMark "\x7d"
    return items
  else return []

def importSpecifier (scope : Scope) : Parser ImportBinding := do
  let imported ← externalName
  if ← takeWord "as" then return .named imported (← identifierName scope)
  else
    if imported.isQuoted || !nameable scope imported.text then fail
    return .named imported imported.text

def importNamed (scope : Scope) : Parser (List ImportBinding) := do
  if ← takeMark "*" then
    expectWord "as"
    return [.namespace_ (← identifierName scope)]
  else
    expectMark "\x7b"
    let (items, _) ← commaList "\x7d" (importSpecifier scope)
    expectMark "\x7d"
    return items

def importDeclaration (scope : Scope) : Parser Node := do
  match ← token with
  | .string _ _ _ =>
    let source ← sourceText
    let attributes ← importAttributes
    endStatement
    return .leaf (.importFrom none source attributes)
  | _ =>
    let bindings ← if ← atIdentifier scope then do
        let name ← identifierName scope
        let more ← if ← takeMark "," then importNamed scope else pure []
        pure (.default_ name :: more)
      else importNamed scope
    expectWord "from"
    let source ← sourceText
    let attributes ← importAttributes
    endStatement
    return .leaf (.importFrom (some bindings) source attributes)

def exportSpecifier : Parser (ExternalName × ExternalName) := do
  let local_ ← externalName
  if ← takeWord "as" then return (local_, ← externalName) else return (local_, local_)

def exportDefaultTail (parse : Grammar) (scope : Scope) : Parser Node := do
  if ← takeWord "function" then
    return .of .exportDefault [← functionTail parse scope false true false]
  else if ← takeWord "class" then
    return .of .exportDefault [← classTail parse scope true false]
  else
    let (next, lineBreak) ← peek
    if (← atWord "async") && next == .name "function" false && !lineBreak then
      advance
      advance
      return .of .exportDefault [← functionTail parse scope true true false]
    else
      let value ← parse scope .assignment
      endStatement
      return .of .exportDefault [value]

def exportDeclaration (parse : Grammar) (scope : Scope) : Parser Node := do
  if ← takeWord "default" then exportDefaultTail parse scope
  else if ← takeMark "*" then
    let name ← if ← takeWord "as" then pure (some (← externalName)) else pure none
    expectWord "from"
    let source ← sourceText
    let attributes ← importAttributes
    endStatement
    return .leaf (.exportAll name source attributes)
  else if ← takeMark "\x7b" then
    let (names, _) ← commaList "\x7d" exportSpecifier
    expectMark "\x7d"
    if ← takeWord "from" then
      let source ← sourceText
      let attributes ← importAttributes
      endStatement
      return .leaf (.exportNames names (some (source, attributes)))
    else
      if names.any fun (n, _) => n.isQuoted || isReserved n.text then fail
      endStatement
      return .leaf (.exportNames names none)
  else
    let declaration ← parse scope (.statement false)
    match declaration.form with
    | .declare _ | .function _ _ true _ | .classLike true _ => return .of .exportLocal [declaration]
    | _ => fail

end Bundler.Script.Grammar
