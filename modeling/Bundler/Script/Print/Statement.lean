import Bundler.Script.Print.Expression

/-! Statements as they are written, one to a line, the depth in tabs. -/

namespace Bundler.Script.Draw

def danglesElse : Node → Bool
  | ⟨.ifElse, _, [_, _, alternate]⟩ => alternate.isAbsent || danglesElse alternate
  | ⟨.forLoop, _, [_, _, _, body]⟩ => danglesElse body
  | ⟨.forIn, _, [_, _, body]⟩ => danglesElse body
  | ⟨.forOf _, _, [_, _, body]⟩ => danglesElse body
  | ⟨.whileLoop, _, [_, body]⟩ => danglesElse body
  | ⟨.withScope, _, [_, body]⟩ => danglesElse body
  | ⟨.labeled _, _, [body]⟩ => danglesElse body
  | _ => false

def body (p : Piece) : Draw := do
  match p.form with
  | .block =>
    space
    p.inline
    newline
  | .empty => endStatement
  | _ =>
    modify fun pen => { pen with joinsLine := true }
    p.statement

def parenthesised (p : Piece) : Draw := do
  text "("
  p.expression .lowest
  text ")"

def ifElse (test consequent alternate : Piece) : Draw := do
  word "if "
  parenthesised test
  let afterBraces : Draw := if alternate.isAbsent then newline else space
  match consequent.form with
  | .block =>
    space
    consequent.inline
    afterBraces
  | _ =>
    if danglesElse consequent.node then
      space
      braces false consequent.statement
      afterBraces
    else
      body consequent
      unless alternate.isAbsent do indent
  unless alternate.isAbsent do
    word "else"
    match alternate.form with
    | .ifElse =>
      space
      alternate.inline
    | _ => body alternate

/-- Directives and statements. A string that is no directive but would read as one stands in
parentheses. -/
def lines (items : List Piece) : Draw := do
  match items with
  | [] => pure ()
  | first :: rest =>
    match first.node with
    | ⟨.evaluate, _, [value]⟩ =>
      match value.bare.form with
      | .string text_ lone =>
        text "("
        chars (Literal.quoted text_ lone)
        text ");\n"
      | _ => first.statement
    | _ => first.statement
    for item in rest do item.statement

def surrounded (c : Comment) : Bool := c.afterBreak || c.beforeBreak

def functionBody (items : List Piece) (closing : List Comment) : Draw :=
  braces (items.isEmpty && !closing.any surrounded) do
    lines items
    comments closing

def declarationWord : DeclarationKind → String
  | .var => "var"
  | .let_ => "let"
  | .const => "const"
  | .using_ => "using"
  | .awaitUsing => "await using"

def declare (kind : DeclarationKind) (forbidIn : Bool) (items : List Piece) : Draw := do
  word (declarationWord kind)
  space
  commas (items.map fun p => p.draw (.inline forbidIn))

def declarator (forbidIn : Bool) (target value : Piece) : Draw := do
  target.inline
  unless value.isAbsent do
    text " = "
    value.draw (.expression .comma forbidIn false false)

def loopHead (p : Piece) : Draw :=
  match p.form with
  | .declare _ => p.draw (.inline true)
  | _ => p.draw (.expression .lowest true false false)

def forLoop (start test step inner : Piece) : Draw := do
  word "for ("
  unless start.isAbsent do loopHead start
  text ";"
  unless test.isAbsent do
    space
    test.expression .lowest
  text ";"
  unless step.isAbsent do
    space
    step.expression .lowest
  text ")"
  body inner

def case (test : Piece) (items : List Piece) : Draw := do
  indent
  if test.isAbsent then word "default" else
    word "case "
    test.expression .lowest
  text ":"
  match items with
  | [item] => body item
  | _ =>
    newline
    deeper
    for item in items do item.statement
    shallower

def doLoop (inner test : Piece) : Draw := do
  word "do"
  match inner.form with
  | .block =>
    space
    inner.inline
    space
  | .empty =>
    endStatement
    indent
  | _ =>
    newline
    deeper
    inner.statement
    shallower
    indent
  text "while "
  parenthesised test

def handler (binding block : Piece) : Draw := do
  text "catch "
  unless binding.isAbsent do
    text "("
    binding.inline
    text ") "
  block.inline

def tryBlock (block caught final : Piece) : Draw := do
  word "try "
  block.inline
  unless caught.isAbsent do
    space
    caught.inline
  unless final.isAbsent do
    text " finally "
    final.inline

def externalName (name : ExternalName) : Draw :=
  if name.isQuoted then chars (Literal.quoted name.text false) else text name.text

def source (value : String) (attributes : List (ExternalName × String)) : Draw := do
  chars (Literal.quoted value false)
  unless attributes.isEmpty do
    text " with \x7b "
    commas <| attributes.map fun (name, value) => do
      externalName name
      text ": "
      chars (Literal.quoted value false)
    text " \x7d"

def importBinding : ImportBinding → Draw
  | .default_ name => text name
  | .namespace_ name => text ("* as " ++ name)
  | .named imported name => do
    externalName imported
    unless !imported.isQuoted && imported.text == name do text (" as " ++ name)

def importBindings (bindings : List ImportBinding) : Draw := do
  let isNamed : ImportBinding → Bool
    | .named _ _ => true
    | _ => false
  let bare := bindings.filter fun b => !isNamed b
  let named := bindings.filter isNamed
  commas (bare.map importBinding)
  if named.isEmpty then
    if bare.isEmpty then text "\x7b\x7d"
  else
    unless bare.isEmpty do text ", "
    text "\x7b "
    commas (named.map importBinding)
    text " \x7d"

def importFrom (bindings : Option (List ImportBinding)) (value : String)
    (attributes : List (ExternalName × String)) : Draw := do
  text "import "
  match bindings with
  | none => pure ()
  | some bindings =>
    importBindings bindings
    text " from "
  source value attributes

def exportNames (names : List (ExternalName × ExternalName))
    (from_ : Option (String × List (ExternalName × String))) : Draw := do
  text "export "
  if names.isEmpty then text "\x7b\x7d"
  else
    text "\x7b "
    commas <| names.map fun (inner, outer) => do
      externalName inner
      unless inner == outer do
        text " as "
        externalName outer
    text " \x7d"
  match from_ with
  | none => pure ()
  | some (value, attributes) =>
    text " from "
    source value attributes

def exportAll (name : Option ExternalName) (value : String)
    (attributes : List (ExternalName × String)) : Draw := do
  text "export *"
  match name with
  | none => pure ()
  | some name =>
    text " as "
    externalName name
  text " from "
  source value attributes

def exportDefault (p : Piece) : Draw := do
  text "export default "
  match p.form with
  | .function _ _ true _ | .classLike true _ =>
    p.inline
    newline
  | _ =>
    markExportStart
    p.expression .comma
    endStatement

def afterIndent (n : Node) (parts : List Piece) : Draw := do
  match n.form, parts with
  | .evaluate, [value] =>
    markStatementStart
    value.expression .lowest
    endStatement
  | .empty, _ => endStatement
  | .block, items =>
    braces items.isEmpty do for item in items do item.statement
    newline
  | .declare kind, items =>
    declare kind false items
    endStatement
  | .function isAsync isGenerator _ name, [parameters, inner] =>
    function isAsync isGenerator name parameters inner
    newline
  | .classLike _ name, heritage :: members =>
    classLike name heritage members
    newline
  | .ifElse, [test, consequent, alternate] => ifElse test consequent alternate
  | .forLoop, [start, test, step, inner] => forLoop start test step inner
  | .forIn, [left, right, inner] =>
    word "for ("
    loopHead left
    text " in "
    right.expression .lowest
    text ")"
    body inner
  | .forOf isAwait, [left, right, inner] =>
    word (if isAwait then "for await (" else "for (")
    loopHead left
    text " of "
    right.expression .comma
    text ")"
    body inner
  | .whileLoop, [test, inner] =>
    word "while "
    parenthesised test
    body inner
  | .doLoop, [inner, test] =>
    doLoop inner test
    endStatement
  | .withScope, [object, inner] =>
    word "with"
    parenthesised object
    body inner
  | .switch, value :: cases =>
    word "switch "
    parenthesised value
    space
    braces cases.isEmpty do for c in cases do c.inline
    newline
  | .labeled label, [inner] =>
    word label
    text ":"
    body inner
  | .break_ label, _ =>
    word "break"
    match label with
    | none => pure ()
    | some label => text (" " ++ label)
    endStatement
  | .continue_ label, _ =>
    word "continue"
    match label with
    | none => pure ()
    | some label => text (" " ++ label)
    endStatement
  | .return_, [value] =>
    word "return"
    unless value.isAbsent do
      space
      value.expression .lowest
    endStatement
  | .throw_, [value] =>
    word "throw "
    value.expression .lowest
    endStatement
  | .try_, [block, caught, final] =>
    tryBlock block caught final
    newline
  | .debugger, _ =>
    word "debugger"
    endStatement
  | .importFrom bindings value attributes, _ =>
    importFrom bindings value attributes
    endStatement
  | .exportNames names from_, _ =>
    exportNames names from_
    endStatement
  | .exportAll name value attributes, _ =>
    exportAll name value attributes
    endStatement
  | .exportLocal, [p] =>
    text "export "
    p.inline
    match p.form with
    | .declare _ => endStatement
    | _ => newline
  | .exportDefault, [p] => exportDefault p
  | _, _ => pure ()

def directive (raw : String) : Draw := do
  let quote := Literal.directiveQuote raw.toList
  indent
  chars (quote :: (raw.toList ++ [quote]))
  endStatement

def statement (n : Node) (parts : List Piece) : Draw := do
  match n.form with
  | .directive raw => directive raw
  | _ =>
    comments n.notes
    indent
    afterIndent n parts

def inline (n : Node) (parts : List Piece) (forbidIn : Bool) : Draw := do
  match n.form, parts with
  | .block, items => braces items.isEmpty do for item in items do item.statement
  | .body closing, items => functionBody items closing
  | .staticBlock, items =>
    text "static "
    braces items.isEmpty do for item in items do item.statement
  | .method _ _ _ _ _, _ | .field _ _ _, _ => expression n parts ⟨.comma, false, false, false⟩
  | .ifElse, [test, consequent, alternate] => ifElse test consequent alternate
  | .declare kind, items => declare kind forbidIn items
  | .declarator, [target, value] => declarator forbidIn target value
  | .case, test :: items => case test items
  | .handler, [binding, block] => handler binding block
  | _, _ => expression n parts ⟨.comma, forbidIn, false, false⟩

def program (hashbang : Option String) (closing : List Comment) (items : List Piece) : Draw := do
  match hashbang with
  | none => pure ()
  | some line => text ("#!" ++ line ++ "\n")
  lines items
  comments closing

end Bundler.Script.Draw
