import Bundler.Script.Print.Piece

/-! Expressions and patterns as they are written. -/

namespace Bundler.Script.Draw

def spreadLines (items : List Draw) : Draw := do
  text "\n"
  deeper
  separated (text ",\n") (items.map fun item => do indent; item)
  text "\n"
  shallower
  indent

def array (elements : List Piece) : Draw := do
  let endsWithGap := elements.getLast?.any fun p => p.form == .hole
  let items := elements.map fun p => p.expression .comma
  text "["
  if elements.length > 2 then
    text "\n"
    deeper
    separated (text ",\n") (items.map fun item => do indent; item)
    if endsWithGap then text ","
    text "\n"
    shallower
    indent
  else
    commas items
    if endsWithGap then text ","
  text "]"

def object (properties : List Piece) : Draw := do
  let items := properties.map Piece.inline
  wrapped ((← atStatementStart) || (← atArrowStart)) do
    match items with
    | [] => text "\x7b\x7d"
    | [item] =>
      text "\x7b "
      item
      text " \x7d"
    | _ =>
      text "\x7b"
      spreadLines items
      text "\x7d"

def key (p : Piece) (isComputed : Bool) : Draw := do
  if isComputed then
    text "["
    p.expression .comma
    text "]"
  else p.expression .comma

def property (keyPiece value : Piece) (isComputed isShorthand : Bool) : Draw := do
  let isShort := match keyPiece.form, (value.node.bare).form with
    | .keyName "__proto__", _ => isShorthand
    | .keyName name, .identifier other => !isComputed && name == other
    | _, _ => false
  unless isShort do
    key keyPiece isComputed
    text ": "
  value.expression .comma

def method (role : MethodRole) (isStatic isAsync isGenerator isComputed : Bool)
    (keyPiece parameters body : Piece) : Draw := do
  if isStatic then text "static "
  match role with
  | .plain => pure ()
  | .getter => text "get "
  | .setter => text "set "
  if isAsync then text "async "
  if isGenerator then text "*"
  key keyPiece isComputed
  text "("
  parameters.inline
  text ") "
  body.inline

def field (isStatic isComputed isAccessor : Bool) (keyPiece value : Piece) : Draw := do
  if isStatic then text "static "
  if isAccessor then text "accessor "
  key keyPiece isComputed
  unless value.isAbsent do
    text " = "
    value.expression .comma

def function (isAsync isGenerator : Bool) (name : Option String) (parameters body : Piece) :
    Draw := do
  gapBeforeWord
  if isAsync then text "async "
  text "function"
  if isGenerator then text "* "
  match name with
  | none => pure ()
  | some name => word name
  text "("
  parameters.inline
  text ") "
  body.inline

def arrow (isAsync forbidIn : Bool) (parameters body : Piece) : Draw := do
  if isAsync then word "async "
  text "("
  parameters.inline
  text ") => "
  match body.form with
  | .body _ => body.inline
  | _ =>
    markArrowStart
    body.draw (.expression .comma forbidIn false false)

def classLike (name : Option String) (heritage : Piece) (members : List Piece) : Draw := do
  word "class"
  match name with
  | none => pure ()
  | some name =>
    space
    text name
  unless heritage.isAbsent do
    text " extends "
    heritage.expression .suffix
  space
  braces members.isEmpty do
    for member in members do
      indent
      member.inline
      match member.form with
      | .field _ _ _ => endStatement
      | _ => newline

def arguments (args : List Piece) (closing : List Comment) : Draw := do
  let hasComment := !closing.isEmpty || args.any fun p => !p.node.notes.isEmpty
  text "("
  if hasComment then
    deeper
    separated (text ",") <| args.map fun p => do
      if p.node.notes.isEmpty then newline else commentLines p.node.notes
      indent
      p.expression .comma
    if closing.isEmpty then newline else commentLines closing
    shallower
    indent
  else commas (args.map fun p => p.expression .comma)
  text ")"

def template (quasis : List Quasi) (values : List Piece) : Draw := do
  text "\x60"
  match quasis with
  | [] => pure ()
  | first :: rest =>
    chars (Literal.templateChars first.raw.toList)
    for (value, quasi) in values.zip rest do
      text "$\x7b"
      value.expression .lowest
      text "\x7d"
      chars (Literal.templateChars quasi.raw.toList)
  text "\x60"

def regex (pattern flags : String) : Draw := do
  match (← get).written with
  | '/' :: _ => space
  | '<' :: _ => if pattern.toList.take 6 == "script".toList then space
  | _ => pure ()
  text "/"
  text pattern
  text "/"
  text flags
  modify fun pen => { pen with regexEnd := some pen.size }

def number (value : Numeral) : Draw := do
  let spelling := value.text
  word spelling
  unless spelling.toList.any fun c => c == '.' || c == 'e' || c == 'x' do
    modify fun pen => { pen with numberEnd := some pen.size }

def leftLevel (op : BinaryOp) (left : Node) : Precedence :=
  match op, (left.bare).form with
  | .coalesce, .binary .and | .coalesce, .binary .or => .unary
  | .power, .unary _ | .power, .await => .call
  | op, _ => if op.groupsRight then op.precedence else op.precedence.looser

def rightLevel (op : BinaryOp) (right : Node) : Precedence :=
  match op, (right.bare).form with
  | .coalesce, .binary .and | .coalesce, .binary .or => .unary
  | op, _ => if op.groupsRight then op.precedence.looser else op.precedence

def binary (op : BinaryOp) (left right : Piece) (place : Place) : Draw := do
  let isWrapped := decide (op.precedence ≤ place.level) || (op == .isIn && place.forbidIn)
  let forbidIn := place.forbidIn && !isWrapped
  wrapped isWrapped do
    left.draw (.expression (leftLevel op left.node) forbidIn false false)
    space
    text op.text
    space
    right.draw (.expression (rightLevel op right.node) forbidIn false false)

def arrayPattern (elements : List Piece) : Draw := do
  text "["
  commas (elements.map Piece.inline)
  if elements.getLast?.any fun p => p.form == .hole then text ","
  text "]"

def objectPattern (properties : List Piece) : Draw := do
  if properties.isEmpty then text "\x7b\x7d"
  else
    text "\x7b "
    commas (properties.map Piece.inline)
    text " \x7d"

def patternProperty (isComputed isShorthand : Bool) (keyPiece value : Piece) : Draw := do
  unless isShorthand do
    key keyPiece isComputed
    text ": "
  value.inline

def expression (n : Node) (parts : List Piece) (place : Place) : Draw := do
  let at_ (isWrapped : Bool) (p : Piece) (level : Precedence) : Draw :=
    p.draw (.expression level (place.forbidIn && !isWrapped) false false)
  let wraps (own : Precedence) : Bool := decide (own ≤ place.level)
  match n.form, parts with
  | .identifier name, _ => word name
  | .this, _ => word "this"
  | .super, _ => word "super"
  | .null, _ => word "null"
  | .boolean value, _ => word (if value then "true" else "false")
  | .number value, _ => number value
  | .bigint digits, _ => word (digits ++ "n")
  | .string value lone, _ => chars (Literal.quoted value lone)
  | .regex pattern flags, _ => regex pattern flags
  | .keyName name, _ | .privateName name, _ => text name
  | .template quasis, values => template quasis values
  | .tagged, [tag, quasi] =>
    tag.expression .suffix
    quasi.expression .lowest
  | .array, elements => array elements
  | .object, properties => object properties
  | .spread _, [p] =>
    text "..."
    p.expression .comma
  | .property isComputed isShorthand, [keyPiece, value] =>
    property keyPiece value isComputed isShorthand
  | .method role isStatic isAsync isGenerator isComputed, [keyPiece, parameters, body] =>
    method role isStatic isAsync isGenerator isComputed keyPiece parameters body
  | .field isStatic isComputed isAccessor, [keyPiece, value] =>
    field isStatic isComputed isAccessor keyPiece value
  | .function isAsync isGenerator isDeclaration name, [parameters, body] =>
    let isWrapped := !isDeclaration &&
      (place.isHeld || (← atStatementStart) || (← atExportStart))
    wrapped isWrapped (function isAsync isGenerator name parameters body)
  | .parameters, ps => commas (ps.map Piece.inline)
  | .arrow isAsync, [parameters, body] =>
    wrapped (place.isHeld || wraps .assign) (arrow isAsync place.forbidIn parameters body)
  | .classLike isDeclaration name, heritage :: members =>
    let isWrapped := !isDeclaration && ((← atStatementStart) || (← atExportStart))
    wrapped isWrapped (classLike name heritage members)
  | .unary op, [operand] =>
    wrapped (wraps .unary) do
      if op.isWord then
        word op.text
        space
      else sign (.unary op) op.text
      at_ (wraps .unary) operand .exponent
  | .step op true, [operand] =>
    wrapped (wraps .unary) do
      sign (.step op) op.text
      at_ (wraps .unary) operand .unary
  | .step op false, [operand] =>
    wrapped (wraps .suffix) do
      at_ (wraps .suffix) operand .suffix
      sign (.step op) op.text
  | .binary op, [left, right] => binary op left right place
  | .assign op, [target, value] =>
    let opensBrace ← if target.form == .objectPattern then
        pure ((← atStatementStart) || (← atArrowStart))
      else pure false
    let isWrapped := opensBrace || wraps .assign
    wrapped isWrapped do
      target.expression .comma
      text (" " ++ op.elim "" BinaryOp.text ++ "= ")
      at_ isWrapped value .comma
  | .conditional, [test, consequent, alternate] =>
    wrapped (wraps .conditional) do
      at_ (wraps .conditional) test .conditional
      text " ? "
      consequent.expression .yield
      text " : "
      at_ (wraps .conditional) alternate .yield
  | .call isOptional closing, callee :: args =>
    let startsStatement ← atStatementStart
    let startsExport ← atExportStart
    wrapped (wraps .construct || place.forbidCall) do
      if startsExport then markExportStart else if startsStatement then markStatementStart
      callee.expression .suffix
      if isOptional then text "?."
      arguments args closing
  | .construct closing, callee :: args =>
    wrapped (wraps .member) do
      word "new"
      space
      callee.draw (.expression .construct false true false)
      arguments args closing
  | .member name isOptional, [object] =>
    object.draw (.expression .suffix false place.forbidCall false)
    let pen ← get
    if isOptional then text "?" else if pen.numberEnd == some pen.size then space
    text "."
    text name
  | .index isOptional, [object, k] =>
    wrapped (object.form == .identifier "let") do
      object.draw (.expression .suffix false place.forbidCall false)
    if isOptional then text "?."
    text "["
    k.expression .lowest
    text "]"
  | .chain, [p] =>
    wrapped (wraps .suffix) do
      p.draw (.expression place.level false place.forbidCall false)
  | .sequence, items =>
    wrapped (wraps .comma) do
      commas (items.map fun p => at_ (wraps .comma) p .lowest)
  | .paren, [p] =>
    let holds := match p.form with
      | .function _ _ _ _ | .arrow _ => true
      | _ => false
    p.draw (.expression place.level place.forbidIn place.forbidCall holds)
  | .yield isDelegate, [p] =>
    wrapped (wraps .assign) do
      word "yield"
      if isDelegate then text "*"
      unless p.isAbsent do
        space
        at_ (wraps .assign) p .yield
  | .await, [p] =>
    wrapped (wraps .unary) do
      word "await "
      at_ (wraps .unary) p .exponent
  | .importCall, [source, options] =>
    wrapped (wraps .construct || place.forbidCall) do
      word "import("
      source.expression .comma
      unless options.isAbsent do
        text ", "
        options.expression .comma
      text ")"
  | .metaProperty object property, _ =>
    word object
    text "."
    text property
  | .arrayPattern, elements => arrayPattern elements
  | .objectPattern, properties => objectPattern properties
  | .patternProperty isComputed isShorthand, [keyPiece, value] =>
    patternProperty isComputed isShorthand keyPiece value
  | .defaulted, [target, value] =>
    target.inline
    text " = "
    value.expression .comma
  | .rest, [target] =>
    text "..."
    target.inline
  | _, _ => pure ()

end Bundler.Script.Draw
