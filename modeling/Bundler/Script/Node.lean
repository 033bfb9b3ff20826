import Bundler.Script.Operator
import Bundler.Script.Numeral

/-! Scripts as trees. A node has a form, the comments that lead to it, and its parts in the order
in which they stand in the text, so a walk over the parts is a walk through the text. -/

namespace Bundler.Script

/-- A comment as written, with the line breaks around it. -/
structure Comment where
  text : String
  isLine : Bool
  afterBreak : Bool
  beforeBreak : Bool
  deriving DecidableEq, Repr, Inhabited

inductive DeclarationKind where
  | var | let_ | const | using_ | awaitUsing
  deriving DecidableEq, Repr, Inhabited

inductive MethodRole where
  | plain | getter | setter
  deriving DecidableEq, Repr, Inhabited

/-- A stretch of template text; `cooked` is missing when an escape in it has no meaning. -/
structure Quasi where
  raw : String
  cooked : Option String
  deriving DecidableEq, Repr, Inhabited

/-- A name in an import or export list, which may be written as a string. -/
structure ExternalName where
  text : String
  isQuoted : Bool
  deriving DecidableEq, Repr, Inhabited

inductive ImportBinding where
  | default_ (localName : String)
  | namespace_ (localName : String)
  | named (imported : ExternalName) (localName : String)
  deriving DecidableEq, Repr, Inhabited

/-- What a node is. The comment after a form lists its parts; `absent` stands for a part that is
left out. -/
inductive Form where
  | absent
  -- directives and statements
  | program (hashbang : Option String) (closing : List Comment)
  -- directives and statements
  | body (closing : List Comment)
  | directive (raw : String)
  | empty
  -- statements
  | block
  -- expression
  | evaluate
  -- declarators
  | declare (kind : DeclarationKind)
  -- pattern, initial value or absent
  | declarator
  -- test, consequent, alternate or absent
  | ifElse
  -- start or absent, test or absent, step or absent, body
  | forLoop
  -- left, right, body
  | forIn
  | forOf (isAwait : Bool)
  -- test, body
  | whileLoop
  -- body, test
  | doLoop
  -- object, body
  | withScope
  -- discriminant, cases
  | switch
  -- test or absent, statements
  | case
  -- body
  | labeled (label : String)
  | break_ (label : Option String)
  | continue_ (label : Option String)
  -- value or absent
  | return_
  -- value
  | throw_
  -- block, handler or absent, block or absent
  | try_
  -- pattern or absent, block
  | handler
  | debugger
  -- parameters, body
  | function (isAsync isGenerator isDeclaration : Bool) (name : Option String)
  -- patterns
  | parameters
  -- parameters, body or expression
  | arrow (isAsync : Bool)
  -- heritage or absent, members
  | classLike (isDeclaration : Bool) (name : Option String)
  -- key, parameters, body
  | method (role : MethodRole) (isStatic isAsync isGenerator isComputed : Bool)
  -- key, value or absent
  | field (isStatic isComputed isAccessor : Bool)
  -- statements
  | staticBlock
  | identifier (name : String)
  | this
  | super
  | null
  | boolean (value : Bool)
  | number (value : Numeral)
  | bigint (digits : String)
  | string (value : String) (hasLoneSurrogate : Bool)
  | regex (pattern flags : String)
  -- substitutions
  | template (quasis : List Quasi)
  -- tag, template
  | tagged
  -- elements, `hole` for a gap
  | array
  | hole
  -- expression
  | spread (isFollowed : Bool)
  -- properties, methods and spreads
  | object
  -- key, value
  | property (isComputed isShorthand : Bool)
  | keyName (name : String)
  | privateName (name : String)
  -- operand
  | unary (op : UnaryOp)
  | step (op : StepOp) (isBefore : Bool)
  -- left, right
  | binary (op : BinaryOp)
  -- target, value
  | assign (op : Option BinaryOp)
  -- test, consequent, alternate
  | conditional
  -- callee, arguments
  | call (isOptional : Bool) (closing : List Comment)
  | construct (closing : List Comment)
  -- object
  | member (name : String) (isOptional : Bool)
  -- object, key
  | index (isOptional : Bool)
  -- an expression some link of which is optional
  | chain
  -- expressions
  | sequence
  -- expression
  | paren
  -- expression or absent
  | yield (isDelegate : Bool)
  -- expression
  | await
  -- source, options or absent
  | importCall
  | metaProperty (object property : String)
  -- patterns, `hole` for a gap
  | arrayPattern
  -- pattern properties and a rest
  | objectPattern
  -- key, pattern
  | patternProperty (isComputed isShorthand : Bool)
  -- pattern, default value
  | defaulted
  -- pattern
  | rest
  | importFrom (bindings : Option (List ImportBinding)) (source : String)
      (attributes : List (ExternalName × String))
  | exportNames (names : List (ExternalName × ExternalName))
      (source : Option (String × List (ExternalName × String)))
  | exportAll (name : Option ExternalName) (source : String)
      (attributes : List (ExternalName × String))
  -- declaration
  | exportLocal
  -- declaration or expression
  | exportDefault
  -- the parts of a parenthesised list before an arrow; no finished program holds one
  | arrowHead (isAsync : Bool)
  -- name, default value; no finished program holds one
  | shorthandDefault
  deriving DecidableEq, Repr, Inhabited

structure Node where
  form : Form
  notes : List Comment
  parts : List Node
  deriving Repr, Inhabited

namespace Node

def of (form : Form) (parts : List Node) : Node := ⟨form, [], parts⟩

def leaf (form : Form) : Node := of form []

def absent : Node := leaf .absent

def isAbsent (n : Node) : Bool := n.form == .absent

/-- The node as it is before a comma; a spread remembers that, for then it ends no pattern. -/
def followed : Node → Node
  | ⟨.spread _, notes, parts⟩ => ⟨.spread true, notes, parts⟩
  | n => n

def withNotes (n : Node) (notes : List Comment) : Node := ⟨n.form, notes, n.parts⟩

def bare : Node → Node
  | ⟨.paren, _, [inner]⟩ => bare inner
  | n => n

mutual

/-- A value for the node from its form, its comments and the values of its parts. -/
def fold {α : Type} (combine : Node → List α → α) : Node → α
  | ⟨form, notes, parts⟩ => combine ⟨form, notes, parts⟩ (foldParts combine parts)

def foldParts {α : Type} (combine : Node → List α → α) : List Node → List α
  | [] => []
  | n :: rest => n.fold combine :: foldParts combine rest

end

def any (test : Node → Bool) : Node → Bool :=
  fold fun n below => test n || below.any id

end Node

end Bundler.Script
