/-! Operators of the script language, their spelling and how tightly they bind. -/

namespace Bundler.Script

/-- How tightly an expression holds together, from a comma list to a member access. -/
inductive Precedence where
  | lowest | comma | spread | yield | assign | conditional | coalesce | logicalOr | logicalAnd
  | bitOr | bitXor | bitAnd | equality | comparison | shift | additive | multiplicative
  | exponent | unary | suffix | construct | call | member
  deriving DecidableEq, Repr, Inhabited

namespace Precedence

def rank (p : Precedence) : Nat := p.ctorIdx

def looser : Precedence → Precedence
  | lowest => lowest
  | comma => lowest
  | spread => comma
  | yield => spread
  | assign => yield
  | conditional => assign
  | coalesce => conditional
  | logicalOr => coalesce
  | logicalAnd => logicalOr
  | bitOr => logicalAnd
  | bitXor => bitOr
  | bitAnd => bitXor
  | equality => bitAnd
  | comparison => equality
  | shift => comparison
  | additive => shift
  | multiplicative => additive
  | exponent => multiplicative
  | unary => exponent
  | suffix => unary
  | construct => suffix
  | call => construct
  | member => call

instance : LE Precedence := ⟨fun a b => a.rank ≤ b.rank⟩

instance (a b : Precedence) : Decidable (a ≤ b) := Nat.decLe a.rank b.rank

end Precedence

inductive BinaryOp where
  | equal | notEqual | identical | notIdentical
  | less | lessEqual | greater | greaterEqual | isIn | isInstance
  | shiftLeft | shiftRight | shiftRightUnsigned
  | add | subtract | multiply | divide | remainder | power
  | bitOr | bitXor | bitAnd
  | and | or | coalesce
  deriving DecidableEq, Repr, Inhabited

namespace BinaryOp

def text : BinaryOp → String
  | equal => "=="
  | notEqual => "!="
  | identical => "==="
  | notIdentical => "!=="
  | less => "<"
  | lessEqual => "<="
  | greater => ">"
  | greaterEqual => ">="
  | isIn => "in"
  | isInstance => "instanceof"
  | shiftLeft => "<<"
  | shiftRight => ">>"
  | shiftRightUnsigned => ">>>"
  | add => "+"
  | subtract => "-"
  | multiply => "*"
  | divide => "/"
  | remainder => "%"
  | power => "**"
  | bitOr => "|"
  | bitXor => "^"
  | bitAnd => "&"
  | and => "&&"
  | or => "||"
  | coalesce => "??"

def all : List BinaryOp :=
  [equal, notEqual, identical, notIdentical, less, lessEqual, greater, greaterEqual, isIn,
    isInstance, shiftLeft, shiftRight, shiftRightUnsigned, add, subtract, multiply, divide,
    remainder, power, bitOr, bitXor, bitAnd, and, or, coalesce]

def ofText? (text : String) : Option BinaryOp :=
  all.find? fun op => op.text == text

def precedence : BinaryOp → Precedence
  | equal | notEqual | identical | notIdentical => .equality
  | less | lessEqual | greater | greaterEqual | isIn | isInstance => .comparison
  | shiftLeft | shiftRight | shiftRightUnsigned => .shift
  | add | subtract => .additive
  | multiply | divide | remainder => .multiplicative
  | power => .exponent
  | bitOr => .bitOr
  | bitXor => .bitXor
  | bitAnd => .bitAnd
  | and => .logicalAnd
  | or => .logicalOr
  | coalesce => .coalesce

def groupsRight : BinaryOp → Bool
  | power => true
  | _ => false

def assigns : BinaryOp → Bool
  | equal | notEqual | identical | notIdentical | less | lessEqual | greater | greaterEqual
  | isIn | isInstance => false
  | _ => true

end BinaryOp

inductive UnaryOp where
  | plus | minus | not | complement | typeOf | void | delete
  deriving DecidableEq, Repr, Inhabited

namespace UnaryOp

def text : UnaryOp → String
  | plus => "+"
  | minus => "-"
  | not => "!"
  | complement => "~"
  | typeOf => "typeof"
  | void => "void"
  | delete => "delete"

def all : List UnaryOp := [plus, minus, not, complement, typeOf, void, delete]

def ofText? (text : String) : Option UnaryOp :=
  all.find? fun op => op.text == text

def isWord : UnaryOp → Bool
  | typeOf | void | delete => true
  | _ => false

end UnaryOp

inductive StepOp where
  | increment | decrement
  deriving DecidableEq, Repr, Inhabited

def StepOp.text : StepOp → String
  | increment => "++"
  | decrement => "--"

end Bundler.Script
