import Bundler.Script.Print.Comment
import Bundler.Script.Print.Literal

/-! A node together with the way to write it. A node is written from its pieces, and how a piece
is written depends on where it stands. -/

namespace Bundler.Script

inductive Mode where
  /-- with its comments, on lines of its own -/
  | statement
  /-- on the line that is being written; `in` may need parentheses -/
  | inline (forbidIn : Bool)
  /-- where only an expression that binds tighter than a level goes without parentheses -/
  | expression (level : Precedence) (forbidIn forbidCall isHeld : Bool)
  deriving DecidableEq, Repr

structure Piece where
  node : Node
  draw : Mode → Draw

namespace Piece

def form (p : Piece) : Form := p.node.form

def isAbsent (p : Piece) : Bool := p.node.isAbsent

def inline (p : Piece) : Draw := p.draw (.inline false)

def statement (p : Piece) : Draw := p.draw .statement

def expression (p : Piece) (level : Precedence) : Draw :=
  p.draw (.expression level false false false)

end Piece

structure Place where
  level : Precedence
  forbidIn : Bool
  forbidCall : Bool
  isHeld : Bool

end Bundler.Script
