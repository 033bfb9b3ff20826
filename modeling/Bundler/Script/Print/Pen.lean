import Bundler.Script.Node
import Bundler.Script.Letter

/-! Text being written, and what of it the next stroke depends on: the depth, the last character,
and the places where a statement, an arrow body or an operator begins or ends. -/

namespace Bundler.Script

inductive Sign where
  | unary (op : UnaryOp)
  | step (op : StepOp)
  deriving DecidableEq, Repr, Inhabited

structure Pen where
  /-- what is written, the last character first -/
  written : List Char
  size : Nat
  depth : Nat
  /-- the next indentation is a single blank -/
  joinsLine : Bool
  statementStart : Option Nat
  arrowStart : Option Nat
  exportStart : Option Nat
  /-- where a whole number ends, so that a point after it needs a blank -/
  numberEnd : Option Nat
  regexEnd : Option Nat
  sign : Option (Sign × Nat)

abbrev Draw := StateM Pen PUnit

namespace Pen

def fresh : Pen := ⟨[], 0, 0, false, none, none, none, none, none, none⟩

def text (pen : Pen) : String := String.ofList pen.written.reverse

end Pen

namespace Draw

def chars (cs : List Char) : Draw :=
  modify fun pen => { pen with written := cs.reverse ++ pen.written, size := pen.size + cs.length }

def text (s : String) : Draw := chars s.toList

def space : Draw := text " "

def newline : Draw := text "\n"

def indent : Draw := do
  let pen ← get
  if pen.joinsLine then
    set { pen with joinsLine := false }
    space
  else chars (List.replicate pen.depth '\t')

def deeper : Draw := modify fun pen => { pen with depth := pen.depth + 1 }

def shallower : Draw := modify fun pen => { pen with depth := pen.depth - 1 }

def gapBeforeWord : Draw := do
  let pen ← get
  match pen.written with
  | [] => pure ()
  | c :: _ => if continuesName c || pen.regexEnd == some pen.size then space

def word (s : String) : Draw := do
  gapBeforeWord
  text s

def collides : Sign → Sign → Bool
  | .unary .plus, .unary .plus | .unary .plus, .step .increment => true
  | .unary .minus, .unary .minus | .unary .minus, .step .decrement => true
  | _, _ => false

def sign (s : Sign) (spelling : String) : Draw := do
  let pen ← get
  match pen.sign with
  | some (before, place) => if place == pen.size && collides before s then space
  | none => pure ()
  text spelling
  modify fun pen => { pen with sign := some (s, pen.size) }

def wrapped (isWrapped : Bool) (inside : Draw) : Draw := do
  if isWrapped then
    text "("
    inside
    text ")"
  else inside

def braces (isOneLine : Bool) (inside : Draw) : Draw := do
  text "\x7b"
  unless isOneLine do
    newline
    deeper
  inside
  unless isOneLine do
    shallower
    indent
  text "\x7d"

def endStatement : Draw := text ";\n"

def separated (between : Draw) : List Draw → Draw
  | [] => pure ()
  | [item] => item
  | item :: rest => do
    item
    between
    separated between rest

def commas (items : List Draw) : Draw := separated (text ", ") items

def atStatementStart : StateM Pen Bool := return (← get).statementStart == some (← get).size

def atArrowStart : StateM Pen Bool := return (← get).arrowStart == some (← get).size

def atExportStart : StateM Pen Bool := return (← get).exportStart == some (← get).size

def markStatementStart : Draw := modify fun pen => { pen with statementStart := some pen.size }

def markArrowStart : Draw := modify fun pen => { pen with arrowStart := some pen.size }

def markExportStart : Draw := modify fun pen => { pen with exportStart := some pen.size }

end Draw

end Bundler.Script
