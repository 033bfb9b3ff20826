import Bundler.Script.Characters
import Bundler.Script.Parse.Statement

/-! Reading a whole script. The grammar is closed under a depth that the length of the text bounds,
so reading ends on every text. Decorators and phases of imports (`import defer`, `import source`) are
not part of the grammar: a text that has one of them is refused. -/

namespace Bundler.Script

namespace Grammar

def rules (parse : Grammar) : Grammar := fun scope goal =>
  match goal with
  | .statement isAlone => statement parse scope isAlone
  | .expression => expression parse scope
  | .assignment => assignment parse scope
  | .binary floor => binary parse scope floor
  | .unary => unary parse scope
  | .leftSide => leftSide parse scope
  | .constructed => constructed parse scope
  | .pattern => pattern parse scope

def deep : Nat → Grammar
  | 0 => fun _ _ => throw .tooDeep
  | depth + 1 => rules (deep depth)

/-- No goal is met again more than this often before a character is taken. -/
def goalsPerChar : Nat := 16

def depthFor (length : Nat) : Nat := goalsPerChar * (length + 2)

end Grammar

open Bundler.Script.Grammar Bundler.Script.Parser

def splitHashbang : List Char → Option String × List Char
  | '#' :: '!' :: rest =>
    let line := rest.takeWhile fun c => !isLineEnd c
    (some (String.ofList line), rest.drop line.length)
  | text => (none, text)

def programItems (parse : Grammar) (scope : Scope) : Parser (List Node × List Comment) := do
  let items ← bodyItems parse scope (return (← token) != .ending)
  return (items, ← notes)

def firstCursor (hashbang : Option String) (text : List Char) : Except SyntaxFault Cursor :=
  match hashbang with
  | some _ => Cursor.next .ending text
  | none => Cursor.start text

/-- The program of a text; `mayReturn` says whether `return` may stand outside functions. -/
def parseChars (mayReturn : Bool) (text : List Char) : Except SyntaxFault Node := do
  let (hashbang, text) := splitHashbang text
  let cursor ← firstCursor hashbang text
  let scope : Scope := ⟨true, false, false, mayReturn⟩
  let ((items, closing), _) ← (programItems (deep (depthFor text.length)) scope).run cursor
  let program := Node.of (.program hashbang closing) items
  if program.isUnfinished then throw .unexpected else return program

def parse (mayReturn : Bool) (text : String) : Except SyntaxFault Node :=
  parseChars mayReturn (characters text)

theorem parse_eq (mayReturn : Bool) (text : String) :
    parse mayReturn text = parseChars mayReturn text.toList := by
  rw [parse, characters_eq]

end Bundler.Script
