import Bundler.Script.Node
import Bundler.Script.Token

/-! A place in a text: the token that stands there, the comments and line breaks before it and the
text after it. A reader of scripts moves a cursor forward and never back. -/

namespace Bundler.Script

inductive SyntaxFault where
  | unexpected
  | tooDeep
  deriving DecidableEq, Repr, Inhabited

structure Gap where
  comments : List Comment
  /-- a line ended since the last token or the last line comment began one -/
  sawBreak : Bool
  /-- the next token is the first of its line -/
  startsLine : Bool

namespace Gap

/-- A comment on the line of the token before it belongs to that token and leads nowhere. -/
def newline (gap : Gap) : Gap :=
  match gap.comments.reverse with
  | [] => ⟨[], true, true⟩
  | last :: before =>
    if gap.sawBreak then
      ⟨(⟨last.text, last.isLine, last.afterBreak, true⟩ :: before).reverse, true, true⟩
    else ⟨[], true, true⟩

/-- A line comment on the line of the token before it is dropped with all before it, unless that
token opens something. -/
def lineComment (gap : Gap) (opened : Bool) (text : List Char) : Gap :=
  if gap.sawBreak || opened then
    ⟨gap.comments ++ [⟨String.ofList text, true, gap.sawBreak, true⟩], true, gap.startsLine⟩
  else ⟨[], true, gap.startsLine⟩

def blockComment (gap : Gap) (text : List Char) : Gap :=
  ⟨gap.comments ++ [⟨String.ofList text, false, gap.sawBreak, false⟩], gap.sawBreak,
    gap.startsLine || text.any isLineEnd⟩

end Gap

def readBlockComment : List Char → Option (List Char × List Char)
  | [] => none
  | '*' :: '/' :: rest => some (['*', '/'], rest)
  | c :: rest => (readBlockComment rest).map fun (inside, rest) => (c :: inside, rest)

/-- Whether a line comment begins here; one of its marks has to be the first of a line. -/
def startsComment (startsLine : Bool) (text : List Char) : Bool :=
  (Token.after? ['/', '/'] text).isSome || (Token.after? ['<', '!', '-', '-'] text).isSome ||
    (startsLine && (Token.after? ['-', '-', '>'] text).isSome)

def skipGap (opened : Bool) : Nat → Gap → List Char → Option (Gap × List Char)
  | 0, gap, text => some (gap, text)
  | rounds + 1, gap, text =>
    if startsComment gap.startsLine text then
      let comment := text.takeWhile fun c => !isLineEnd c
      skipGap opened rounds (gap.lineComment opened comment) (text.drop comment.length)
    else
      match Token.after? ['/', '*'] text with
      | some rest =>
        match readBlockComment rest with
        | none => none
        | some (inside, rest) =>
          skipGap opened rounds (gap.blockComment ('/' :: '*' :: inside)) rest
      | none =>
        match text with
        | c :: rest =>
          if isLineEnd c then skipGap opened rounds gap.newline rest
          else if isBlank c then skipGap opened rounds gap rest
          else some (gap, text)
        | [] => some (gap, [])

structure Cursor where
  /-- the text from the current token on -/
  here : List Char
  /-- the text after the current token -/
  rest : List Char
  token : Token
  afterBreak : Bool
  notes : List Comment

abbrev Parser := StateT Cursor (Except SyntaxFault)

namespace Cursor

def opens (token : Token) : Bool := token == .mark "=" || token == .mark "("

def after (opened : Bool) (gap : Gap) (text : List Char) : Except SyntaxFault Cursor :=
  match skipGap opened (text.length + 1) gap text with
  | none => .error .unexpected
  | some (gap, here) =>
    match Token.read here with
    | none => .error .unexpected
    | some (token, rest) => .ok ⟨here, rest, token, gap.startsLine, gap.comments⟩

def start (text : List Char) : Except SyntaxFault Cursor := after false ⟨[], true, true⟩ text

def next (token : Token) (rest : List Char) : Except SyntaxFault Cursor :=
  after (opens token) ⟨[], false, false⟩ rest

end Cursor

namespace Parser

def fail {α : Type} : Parser α := throw .unexpected

def token : Parser Token := return (← get).token

def notes : Parser (List Comment) := return (← get).notes

def afterBreak : Parser Bool := return (← get).afterBreak

def moveTo (left : Token) (rest : List Char) : Parser PUnit := do
  match Cursor.next left rest with
  | .error e => throw e
  | .ok cursor => set cursor

def advance : Parser PUnit := do
  let cursor ← get
  moveTo cursor.token cursor.rest

def peek : Parser (Token × Bool) := do
  let cursor ← get
  match Cursor.next cursor.token cursor.rest with
  | .error _ => return (.ending, false)
  | .ok next => return (next.token, next.afterBreak)

def atMark (text : String) : Parser Bool := return (← token) == .mark text

def atWord (text : String) : Parser Bool := return (← token) == .name text false

def takeMark (text : String) : Parser Bool := do
  if ← atMark text then
    advance
    return true
  else return false

def takeWord (text : String) : Parser Bool := do
  if ← atWord text then
    advance
    return true
  else return false

def expectMark (text : String) : Parser PUnit := do
  unless ← takeMark text do fail

def expectWord (text : String) : Parser PUnit := do
  unless ← takeWord text do fail

/-- A statement ends at a semicolon, before a closing brace, at the end, or at a line break. -/
def endStatement : Parser PUnit := do
  unless ← takeMark ";" do
    unless (← atMark "\x7d") || (← token) == .ending || (← afterBreak) do fail

def repeatWhile {α : Type} (test : Parser Bool) (item : Parser α) : Nat → Parser (List α)
  | 0 => throw .tooDeep
  | rounds + 1 => do
    if ← test then
      let x ← item
      let xs ← repeatWhile test item rounds
      return x :: xs
    else return []

/-- As many rounds as there is text left, and one more. -/
def roundsLeft : Parser Nat := return (← get).here.length + 1

def many {α : Type} (test : Parser Bool) (item : Parser α) : Parser (List α) := do
  repeatWhile test item (← roundsLeft)

/-- Items up to a closing mark, which is left, separated by commas; one more comma may follow the
last item. Also whether it did. -/
def commaList {α : Type} (closing : String) (item : Parser α) : Parser (List α × Bool) := do
  let items ← many (return !(← atMark closing)) do
    let x ← item
    let comma ← takeMark ","
    unless comma || (← atMark closing) do fail
    return (x, comma)
  return (items.map (·.1), items.getLast?.any (·.2))

end Parser

end Bundler.Script
