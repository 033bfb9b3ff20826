import Bundler.Script.Print.Pen

/-! Comments as they are written before a statement, at the end of a body and among arguments. -/

namespace Bundler.Script.Draw

def splitLines : List Char → List (List Char)
  | [] => [[]]
  | '\r' :: '\n' :: rest => [] :: splitLines rest
  | c :: rest =>
    if isLineEnd c then [] :: splitLines rest
    else
      match splitLines rest with
      | [] => [[c]]
      | line :: lines => (c :: line) :: lines

def blockLines : List (List Char) → Draw
  | [] => pure ()
  | line :: rest => do
    unless line.take 2 == ['/', '*'] do indent
    chars (line.dropWhile isWideBlank)
    unless line.drop (line.length - 2) == ['*', '/'] do newline
    blockLines rest

def comment (c : Comment) : Draw :=
  if c.isLine then text c.text else blockLines (splitLines c.text.toList)

def mentions (word : List Char) : List Char → Bool
  | [] => word.isEmpty
  | c :: rest => (c :: rest).take word.length == word || mentions word rest

/-- A comment that must stay in every form of a program: it opens with `!` or says so. -/
def isLegal (c : Comment) : Bool :=
  let inside := c.text.toList.drop 2
  inside.head? == some '!' || mentions "@license".toList inside ||
    mentions "@preserve".toList inside

def firstCommentIndent (c : Comment) : Draw := do
  if c.afterBreak then
    match (← get).written with
    | [] => pure ()
    | '\n' :: _ => indent
    | '\t' :: _ => pure ()
    | _ =>
      newline
      indent
  else indent

def laterComments : Comment → List Comment → Draw
  | last, [] => do
    if last.isLine || last.beforeBreak then newline
    else modify fun pen => { pen with joinsLine := true }
  | _, c :: rest => do
    if c.afterBreak then
      newline
      indent
    else if isLegal c then newline
    comment c
    laterComments c rest

def comments : List Comment → Draw
  | [] => pure ()
  | c :: rest => do
    firstCommentIndent c
    comment c
    laterComments c rest

def commentLines (cs : List Comment) : Draw := do
  for c in cs do
    newline
    indent
    comment c
  newline

end Bundler.Script.Draw
