import Bundler.Script.Letter

/-! JSON texts, strictly read: every mark in its place, no control characters in strings, and
nothing but blanks around the value. -/

namespace Bundler

/-- A value. A string is absent when an escape in it stands for half of a surrogate pair. -/
inductive Json where
  | null
  | boolean (value : Bool)
  | number
  | string (value : Option String)
  | array (elements : List Json)
  | object (members : List (Option String × Json))

namespace Json

def isBlank (c : Char) : Bool := c == ' ' || c == '\n' || c == '\t' || c == '\r'

def skipBlanks (text : List Char) : List Char := text.dropWhile isBlank

def fourHex : List Char → Option (Nat × List Char)
  | a :: b :: c :: d :: rest => do
    let a ← Script.digitValue? 16 a
    let b ← Script.digitValue? 16 b
    let c ← Script.digitValue? 16 c
    let d ← Script.digitValue? 16 d
    some (((a * 16 + b) * 16 + c) * 16 + d, rest)
  | _ => none

def shortEscape? (c : Char) : Option Char :=
  match c with
  | '"' => some '"'
  | '\\' => some '\\'
  | '/' => some '/'
  | 'b' => some '\x08'
  | 'f' => some '\x0c'
  | 'n' => some '\n'
  | 'r' => some '\r'
  | 't' => some '\t'
  | _ => none

/-- The text of a string from after its opening quote; its inside is absent if it has half of a
pair. `rounds` bounds its length. -/
def readString : Nat → List Char → Option (Option (List Char) × List Char)
  | 0, _ => none
  | rounds + 1, text =>
    let extend (c : Char) (rest : List Char) :=
      (readString rounds rest).map fun (inside, rest) => (inside.map (c :: ·), rest)
    match text with
    | [] => none
    | '"' :: rest => some (some [], rest)
    | '\\' :: 'u' :: rest =>
      match fourHex rest with
      | none => none
      | some (code, rest) =>
        let lone := (readString rounds rest).map fun (_, rest) => (none, rest)
        if 0xd800 ≤ code ∧ code < 0xdc00 then
          match rest with
          | '\\' :: 'u' :: after =>
            match fourHex after with
            | none => none
            | some (low, after) =>
              if 0xdc00 ≤ low ∧ low < 0xe000 then
                extend (Char.ofNat (0x10000 + (code - 0xd800) * 0x400 + (low - 0xdc00))) after
              else lone
          | _ => lone
        else if 0xdc00 ≤ code ∧ code < 0xe000 then lone
        else extend (Char.ofNat code) rest
    | '\\' :: c :: rest =>
      match shortEscape? c with
      | some d => extend d rest
      | none => none
    | c :: rest => if c.toNat < 0x20 ∨ c = '\\' then none else extend c rest

def digitsOf (text : List Char) : List Char × List Char :=
  (text.takeWhile Char.isDigit, text.dropWhile Char.isDigit)

def someDigits (text : List Char) : Option (List Char) :=
  match digitsOf text with
  | ([], _) => none
  | (_, rest) => some rest

def readNumber (text : List Char) : Option (List Char) := do
  let text := match text with
    | '-' :: rest => rest
    | rest => rest
  let rest ← match digitsOf text with
    | ([], _) => none
    | ('0' :: _ :: _, _) => none
    | (_, rest) => some rest
  let rest ← match rest with
    | '.' :: rest => someDigits rest
    | rest => some rest
  match rest with
  | c :: after =>
    if c = 'e' ∨ c = 'E' then
      match after with
      | '+' :: after => someDigits after
      | '-' :: after => someDigits after
      | after => someDigits after
    else some rest
  | [] => some []

def word? (word : String) (text : List Char) : Option (List Char) :=
  if text.take word.length = word.toList then some (text.drop word.length) else none

/-- Read values and, for the inside of an array or an object, the items up to the closing mark. -/
inductive Goal where
  | value
  | elements (isFirst : Bool)
  | members (isFirst : Bool)

def read : Nat → Goal → List Char → Option (Json × List Char)
  | 0, _, _ => none
  | rounds + 1, .value, text =>
    match skipBlanks text with
    | '"' :: rest =>
      (readString (rest.length + 1) rest).map fun (inside, rest) =>
        (.string (inside.map String.ofList), rest)
    | '[' :: rest => read rounds (.elements true) rest
    | '{' :: rest => read rounds (.members true) rest
    | 't' :: rest => (word? "rue" rest).map fun rest => (.boolean true, rest)
    | 'f' :: rest => (word? "alse" rest).map fun rest => (.boolean false, rest)
    | 'n' :: rest => (word? "ull" rest).map fun rest => (.null, rest)
    | c :: rest =>
      if c = '-' ∨ c.isDigit then (readNumber (c :: rest)).map fun rest => (.number, rest) else none
    | [] => none
  | rounds + 1, .elements isFirst, text =>
    let next (text : List Char) : Option (Json × List Char) := do
      let (v, rest) ← read rounds .value text
      match ← read rounds (.elements false) rest with
      | (.array vs, rest) => some (.array (v :: vs), rest)
      | _ => none
    match isFirst, skipBlanks text with
    | _, ']' :: rest => some (.array [], rest)
    | true, text => next text
    | false, ',' :: text => next text
    | false, _ => none
  | rounds + 1, .members isFirst, text =>
    let next (text : List Char) : Option (Json × List Char) :=
      match skipBlanks text with
      | '"' :: rest => do
        let (key, rest) ← readString (rest.length + 1) rest
        match skipBlanks rest with
        | ':' :: rest =>
          let (v, rest) ← read rounds .value rest
          match ← read rounds (.members false) rest with
          | (.object ms, rest) => some (.object ((key.map String.ofList, v) :: ms), rest)
          | _ => none
        | _ => none
      | _ => none
    match isFirst, skipBlanks text with
    | _, '}' :: rest => some (.object [], rest)
    | true, text => next text
    | false, ',' :: text => next text
    | false, _ => none

/-- The value of a text. Every goal takes a character or is the value of one that did. -/
def parse (text : String) : Option Json :=
  let chars := text.toList
  match read (2 * chars.length + 2) .value chars with
  | some (v, rest) => if skipBlanks rest = [] then some v else none
  | none => none

def quoteChar (c : Char) : List Char :=
  if c = '"' then ['\\', '"']
  else if c = '\\' then ['\\', '\\']
  else if c = '\x08' then ['\\', 'b']
  else if c = '\x0c' then ['\\', 'f']
  else if c = '\n' then ['\\', 'n']
  else if c = '\r' then ['\\', 'r']
  else if c = '\t' then ['\\', 't']
  else if c.toNat < 0x20 then
    ['\\', 'u', '0', '0', Nat.digitChar (c.toNat / 16), Nat.digitChar (c.toNat % 16)]
  else [c]

def quote (text : String) : String :=
  String.ofList ('"' :: (text.toList.flatMap quoteChar ++ ['"']))

end Json

end Bundler
