import Bundler.Script.Letter

/-! Configuration texts: keys with values, one to a line, and tables under headers. Every key is
given once, and a table under a header is not opened again. -/

namespace Bundler

/-- How a table came to be, which decides what may be added to it. -/
inductive TableOrigin where
  /-- written in braces, and complete -/
  | inline
  /-- made by a key with dots -/
  | dotted
  /-- made on the way to the table of a header -/
  | implied
  /-- made by a header of its own -/
  | header
  deriving DecidableEq, Repr, Inhabited

inductive Toml where
  | string (value : String)
  | boolean (value : Bool)
  /-- a number or a date, of which only the kind is kept -/
  | scalar
  | array (elements : List Toml) (isTables : Bool)
  | table (origin : TableOrigin) (members : List (String × Toml))
  deriving Inhabited

namespace Toml

def isBlank (c : Char) : Bool := c == ' ' || c == '\t'

def skipBlanks (text : List Char) : List Char := text.dropWhile isBlank

def newline? : List Char → Option (List Char)
  | '\n' :: rest => some rest
  | '\r' :: '\n' :: rest => some rest
  | _ => none

def isControl (c : Char) : Bool := (c.toNat < 0x20 && c != '\t') || c.toNat == 0x7f

def lineEnd? (text : List Char) : Option (List Char) :=
  let rest := match skipBlanks text with
    | '#' :: rest => rest.dropWhile fun c => !isControl c
    | rest => rest
  match rest with
  | [] => some []
  | _ => (newline? rest).map fun _ => rest

def skipLines : Nat → List Char → Option (List Char)
  | 0, text => some text
  | rounds + 1, text =>
    match skipBlanks text with
    | '#' :: rest =>
      match rest.dropWhile fun c => !isControl c with
      | [] => some []
      | rest => (newline? rest).bind (skipLines rounds)
    | rest =>
      match newline? rest with
      | some rest => skipLines rounds rest
      | none => some rest

def codeChar? (count : Nat) (text : List Char) : Option (Char × List Char) :=
  let digits := (text.take count).filterMap (Script.digitValue? 16)
  let code := digits.foldl (fun n d => n * 16 + d) 0
  if digits.length = count ∧ code.isValidChar then some (Char.ofNat code, text.drop count) else none

def escape? : List Char → Option (Char × List Char)
  | 'b' :: rest => some ('\x08', rest)
  | 't' :: rest => some ('\t', rest)
  | 'n' :: rest => some ('\n', rest)
  | 'f' :: rest => some ('\x0c', rest)
  | 'r' :: rest => some ('\r', rest)
  | '"' :: rest => some ('"', rest)
  | '\\' :: rest => some ('\\', rest)
  | 'u' :: rest => codeChar? 4 rest
  | 'U' :: rest => codeChar? 8 rest
  | _ => none

def readLine (quote : Char) : Nat → List Char → Option (List Char × List Char)
  | 0, _ => none
  | rounds + 1, text =>
    match text with
    | [] => none
    | c :: rest =>
      if c = quote then some ([], rest)
      else if isControl c then none
      else if c = '\\' ∧ quote = '"' then do
        let (d, rest) ← escape? rest
        let (cs, rest) ← readLine quote rounds rest
        some (d :: cs, rest)
      else (readLine quote rounds rest).map fun (cs, rest) => (c :: cs, rest)

def skipSpace : List Char → List Char
  | '\r' :: '\n' :: rest => skipSpace rest
  | c :: rest => if isBlank c || c == '\n' then skipSpace rest else c :: rest
  | [] => []

def foldedLine? (text : List Char) : Option (List Char) :=
  (newline? (skipBlanks text)).map skipSpace

/-- The inside of a string over several lines, from after its opening quotes. Up to two quotes may
stand right before the three that close it. -/
def readLines (quote : Char) : Nat → List Char → Option (List Char × List Char)
  | 0, _ => none
  | rounds + 1, text =>
    match text with
    | [] => none
    | c :: rest =>
      if c = quote then
        let run := text.takeWhile (· == quote)
        if run.length < 3 then
          (readLines quote rounds rest).map fun (cs, rest) => (c :: cs, rest)
        else if run.length ≤ 5 then some (run.drop 3, text.drop run.length)
        else none
      else if c = '\\' ∧ quote = '"' then
        match foldedLine? rest with
        | some rest => readLines quote rounds rest
        | none => do
          let (d, rest) ← escape? rest
          let (cs, rest) ← readLines quote rounds rest
          some (d :: cs, rest)
      else if c = '\r' then
        match rest with
        | '\n' :: rest =>
          (readLines quote rounds rest).map fun (cs, rest) => ('\r' :: '\n' :: cs, rest)
        | _ => none
      else if isControl c ∧ c ≠ '\n' then none
      else (readLines quote rounds rest).map fun (cs, rest) => (c :: cs, rest)

def readString (allowsLines : Bool) (text : List Char) : Option (String × List Char) :=
  let finish (found : Option (List Char × List Char)) : Option (String × List Char) :=
    found.map fun (cs, rest) => (String.ofList cs, rest)
  match text with
  | a :: b :: c :: rest =>
    if allowsLines ∧ a = b ∧ b = c ∧ (a = '"' ∨ a = '\x27') then
      let rest := (newline? rest).getD rest
      finish (readLines a (rest.length + 1) rest)
    else if a = '"' ∨ a = '\x27' then finish (readLine a text.length (b :: c :: rest))
    else none
  | a :: rest => if a = '"' ∨ a = '\x27' then finish (readLine a text.length rest) else none
  | [] => none

def isBare (c : Char) : Bool := c.isAlphanum || c == '-' || c == '_'

def readKeyPart (text : List Char) : Option (String × List Char) :=
  match text with
  | [] => none
  | c :: _ =>
    if c = '"' ∨ c = '\x27' then readString false text
    else
      let bare := text.takeWhile isBare
      if bare = [] then none else some (String.ofList bare, text.drop bare.length)

def readKey : Nat → List Char → Option (List String × List Char)
  | 0, _ => none
  | rounds + 1, text => do
    let (part, rest) ← readKeyPart (skipBlanks text)
    match skipBlanks rest with
    | '.' :: rest =>
      let (parts, rest) ← readKey rounds rest
      some (part :: parts, rest)
    | rest => some ([part], rest)

def alter (key : String) (change : Option Toml → Option Toml) :
    List (String × Toml) → Option (List (String × Toml))
  | [] => (change none).map fun v => [(key, v)]
  | (k, v) :: rest =>
    if k = key then (change (some v)).map fun v => (k, v) :: rest
    else (alter key change rest).map ((k, v) :: ·)

/-- Give a value to a key, which must not have one. Tables that dots lead through are made, and are
entered only if dots made them. -/
def assign (value : Toml) : List String → List (String × Toml) → Option (List (String × Toml))
  | [], _ => none
  | [key], members => alter key (fun old => if old.isNone then some value else none) members
  | key :: rest, members =>
    alter key (fun
      | none => (assign value rest []).map (table .dotted)
      | some (table .dotted inner) => (assign value rest inner).map (table .dotted)
      | some _ => none) members

def within (change : List (String × Toml) → Option (List (String × Toml))) :
    List String → List (String × Toml) → Option (List (String × Toml))
  | [], members => change members
  | key :: rest, members =>
    alter key (fun
      | none => (within change rest []).map (table .implied)
      | some (table .inline _) => none
      | some (table origin inner) => (within change rest inner).map (table origin)
      | some (array elements true) =>
        match elements.reverse with
        | table origin inner :: before =>
          (within change rest inner).map fun inner =>
            array (table origin inner :: before).reverse true
        | _ => none
      | some _ => none) members

/-- Open the table of a header, which no header and no dots may have made before. -/
def openTable (path : List String) (members : List (String × Toml)) :
    Option (List (String × Toml)) :=
  match path.reverse with
  | [] => none
  | key :: before =>
    within (alter key fun
      | none => some (table .header [])
      | some (table .implied inner) => some (table .header inner)
      | some _ => none) before.reverse members

def openElement (path : List String) (members : List (String × Toml)) :
    Option (List (String × Toml)) :=
  match path.reverse with
  | [] => none
  | key :: before =>
    within (alter key fun
      | none => some (array [table .header []] true)
      | some (array elements true) => some (array (elements ++ [table .header []]) true)
      | some _ => none) before.reverse members

def readWord (text : List Char) : Option (Toml × List Char) :=
  let word := text.takeWhile fun c => isBare c || c == '+' || c == '.' || c == ':'
  let rest := text.drop word.length
  match String.ofList word with
  | "true" => some (boolean true, rest)
  | "false" => some (boolean false, rest)
  | "" => none
  | _ => some (scalar, rest)

inductive Goal where
  | value
  | elements
  | members (isFirst : Bool)

def read : Nat → Goal → List Char → Option (Toml × List Char)
  | 0, _, _ => none
  | rounds + 1, .value, text =>
    match text with
    | '[' :: rest => read rounds .elements rest
    | '{' :: rest => read rounds (.members true) rest
    | c :: rest =>
      if c = '"' ∨ c = '\x27' then
        (readString true (c :: rest)).map fun (s, rest) => (string s, rest)
      else readWord (c :: rest)
    | [] => none
  | rounds + 1, .elements, text => do
    let text ← skipLines (text.length + 1) text
    match text with
    | ']' :: rest => some (array [] false, rest)
    | text =>
      let (v, rest) ← read rounds .value text
      let rest ← skipLines (rest.length + 1) rest
      match rest with
      | ',' :: rest =>
        match ← read rounds .elements rest with
        | (array vs _, rest) => some (array (v :: vs) false, rest)
        | _ => none
      | ']' :: rest => some (array [v] false, rest)
      | _ => none
  | rounds + 1, .members isFirst, text =>
    match isFirst, skipBlanks text with
    | true, '}' :: rest => some (table .inline [], rest)
    | _, text => do
      let (key, rest) ← readKey (text.length + 1) text
      match rest with
      | '=' :: rest =>
        let (v, rest) ← read rounds .value (skipBlanks rest)
        let (others, rest) ← match skipBlanks rest with
          | ',' :: rest => read rounds (.members false) rest
          | '}' :: rest => some (table .inline [], rest)
          | _ => none
        match others with
        | table _ members => (assign v key members).map fun members => (table .inline members, rest)
        | _ => none
      | _ => none

def readHeader (text : List Char) : Option (List String × Bool × List Char) :=
  match text with
  | '[' :: '[' :: rest =>
    match readKey (rest.length + 1) rest with
    | some (path, ']' :: ']' :: rest) => some (path, true, rest)
    | _ => none
  | '[' :: rest =>
    match readKey (rest.length + 1) rest with
    | some (path, ']' :: rest) => some (path, false, rest)
    | _ => none
  | _ => none

/-- The lines of a text below a header, put into the members read so far; `rounds` bounds their
number. -/
def readDocument : Nat → List String → List (String × Toml) → List Char →
    Option (List (String × Toml))
  | 0, _, _, _ => none
  | rounds + 1, header, members, text => do
    let text ← skipLines (text.length + 1) text
    match text with
    | [] => some members
    | '[' :: _ =>
      let (path, isElement, rest) ← readHeader text
      let rest ← lineEnd? rest
      let members ← if isElement then openElement path members else openTable path members
      readDocument rounds path members rest
    | _ =>
      let (key, rest) ← readKey (text.length + 1) text
      match rest with
      | '=' :: rest =>
        let rest := skipBlanks rest
        let (v, rest) ← read (2 * rest.length + 2) .value rest
        let rest ← lineEnd? rest
        let members ← within (assign v key) header members
        readDocument rounds header members rest
      | _ => none

def parse (text : String) : Option (List (String × Toml)) :=
  let chars := match text.toList with
    | '\ufeff' :: rest => rest
    | all => all
  readDocument (chars.length + 1) [] [] chars

end Toml

end Bundler
