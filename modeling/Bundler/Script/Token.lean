import Bundler.Script.Letter
import Bundler.Script.Numeral

/-! The words, numbers, strings and marks of a script, each read from the front of a text. -/

namespace Bundler.Script

inductive Token where
  | name (text : String) (hasEscape : Bool)
  | privateName (text : String)
  | mark (text : String)
  | number (value : Numeral)
  | bigint (digits : String)
  | string (value raw : String) (hasLoneSurrogate : Bool)
  | template (raw : String) (cooked : Option String) (isLast : Bool)
  | ending
  deriving DecidableEq, Repr, Inhabited

namespace Token

def marks : List (List Char) :=
  [">>>=", "...", "===", "!==", "**=", "<<=", ">>=", ">>>", "&&=", "||=", "??=", "=>", "==", "!=",
    "<=", ">=", "&&", "||", "??", "?.", "++", "--", "+=", "-=", "*=", "/=", "%=", "&=", "|=", "^=",
    "<<", ">>", "**", "\x7b", "\x7d", "(", ")", "[", "]", ".", ";", ",", "<", ">", "+", "-", "*",
    "/", "%", "&", "|", "^", "!", "~", "?", ":", "=", "@"].map String.toList

def after? : List Char → List Char → Option (List Char)
  | [], text => some text
  | c :: start, d :: text => if c = d then after? start text else none
  | _ :: _, [] => none

/-- `?.` before a digit is a question mark and the start of a number. -/
def readMark (text : List Char) : Option (Token × List Char) :=
  match text with
  | '?' :: '.' :: d :: _ =>
    if d.isDigit then some (mark "?", text.drop 1) else some (mark "?.", text.drop 2)
  | _ => marks.findSome? fun m => (after? m text).map fun rest => (mark (String.ofList m), rest)

def readCodePoint (text : List Char) : Option (Nat × List Char) :=
  match text with
  | '{' :: rest =>
    let digits := rest.takeWhile fun c => (digitValue? 16 c).isSome
    let code := digits.foldl (fun n c => n * 16 + (digitValue? 16 c).getD 0) 0
    match digits, rest.drop digits.length with
    | _ :: _, '}' :: rest => if code ≤ 0x10ffff then some (code, rest) else none
    | _, _ => none
  | a :: b :: c :: d :: rest => do
    let a ← digitValue? 16 a
    let b ← digitValue? 16 b
    let c ← digitValue? 16 c
    let d ← digitValue? 16 d
    some (((a * 16 + b) * 16 + c) * 16 + d, rest)
  | _ => none

/-- The characters of a name and whether one was written as an escape; `rounds` bounds their
number. -/
def readName (accepts : Char → Bool) : Nat → List Char → Option (List Char × Bool × List Char)
  | 0, text => some ([], false, text)
  | rounds + 1, text =>
    match text with
    | '\\' :: 'u' :: rest =>
      match readCodePoint rest with
      | none => none
      | some (code, rest) =>
        let c := Char.ofNat code
        if accepts c then
          (readName continuesName rounds rest).map fun (cs, _, rest) => (c :: cs, true, rest)
        else none
    | '\\' :: _ => none
    | c :: rest =>
      if accepts c then
        (readName continuesName rounds rest).map fun (cs, escaped, rest) => (c :: cs, escaped, rest)
      else some ([], false, text)
    | [] => some ([], false, text)

def readDigits (base : Nat) (afterDigit : Bool) : List Char → Option (List Nat × List Char)
  | [] => some ([], [])
  | '_' :: rest =>
    if afterDigit && rest.head?.any fun c => (digitValue? base c).isSome then
      readDigits base false rest
    else none
  | c :: rest =>
    match digitValue? base c with
    | some d => (readDigits base true rest).map fun (ds, rest) => (d :: ds, rest)
    | none => some ([], c :: rest)

def natOfDigits (base : Nat) (digits : List Nat) : Nat := digits.foldl (fun n d => n * base + d) 0

def endsNumber (token : Token) (rest : List Char) : Option (Token × List Char) :=
  match rest with
  | c :: _ => if startsName c || c.isDigit || c == '\\' then none else some (token, rest)
  | [] => some (token, rest)

def readRadix (base : Nat) (text : List Char) : Option (Token × List Char) := do
  let (digits, rest) ← readDigits base false text
  if digits = [] then none
  else
    let value := natOfDigits base digits
    match rest with
    | 'n' :: rest => endsNumber (bigint (toString value)) rest
    | _ => endsNumber (number (.ofDecimal value 0)) rest

def readPower (text : List Char) : Option (Int × List Char) := do
  let (digits, rest) ← readDigits 10 false text
  if digits = [] then none else some ((natOfDigits 10 digits : Int), rest)

def readSignedPower (text : List Char) : Option (Int × List Char) :=
  match text with
  | '+' :: rest => readPower rest
  | '-' :: rest => (readPower rest).map fun (n, rest) => (-n, rest)
  | _ => readPower text

def readExponent (text : List Char) : Option (Int × List Char) :=
  match text with
  | c :: rest => if c == 'e' || c == 'E' then readSignedPower rest else some (0, text)
  | [] => some (0, [])

def readFraction (text : List Char) : Option (List Nat × List Char) :=
  match text with
  | '.' :: rest => readDigits 10 false rest
  | _ => some ([], text)

def readDecimal (text : List Char) : Option (Token × List Char) := do
  let (whole, rest) ← readDigits 10 false text
  match rest with
  | 'n' :: rest =>
    if whole = [] then none else endsNumber (bigint (toString (natOfDigits 10 whole))) rest
  | _ =>
    let (fraction, rest) ← readFraction rest
    let (exponent, rest) ← readExponent rest
    if whole = [] ∧ fraction = [] then none
    else
      let value := natOfDigits 10 (whole ++ fraction)
      endsNumber (number (.ofDecimal value (exponent - fraction.length))) rest

/-- A leading zero makes a number octal when no digit after it is eight or nine. -/
def readLegacy (text : List Char) : Option (Token × List Char) :=
  let digits := text.takeWhile Char.isDigit
  let rest := text.drop digits.length
  if digits.all fun c => (digitValue? 8 c).isSome then
    endsNumber (number (.ofDecimal (natOfDigits 8 (digits.filterMap (digitValue? 8))) 0)) rest
  else readDecimal text

def readNumber (text : List Char) : Option (Token × List Char) :=
  match text with
  | '0' :: c :: rest =>
    if c == 'x' || c == 'X' then readRadix 16 rest
    else if c == 'o' || c == 'O' then readRadix 8 rest
    else if c == 'b' || c == 'B' then readRadix 2 rest
    else if c.isDigit then readLegacy text
    else if c == '_' then none
    else readDecimal text
  | _ => readDecimal text

/-- A piece of text: a character or half of a surrogate pair that stands alone. -/
inductive Unit where
  | char (c : Char)
  | surrogate (code : Nat)
  deriving DecidableEq, Repr

def Unit.ofCode (code : Nat) : Unit :=
  if 0xd800 ≤ code ∧ code < 0xe000 then surrogate code else char (Char.ofNat code)

/-- Put a unit before others, as one character with the first of them when they are a pair. -/
def Unit.glue : Unit → List Unit → List Unit
  | .surrogate high, .surrogate low :: rest =>
    if high < 0xdc00 ∧ 0xdc00 ≤ low then
      .char (Char.ofNat (0x10000 + (high - 0xd800) * 0x400 + (low - 0xdc00))) :: rest
    else .surrogate high :: .surrogate low :: rest
  | u, rest => u :: rest

def joinPairs (units : List Unit) : List Unit := units.foldr Unit.glue []

def hasLone (units : List Unit) : Bool :=
  units.any fun
    | .surrogate _ => true
    | .char _ => false

private def fourHex (n : Nat) : List Char :=
  let digits := Nat.toDigits 16 n
  List.replicate (4 - digits.length) '0' ++ digits

/-- The value of a string: a lone surrogate is U+FFFD and four hexadecimal digits, and U+FFFD
itself is then written that way too. -/
def textOfUnits (units : List Unit) : String :=
  if hasLone units then
    String.ofList <| units.flatMap fun
      | .surrogate code => '\ufffd' :: fourHex code
      | .char c => if c == '\ufffd' then '\ufffd' :: fourHex 0xfffd else [c]
  else
    String.ofList <| units.flatMap fun
      | .surrogate _ => []
      | .char c => [c]

inductive Escape where
  /-- an escape that stands for some text -/
  | units (us : List Unit)
  /-- an escape with digits that a template does not know -/
  | legacy (us : List Unit)
  | broken

def readHexEscape (text : List Char) : Escape × List Char :=
  match text with
  | a :: b :: rest =>
    match digitValue? 16 a, digitValue? 16 b with
    | some a, some b => (.units [.char (Char.ofNat (a * 16 + b))], rest)
    | _, _ => (.broken, text)
  | _ => (.broken, text)

def readPointEscape (text : List Char) : Escape × List Char :=
  match readCodePoint text with
  | some (code, rest) => (.units [.ofCode code], rest)
  | none => (.broken, text)

def controlLetters : List (Char × Char) :=
  [('n', '\n'), ('t', '\t'), ('r', '\r'), ('b', '\x08'), ('v', '\x0b'), ('f', '\x0c')]

/-- The octal digits at the front of a text: three, or two where three would be too great. -/
def octalDigits (first : Char) (rest : List Char) : List Char :=
  let most := if first ≤ '3' then 3 else 2
  ((first :: rest).take most).takeWhile fun c => (digitValue? 8 c).isSome

def readOctalEscape (first : Char) (rest : List Char) : Escape × List Char :=
  let digits := octalDigits first rest
  let code := natOfDigits 8 (digits.filterMap (digitValue? 8))
  (.legacy [.char (Char.ofNat code)], (first :: rest).drop digits.length)

def readPlainEscape (c : Char) (rest : List Char) : Escape × List Char :=
  if isLineEnd c then (.units [], rest)
  else
    match controlLetters.lookup c with
    | some control => (.units [.char control], rest)
    | none =>
      if c == '0' ∧ ¬ (rest.head?.any Char.isDigit) then (.units [.char '\x00'], rest)
      else if (digitValue? 8 c).isSome then readOctalEscape c rest
      else if c == '8' || c == '9' then (.legacy [.char c], rest)
      else (.units [.char c], rest)

def readEscape (text : List Char) : Escape × List Char :=
  match text with
  | c :: rest =>
    if c == 'x' then readHexEscape rest
    else if c == 'u' then readPointEscape rest
    else if c == '\r' ∧ rest.head? = some '\n' then (.units [], rest.drop 1)
    else readPlainEscape c rest
  | [] => (.broken, [])

def readString (quote : Char) : Nat → List Char → Option (List Unit × List Char)
  | 0, _ => none
  | rounds + 1, text =>
    match text with
    | [] => none
    | '\\' :: rest =>
      match readEscape rest with
      | (.units us, rest) | (.legacy us, rest) =>
        (readString quote rounds rest).map fun (more, rest) => (us ++ more, rest)
      | (.broken, _) => none
    | c :: rest =>
      if c == quote then some ([], rest)
      else if c == '\n' || c == '\r' then none
      else (readString quote rounds rest).map fun (more, rest) => (.char c :: more, rest)

/-- Template text up to a substitution or the closing quote: what it is read as, if all escapes
have a meaning, and whether it is the last. -/
def readTemplate : Nat → List Char → Option (Option (List Unit) × Bool × List Char)
  | 0, _ => none
  | rounds + 1, text =>
    let extend (us : List Unit) (rest : List Char) :=
      (readTemplate rounds rest).map fun (more, isLast, rest) => (more.map (us ++ ·), isLast, rest)
    match text with
    | [] => none
    | c :: rest =>
      if c == '\x60' then some (some [], true, rest)
      else if c == '$' ∧ rest.head? = some '\x7b' then some (some [], false, rest.drop 1)
      else if c == '\r' then
        extend [.char '\n'] (if rest.head? = some '\n' then rest.drop 1 else rest)
      else if c == '\\' then
        match readEscape rest with
        | (.units us, rest) => extend us rest
        | (.legacy _, rest) | (.broken, rest) =>
          (readTemplate rounds rest).map fun (_, isLast, rest) => (none, isLast, rest)
      else extend [.char c] rest

def unifyLines : List Char → List Char
  | '\r' :: '\n' :: rest => '\n' :: unifyLines rest
  | '\r' :: rest => '\n' :: unifyLines rest
  | c :: rest => c :: unifyLines rest
  | [] => []

def span (text rest : List Char) (closing : Nat) : List Char :=
  text.take (text.length - rest.length - closing)

def templateFrom (text : List Char) : Option (Token × List Char) :=
  (readTemplate (text.length + 1) text).map fun (cooked, isLast, rest) =>
    let raw := span text rest (if isLast then 1 else 2)
    (template (String.ofList (unifyLines raw)) (cooked.map fun us => textOfUnits (joinPairs us))
      isLast, rest)

def read (text : List Char) : Option (Token × List Char) :=
  match text with
  | [] => some (ending, [])
  | c :: rest =>
    if c == '"' || c == '\x27' then
      (readString c (rest.length + 1) rest).map fun (units, after) =>
        let units := joinPairs units
        (string (textOfUnits units) (String.ofList (span rest after 1)) (hasLone units), after)
    else if c == '\x60' then templateFrom rest
    else if c.isDigit then readNumber text
    else if c == '.' ∧ rest.head?.any Char.isDigit then readNumber text
    else if c == '#' then
      match readName startsName (rest.length + 1) rest with
      | some (d :: ds, _, rest) => some (privateName (String.ofList ('#' :: d :: ds)), rest)
      | _ => none
    else if startsName c || c == '\\' then
      match readName startsName (text.length + 1) text with
      | some (d :: ds, escaped, rest) => some (name (String.ofList (d :: ds)) escaped, rest)
      | _ => none
    else readMark text

def readRegexBody : Nat → Bool → List Char → Option (List Char × List Char)
  | 0, _, _ => none
  | rounds + 1, inClass, text =>
    match text with
    | [] => none
    | '\\' :: c :: rest =>
      if isLineEnd c then none
      else (readRegexBody rounds inClass rest).map fun (body, rest) => ('\\' :: c :: body, rest)
    | c :: rest =>
      if isLineEnd c then none
      else if c == '/' ∧ !inClass then some ([], rest)
      else
        let inClass := if c == '[' then true else if c == ']' then false else inClass
        (readRegexBody rounds inClass rest).map fun (body, rest) => (c :: body, rest)

def regexFlags : List Char := ['d', 'g', 'i', 'm', 's', 'u', 'v', 'y']

def orderedFlags? (flags : List Char) : Option (List Char) :=
  if flags.all regexFlags.contains ∧ flags.Nodup then some (regexFlags.filter flags.contains)
  else none

def readRegex (text : List Char) : Option (String × String × List Char) :=
  match readRegexBody (text.length + 1) false text with
  | none => none
  | some (body, rest) =>
    let flags := rest.takeWhile continuesName
    let rest := rest.drop flags.length
    if rest.head? = some '\\' then none
    else (orderedFlags? flags).map fun flags => (String.ofList body, String.ofList flags, rest)

end Token

end Bundler.Script
