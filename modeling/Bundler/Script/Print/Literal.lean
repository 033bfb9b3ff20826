import Bundler.Script.Print.Pen

/-! Strings and templates as they are written in a script. -/

namespace Bundler.Script.Literal

def closesScript (rest : List Char) : Bool :=
  (rest.take 7).map Char.toLower == "/script".toList

def escaped (c : Char) (rest : List Char) : List Char :=
  if c == '\x00' then (if rest.head?.any Char.isDigit then "\\x00" else "\\0").toList
  else if c == '\x07' then "\\x07".toList
  else if c == '\x08' then "\\b".toList
  else if c == '\n' then "\\n".toList
  else if c == '\x0b' then "\\v".toList
  else if c == '\x0c' then "\\f".toList
  else if c == '\r' then "\\r".toList
  else if c == '\x1b' then "\\x1B".toList
  else if c == '\\' then "\\\\".toList
  else if c == '"' then "\\\"".toList
  else if c == '\u2028' then "\\u2028".toList
  else if c == '\u2029' then "\\u2029".toList
  else if c == '\u00a0' then "\\xA0".toList
  else if c == '<' ∧ closesScript rest then "<\\".toList
  else [c]

/-- The text between the quotes. In a string with lone surrogates U+FFFD announces four
hexadecimal digits. -/
def escapedChars (hasLone : Bool) : List Char → List Char
  | [] => []
  | c :: rest =>
    match hasLone && c == '\ufffd', rest with
    | true, 'f' :: 'f' :: 'f' :: 'd' :: rest => '\ufffd' :: escapedChars hasLone rest
    | true, rest => '\\' :: 'u' :: escapedChars hasLone rest
    | false, rest => escaped c rest ++ escapedChars hasLone rest

def quoted (value : String) (hasLone : Bool) : List Char :=
  '"' :: (escapedChars hasLone value.toList ++ ['"'])

def templateChars : List Char → List Char
  | [] => []
  | '<' :: rest =>
    if closesScript rest then '<' :: '\\' :: templateChars rest else '<' :: templateChars rest
  | c :: rest => c :: templateChars rest

def directiveQuote : List Char → Char
  | '\\' :: _ :: rest => directiveQuote rest
  | '"' :: _ => '\x27'
  | '\x27' :: _ => '"'
  | _ :: rest => directiveQuote rest
  | [] => '"'

end Bundler.Script.Literal
