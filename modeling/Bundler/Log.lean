import Bundler.Path

/-! Messages to the user of a run, each from a source and of a severity, and the rules that say
which of them are shown. -/

namespace Bundler

inductive Severity where
  | error | warn | info | debug | trace
  deriving DecidableEq, Repr

namespace Severity

def all : List Severity := [error, warn, info, debug, trace]

def name : Severity → String
  | error => "ERROR"
  | warn => "WARN"
  | info => "INFO"
  | debug => "DEBUG"
  | trace => "TRACE"

def level : Severity → Nat
  | error => 1
  | warn => 2
  | info => 3
  | debug => 4
  | trace => 5

end Severity

structure LogRule where
  /-- what the names of the sources start with that the rule is for; all of them if not given -/
  source : Option String
  /-- messages up to this level are shown -/
  level : Nat
  deriving DecidableEq, Repr

structure LogFilter where
  rules : List LogRule
  /-- a text that every message shown has in it -/
  phrase : Option String
  deriving DecidableEq, Repr

namespace LogFilter

def ofVerbosity : Nat → LogFilter
  | 0 => ⟨[⟨none, 2⟩], none⟩
  | 1 => ⟨[⟨none, 3⟩], none⟩
  | 2 => ⟨[⟨none, 4⟩], none⟩
  | _ => ⟨[⟨none, 5⟩], none⟩

def level? (name : String) : Option Nat :=
  let name := name.map Char.toUpper
  if name = "OFF" then some 0
  else (Severity.all.find? fun s => s.name == name).map Severity.level

def trim (text : List Char) : List Char :=
  ((text.dropWhile Char.isWhitespace).reverse.dropWhile Char.isWhitespace).reverse

def rule? (text : List Char) : Option LogRule :=
  match (splitChars '=' text).map String.ofList with
  | [one] =>
    match level? one with
    | some level => some ⟨none, level⟩
    | none => some ⟨some one, 5⟩
  | [source, level] =>
    let level := String.ofList (trim level.toList)
    if level = "" then some ⟨some source, 5⟩ else (level? level).map fun n => ⟨some source, n⟩
  | _ => none

def addRule (rules : List LogRule) (rule : LogRule) : List LogRule :=
  if rules.any fun r => r.source == rule.source then
    rules.map fun r => if r.source = rule.source then rule else r
  else rules ++ [rule]

/-- Further rules, with commas between them; a phrase may follow after a slash. A text with more
slashes says nothing, and neither does a rule that cannot be understood. -/
def extend (f : LogFilter) (text : String) : LogFilter :=
  let rules (part : List Char) : List LogRule :=
    ((((splitChars ',' part).map trim).filter fun p => !p.isEmpty).filterMap rule?).foldl addRule f.rules
  match splitChars '/' text.toList with
  | [part] => ⟨rules part, none⟩
  | [part, phrase] => ⟨rules part, some (String.ofList phrase)⟩
  | _ => f

def weight (rule : LogRule) : Nat :=
  match rule.source with
  | none => 0
  | some source => source.utf8ByteSize

def isFor (source : String) (rule : LogRule) : Bool :=
  match rule.source with
  | none => true
  | some start => start.toList.isPrefixOf source.toList

/-- The last of the rules with the greatest weight. -/
def heaviest : List LogRule → Option LogRule
  | [] => none
  | rule :: rest =>
    match heaviest rest with
    | some other => some (if weight rule > weight other then rule else other)
    | none => some rule

def hasPhrase (phrase text : List Char) : Bool :=
  phrase.isPrefixOf text || match text with
    | [] => false
    | _ :: rest => hasPhrase phrase rest

def shows (f : LogFilter) (severity : Severity) (source text : String) : Bool :=
  let isLet := match heaviest (f.rules.filter (isFor source)) with
    | none => false
    | some rule => severity.level ≤ rule.level
  isLet && match f.phrase with
    | none => true
    | some phrase => hasPhrase phrase.toList text.toList

end LogFilter

namespace Log

def setIn : List Char → List Char
  | [] => []
  | '\n' :: rest => '\n' :: ' ' :: ' ' :: ' ' :: ' ' :: setIn rest
  | c :: rest => c :: setIn rest

def label (severity : Severity) : String :=
  severity.name ++ String.ofList (List.replicate (5 - severity.name.length) ' ')

def line (severity : Severity) (source text : String) : String :=
  "[" ++ label severity ++ " " ++ source ++ "] " ++ String.ofList (setIn text.toList)

end Log

end Bundler
