import Bundler.Script.Cursor
import Bundler.Script.Pattern

/-! What a reader of scripts can be asked for. The rules of the grammar are written against a
reader for smaller goals, and the grammar is the rules applied to themselves. -/

namespace Bundler.Script

structure Scope where
  /-- `in` is an operator -/
  hasIn : Bool
  yields : Bool
  awaits : Bool
  returns : Bool
  deriving DecidableEq, Repr, Inhabited

namespace Scope

def allowIn (s : Scope) : Scope := { s with hasIn := true }

def forbidIn (s : Scope) : Scope := { s with hasIn := false }

def function (isAsync isGenerator : Bool) : Scope := ⟨true, isGenerator, isAsync, true⟩

def arrow (s : Scope) (isAsync : Bool) : Scope := ⟨s.hasIn, false, isAsync, true⟩

def classPart : Scope := ⟨true, false, false, false⟩

end Scope

inductive Goal where
  /-- a statement, alone as the body of another or in a list -/
  | statement (isAlone : Bool)
  | expression
  | assignment
  /-- operators that bind tighter than a level -/
  | binary (floor : Precedence)
  | unary
  /-- a literal, name, member or call -/
  | leftSide
  /-- what stands after `new` -/
  | constructed
  | pattern
  deriving DecidableEq, Repr

abbrev Grammar := Scope → Goal → Parser Node

namespace Parser

def lift (n : Option Node) : Parser Node :=
  match n with
  | some n => return n
  | none => fail

def nameable (scope : Scope) (text : String) : Bool :=
  !isReserved text && !(scope.yields && text == "yield") && !(scope.awaits && text == "await")

def atIdentifier (scope : Scope) : Parser Bool := do
  match ← token with
  | .name text _ => return nameable scope text
  | _ => return false

def identifierName (scope : Scope) : Parser String := do
  match ← token with
  | .name text _ =>
    unless nameable scope text do fail
    advance
    return text
  | _ => fail

def identifier (scope : Scope) : Parser Node :=
  return .leaf (.identifier (← identifierName scope))

end Parser

end Bundler.Script
