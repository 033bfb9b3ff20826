/-! Where a bundle runs and how often the body of a module does. -/

namespace Bundler

inductive ModuleKind where
  | project | package | builtIn
  deriving DecidableEq, Repr, Inhabited

namespace ModuleKind

def name : ModuleKind → String
  | project => "project"
  | package => "package"
  | builtIn => "built-in"

def isBuiltIn : ModuleKind → Bool
  | builtIn => true
  | _ => false

def all : List ModuleKind := [project, package, builtIn]

end ModuleKind

inductive Platform where
  | node | browser
  deriving DecidableEq, Repr

namespace Platform

instance : Inhabited Platform := ⟨node⟩

def name : Platform → String
  | node => "node"
  | browser => "browser"

def providesHostModules : Platform → Bool
  | node => true
  | browser => false

def all : List Platform := [node, browser]

def ofName? (text : String) : Option Platform := all.find? fun p => p.name == text

end Platform

/-- A module body runs once, or every time it is required. -/
inductive Instantiation where
  | memoized | reexecute
  deriving DecidableEq, Repr

namespace Instantiation

instance : Inhabited Instantiation := ⟨memoized⟩

def name : Instantiation → String
  | memoized => "memoized"
  | reexecute => "reexecute"

def all : List Instantiation := [memoized, reexecute]

def ofName? (text : String) : Option Instantiation := all.find? fun i => i.name == text

end Instantiation

end Bundler
