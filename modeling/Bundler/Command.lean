import Bundler.Bundle
import Bundler.CommandLine
import Bundler.Config.Load
import Bundler.Log

/-! A run from a command line: its configuration, the bundle, the file, and what the user is
told. -/

namespace Bundler

inductive CommandFault where
  | refused (refusal : Refusal)
  | badConfig (cause : ConfigFault)
  | failed (entry : Path) (cause : BundleFault)
  deriving DecidableEq, Repr

namespace CommandFault

def exitCode : CommandFault → Nat
  | refused (.usage _) => 2
  | refused _ => 0
  | badConfig _ | failed _ _ => 1

def headline? : CommandFault → Option String
  | refused _ => none
  | badConfig _ => some "Failed to load configuration"
  | failed entry _ => some ("Failed to bundle " ++ entry.toString)

def cause? : CommandFault → Option String
  | refused _ => none
  | badConfig cause => some cause.message
  | failed _ cause => some cause.message

end CommandFault

structure Outcome where
  tree : FileTree
  /-- the lines of the log -/
  log : List String
  result : Except CommandFault Bundle

namespace Outcome

def exitCode (o : Outcome) : Nat :=
  match o.result with
  | .ok _ => 0
  | .error e => e.exitCode

end Outcome

namespace Command

def finder : String := "cjspack::graph_builder"

/-- The warnings that are shown. The variable for the log adds to what the command line asks for. -/
def logOf (vars : Variables) (verbosity : Nat) (warnings : List String) : List String :=
  let base := LogFilter.ofVerbosity verbosity
  let filter := match vars "RUST_LOG" with
    | some text => base.extend text
    | none => base
  (warnings.filter (filter.shows .warn finder)).map (Log.line .warn finder)

def bundle (d : Disk) (vars : Variables) (line : CommandLine) (c : Config)
    (shorten : Emit.Minifier := Script.Node.print) (broken : Option BrokenWrite := none) : Outcome :=
  match Bundle.makeFile d (line.settings c) line.entry line.output shorten broken with
  | (tree, made, warnings) =>
    ⟨tree, logOf vars line.verbosity warnings, made.mapError (CommandFault.failed line.entry)⟩

def run (d : Disk) (vars : Variables) (arguments : List String)
    (shorten : Emit.Minifier := Script.Node.print) (broken : Option BrokenWrite := none) : Outcome :=
  match CommandLine.parse arguments with
  | .error refusal => ⟨d.tree, [], .error (.refused refusal)⟩
  | .ok line =>
    match Config.load d vars line.configFile with
    | .error cause => ⟨d.tree, [], .error (.badConfig cause)⟩
    | .ok c => bundle d vars line c shorten broken

end Command

end Bundler
