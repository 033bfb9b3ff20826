import Bundler.Emit

/-! Sessions. One context is kept over builds, look-ups and texts of bundles, and the files may become
others in between. A build that fails leaves what it has found so far, with the modules that it was
walking still marked. -/

namespace Bundler.Session

inductive Action where
  /-- the files become others -/
  | change (tree : FileTree)
  | build (entry : Path)
  | resolve (specifier : String) (base : Path)
  /-- the text of a bundle of an entry with all that the context holds -/
  | emit (script : EntryScript) (options : EmitOptions) (shorten : Emit.Minifier)

inductive Outcome where
  | changed
  | built (result : Except BundleFault EntryScript)
  | resolved (result : Except BundleFault Resolved)
  | emitted (result : Except BundleFault String)

structure State where
  plan : Plan
  disk : Disk
  context : Context
  /-- the entries that have been built, the latest first -/
  scripts : List EntryScript

namespace State

def start (plan : Plan) (d : Disk) : State := ⟨plan, d, .empty, []⟩

def perform (s : State) : Action → Outcome × State
  | .change tree => (.changed, { s with disk := { s.disk with tree := tree } })
  | .build entry =>
    match (Build.entry s.plan s.disk entry).run.run s.context with
    | (.ok script, context) =>
      (.built (.ok script), { s with context := context, scripts := script :: s.scripts })
    | (.error e, context) => (.built (.error e), { s with context := context })
  | .resolve specifier base => (.resolved (s.plan.resolver.resolve s.disk specifier base), s)
  | .emit script options shorten =>
    (.emitted (Emit.emit script s.context.graph s.context.bound options shorten), s)

def after (s : State) (actions : List Action) : State :=
  actions.foldl (fun s action => (s.perform action).2) s

end State

end Bundler.Session
