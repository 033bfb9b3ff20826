import Bundler.Build
import Bundler.Script.Print

/-! The text of a bundle: every module in the order of the graph, then the entry, all inside one
function that is called at once. -/

namespace Bundler

structure EmitOptions where
  minify : Bool
  /-- the environment that the bundle defines, if it does -/
  processShim : Option String
  deriving DecidableEq, Repr

namespace Emit

def firstOf (a b : ContentId) : ContentId := if b.hex < a.hex then b else a

def least? : List ContentId → Option ContentId
  | [] => none
  | id :: rest => some (rest.foldl firstOf id)

def missing? (graph : Graph) (bound : List ContentId) : Option ContentId :=
  least? (bound.filter fun id => !graph.contains id)

def processShim (env : String) : String :=
  "var process = \x7b env: \x7b NODE_ENV: " ++ Json.quote env ++ " \x7d \x7d;"

def body (entry : EntryScript) (graph : Graph) (shim : Option String) : String :=
  let opening := match shim with
    | none => ""
    | some env => processShim env ++ "\n"
  let modules := graph.modules.map fun m => m.program.print ++ "\n"
  opening ++ String.join modules ++ entry.program.print

def enclosed (body : String) : String := "(function () \x7b\n" ++ body ++ "\n\x7d)();\n"

def bundlePath : Path := .ofString "<bundle>"

/-- How a script is shortened is the work of others; where none of them is named it is only printed. -/
abbrev Minifier := Script.Node → String

/-- The short form of a text. Only a script without `return` outside functions has one. -/
def minified (text : String) (shorten : Minifier := Script.Node.print) : Except BundleFault String :=
  match Script.parse false text with
  | .ok program => .ok (shorten program)
  | .error _ => .error (.malformed bundlePath)

def hashbangLine : Option String → String
  | none => ""
  | some line => "#!" ++ line ++ "\n"

def emit (entry : EntryScript) (graph : Graph) (bound : List ContentId)
    (options : EmitOptions) (shorten : Minifier := Script.Node.print) : Except BundleFault String :=
  match missing? graph bound with
  | some id => .error (.unbound id.binding)
  | none =>
    let text := enclosed (body entry graph options.processShim)
    let written := if options.minify then minified text shorten else .ok text
    written.map fun text => hashbangLine entry.hashbang ++ text

end Emit

end Bundler
