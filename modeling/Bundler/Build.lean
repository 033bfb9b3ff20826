import Bundler.Cache
import Bundler.Graph
import Bundler.Require
import Bundler.Resolver
import Bundler.Script.Parse
import Bundler.Wrapper

/-! Building the graph of an entry. A module is read, wrapped and walked to its end when it is first
required, so it stands in the graph before the module that required it is complete. A context
outlives failed builds and is what a failed step left. -/

namespace Bundler

structure Plan where
  resolver : Resolver
  env : String
  platform : Platform
  instantiation : Instantiation
  deriving DecidableEq, Repr

def Plan.ofConfig (root : Path) (c : Config) : Plan :=
  ⟨.ofConfig root c, c.env, c.platform, c.instantiation⟩

structure Context where
  cache : Cache
  graph : Graph
  /-- modules that are being walked; to require one of them again closes a cycle -/
  inProgress : List ContentId
  /-- specifiers left to the host, each at its first place -/
  externals : List String
  /-- modules that some call was bound to -/
  bound : List ContentId
  /-- one line for each specifier left to the host -/
  warnings : List String

namespace Context

def empty : Context := ⟨.empty, .empty, [], [], [], []⟩

instance : Inhabited Context := ⟨empty⟩

def knows (c : Context) (id : ContentId) : Bool := c.graph.contains id || c.inProgress.contains id

def leave (c : Context) (specifier : String) : Context :=
  if c.externals.contains specifier then c
  else
    { c with
      externals := c.externals ++ [specifier]
      warnings := c.warnings ++ ["Leaving built-in '" ++ specifier ++ "' to the host runtime"] }

def record (c : Context) (id : ContentId) : Context :=
  if c.bound.contains id then c else { c with bound := id :: c.bound }

def enter (c : Context) (id : ContentId) : Context := { c with inProgress := id :: c.inProgress }

def complete (c : Context) (id : ContentId) (p : Path) (program : Script.Node) : Context :=
  { c with
    inProgress := c.inProgress.filter (· != id)
    graph := (c.graph.insert id p program).2 }

end Context

/-- A computation on a context; what was done before a failure stays done. -/
abbrev Build := ExceptT BundleFault (StateM Context)

structure EntryScript where
  path : Path
  program : Script.Node
  hashbang : Option String

namespace Build

section

variable {m : Type → Type} [Monad m] [MonadStateOf Context m] [MonadExceptOf BundleFault m]

def readText (d : Disk) (p : Path) : m String := do
  let c ← getThe Context
  match c.cache.read d p with
  | .error e => throw e
  | .ok (text, cache) =>
    set { c with cache := cache }
    return text

def parseScript (p : Path) (text : String) : m Script.Node :=
  match Script.parse true text with
  | .ok program => return program
  | .error _ => throw (.malformed p)

/-- A specifier that no file answers to is the business of the host, unless it is one of its modules
and the platform has none. It makes no difference then whether the configuration lists it. -/
def leaveToHost (plan : Plan) (specifier : String) : m PUnit := do
  if !plan.platform.providesHostModules && Specifier.isHost specifier then
    throw (.unavailable specifier plan.platform)
  modifyThe Context (·.leave specifier)

def answer (ask : String → m (Option ContentId)) (specifier : String) : m (Option ContentId) := do
  let target ← ask specifier
  match target with
  | some id => modifyThe Context (·.record id)
  | none => pure ()
  return target

def attempt {α : Type} (x : m α) : m (Except BundleFault α) :=
  tryCatchThe BundleFault (Except.ok <$> x) fun e => return .error e

/-- Settle the guards of a program and bind its requires, which are asked for in the order of the
text, in one walk. The program of a walk that fails is given up. -/
def bindProgram (plan : Plan) (ask : String → m (Option ContentId)) (program : Script.Node) :
    m Script.Node := do
  let (bound, failure) ← (program.visitNode plan.env (attempt <| answer ask ·)).run none
  match failure with
  | some e => throw e
  | none => return bound

/-- The module that a specifier names, put into the graph if it is not there; nothing for one that
is left to the host. The depth bounds the modules inside one another. -/
def includeModule (plan : Plan) (d : Disk) : Nat → Path → String → m (Option ContentId)
  | 0, _, _ => throw .tooDeep
  | depth + 1, base, specifier => do
    match plan.resolver.resolve d specifier base with
    | .error e => throw e
    | .ok (.external specifier) =>
      leaveToHost plan specifier
      return none
    | .ok (.file path nextBase _) =>
      let text ← readText d path
      let id := ContentId.ofText text
      let c ← getThe Context
      if c.knows id then return some id
      else
        -- the text has to be a script by itself, not only inside its wrapper
        let _ ← parseScript path text
        modifyThe Context (·.enter id)
        let wrapped ← parseScript path (Wrapper.wrap id text plan.instantiation)
        let program ← bindProgram plan (includeModule plan d depth nextBase) wrapped
        modifyThe Context (·.complete id path program)
        return some id

/-- More than there can be modules inside one another: they have different texts. -/
def depthFor (c : Context) (d : Disk) : Nat := d.tree.fileCount + c.cache.size + 2

def splitHashbang : Script.Node → Option String × Script.Node
  | ⟨.program hashbang closing, notes, parts⟩ => (hashbang, ⟨.program none closing, notes, parts⟩)
  | n => (none, n)

/-- Read an entry, and find, wrap and bind all that it requires, in any monad that has a context
and can fail. -/
def buildEntry (plan : Plan) (d : Disk) (path : Path) : m EntryScript := do
  let text ← readText d path
  let parsed ← parseScript path text
  let (hashbang, program) := splitHashbang parsed
  let c ← getThe Context
  let bound ← bindProgram plan (includeModule plan d (depthFor c d) path.directory) program
  return ⟨path, bound, hashbang⟩

end

def entry (plan : Plan) (d : Disk) (path : Path) : Build EntryScript := buildEntry plan d path

end Build

end Bundler
