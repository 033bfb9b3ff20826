import Bundler.Emit

/-! A whole run: from an entry and a configuration to a bundle, and to a file that holds it. -/

namespace Bundler

structure Bundle where
  code : String
  /-- the modules in it, without the entry, in their order -/
  modules : List Path
  /-- specifiers left to the host -/
  externals : List String
  deriving DecidableEq, Repr

namespace Bundle

def directoryPath (at_ : Location) : Path := ⟨'/' :: Path.joinChars at_⟩

/-- The normal form of a path from the root; the empty path has none. -/
def absolute (cwd : Location) (p : Path) : Except BundleFault Path :=
  if p.isEmpty then .error (.io p .invalidInput)
  else .ok ((directoryPath cwd).join p).normalize

def rootOf (cwd : Location) (c : Config) (entry : Path) : Except BundleFault Path :=
  match c.root with
  | some root => absolute cwd root
  | none => .ok entry.directory

def make (d : Disk) (c : Config) (entry : Path) (shorten : Emit.Minifier := Script.Node.print) :
    Except BundleFault Bundle × List String :=
  let prepared : Except BundleFault (Path × Path) := do
    let entry ← absolute d.cwd entry
    return (entry, ← rootOf d.cwd c entry)
  match prepared with
  | .error e => (.error e, [])
  | .ok (entry, root) =>
    let (built, context) := (Build.entry (.ofConfig root c) d entry).run.run .empty
    let options : EmitOptions := ⟨c.minify, if c.processShim then some c.env else none⟩
    let bundle := do
      let script ← built
      let code ← Emit.emit script context.graph context.bound options shorten
      return ⟨code, context.graph.modules.map (·.path), context.externals⟩
    (bundle, context.warnings)

def directoryOf (output : Path) : Path :=
  match output.parent? with
  | some parent => if parent.isEmpty then ⟨['.']⟩ else parent
  | none => ⟨['.']⟩

/-- Put a text into a file, whose directory is made if it is missing. The text goes into a file of its
own in that directory, which is then moved to its place, or removed if it cannot be written or moved. -/
def write (d : Disk) (output : Path) (text : String) (broken : Option BrokenWrite := none) :
    FileTree × Except BundleFault PUnit :=
  let directory := directoryOf output
  match FileTree.makeDirectories d.cwd (directory.chars.length + 1) d.tree directory with
  | (tree, .error e) => (tree, .error (.io directory e))
  | (tree, .ok _) =>
    match tree.makeTemporary d.cwd directory with
    | .error e => (tree, .error (.io directory e))
    | .ok (tree, temporary) =>
      match tree.writeText temporary text broken with
      | (tree, .error e) =>
        (tree.remove temporary, .error (.io (directory.join ⟨temporary.getLastD []⟩) e))
      | (tree, .ok _) =>
        match tree.rename d.cwd temporary output with
        | .ok tree => (tree, .ok ())
        | .error e => (tree.remove temporary, .error (.io output e))

def makeFile (d : Disk) (c : Config) (entry output : Path)
    (shorten : Emit.Minifier := Script.Node.print) (broken : Option BrokenWrite := none) :
    FileTree × Except BundleFault Bundle × List String :=
  match make d c entry shorten with
  | (.error e, warnings) => (d.tree, .error e, warnings)
  | (.ok bundle, warnings) =>
    match write d output bundle.code broken with
    | (tree, .ok _) => (tree, .ok bundle, warnings)
    | (tree, .error e) => (tree, .error e, warnings)

end Bundle

end Bundler
