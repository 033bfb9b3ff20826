import Bundler.Config
import Bundler.Fault
import Bundler.Json
import Bundler.Specifier

/-! From a specifier to the module it names. Relative specifiers are looked up from the directory of
the module that holds them, all others below the package directory and then among the modules of
the host. -/

namespace Bundler

inductive Resolved where
  /-- a file, the directory its own specifiers start from, and where it was found -/
  | file (path nextBase : Path) (kind : ModuleKind)
  | external (specifier : String)
  deriving DecidableEq, Repr

namespace Resolved

def kind : Resolved → ModuleKind
  | file _ _ kind => kind
  | external _ => .builtIn

def ofFile (path : Path) (kind : ModuleKind) : Resolved :=
  .file path path.directory kind

end Resolved

def mainName? : Json → Option (Option String)
  | .null => some none
  | .string (some name) => some (some name)
  | _ => none

/-- The `main` of a package manifest, if the text is one: an object, or a list of one item which
then is `main`. -/
def manifestMain? (text : String) : Option (Option String) :=
  match Json.parse text with
  | some (.array [value]) => mainName? value
  | some (.object members) =>
    if members.any fun m => m.1.isNone then none
    else
      match members.filter fun m => m.1 == some "main" with
      | [] => some none
      | [(_, value)] => mainName? value
      | _ => none
  | _ => none

structure Resolver where
  root : Path
  packageDir : String
  extension : String
  externals : List String
  deriving DecidableEq, Repr

namespace Resolver

def ofConfig (root : Path) (c : Config) : Resolver :=
  ⟨root.normalize, c.packageDir, c.extension, c.externals⟩

def extended (r : Resolver) (p : Path) : Path := p.append ('.' :: r.extension.toList)

def indexName (r : Resolver) : Path := .ofString ("index." ++ r.extension)

def firstFile (d : Disk) (paths : List Path) : Option Path := paths.find? d.isFile

/-- What a directory names as its main file; nothing if it has no readable manifest. -/
def manifestOf (d : Disk) (directory : Path) : Except BundleFault (Option String) :=
  let path := directory.join (.ofString "package.json")
  match d.readText path with
  | .error _ => .ok none
  | .ok text =>
    match manifestMain? text with
    | none => .error (.badManifest path)
    | some main => .ok (main.filter fun m => !m.isEmpty)

/-- The file that stands for a directory: what its manifest names as main, and nothing else if that
is missing; without a manifest its index. -/
def directoryFile (r : Resolver) (d : Disk) (directory : Path) :
    Except BundleFault (Option Path) :=
  match manifestOf d directory with
  | .error e => .error e
  | .ok none => .ok (firstFile d [directory.join r.indexName])
  | .ok (some main) =>
    let target := (directory.join (.ofString main)).normalize
    .ok (firstFile d [target, r.extended target, target.join r.indexName])

def equalIgnoringCase (a b : List Char) : Bool := a.map Char.toLower == b.map Char.toLower

/-- The path as it is when it has an extension and is a file, or has the default one already;
otherwise with the default extension. -/
def withExtension (r : Resolver) (d : Disk) (p : Path) : Path :=
  match p.extension? with
  | none => r.extended p
  | some ext =>
    if d.isFile p || equalIgnoringCase ext r.extension.toList then p else r.extended p

def relative? (r : Resolver) (d : Disk) (specifier : String) (base : Path) :
    Except BundleFault (Option Resolved) :=
  let target := (base.join (.ofString specifier)).normalize
  let candidate := r.withExtension d target
  if d.isFile candidate then .ok (some (.ofFile candidate .project))
  else if d.isDirectory target then
    (r.directoryFile d target).map fun found => found.map fun p => .ofFile p .project
  else .ok none

def packagePath (r : Resolver) (specifier : String) : Path :=
  ((r.root.join (.ofString r.packageDir)).join (.ofString specifier)).normalize

def hostModule? (r : Resolver) (specifier : String) : Option Resolved :=
  if Specifier.isHost specifier || r.externals.contains specifier then some (.external specifier)
  else none

def package? (r : Resolver) (d : Disk) (specifier : String) :
    Except BundleFault (Option Resolved) :=
  let path := r.packagePath specifier
  let installed := if d.isDirectory path then r.directoryFile d path else .ok none
  match installed with
  | .error e => .error e
  | .ok (some main) => .ok (some (.ofFile main .package))
  | .ok none =>
    match firstFile d [path, r.extended path] with
    | some file => .ok (some (.ofFile file .package))
    | none => .ok (r.hostModule? specifier)

def resolve (r : Resolver) (d : Disk) (specifier : String) (base : Path) :
    Except BundleFault Resolved :=
  let found :=
    if Specifier.isRelative specifier then r.relative? d specifier base else r.package? d specifier
  match found with
  | .error e => .error e
  | .ok (some resolved) => .ok resolved
  | .ok none => .error (.unresolved specifier base)

end Resolver

end Bundler
