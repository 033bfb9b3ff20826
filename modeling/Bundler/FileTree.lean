import Bundler.Path

/-! Files and directories below one root. Paths are followed one component at a time, so a path
through a missing directory leads nowhere even if it climbs out of it again. The tree may be a part of
a larger one, of which nothing is known: `..` at its root leads above it, to directories that hold
nothing. -/

namespace Bundler

inductive IoFault where
  | notFound
  | isADirectory
  | notADirectory
  | invalidData
  | invalidInput
  | alreadyExists
  | permissionDenied
  | storageFull
  deriving DecidableEq, Repr, Inhabited

namespace IoFault

def name : IoFault → String
  | notFound => "NotFound"
  | isADirectory => "IsADirectory"
  | notADirectory => "NotADirectory"
  | invalidData => "InvalidData"
  | invalidInput => "InvalidInput"
  | alreadyExists => "AlreadyExists"
  | permissionDenied => "PermissionDenied"
  | storageFull => "StorageFull"

end IoFault

/-- What a file holds: text, bytes that are no text, or bytes that may not be read. -/
inductive Content where
  | text (value : String)
  | binary (bytes : List UInt8)
  | sealed (bytes : List UInt8)
  deriving DecidableEq, Repr, Inhabited

def Content.ofBytes (bytes : ByteArray) : Content :=
  match String.fromUTF8? bytes with
  | some value => .text value
  | none => .binary bytes.data.toList

inductive Entry where
  | directory
  | file (content : Content)
  deriving DecidableEq, Repr, Inhabited

/-- The names from the root down to an entry. -/
abbrev Location := List (List Char)

/-- A text that the disk does not take as a whole. -/
structure BrokenWrite where
  cause : IoFault
  /-- what is in the file by then -/
  written : String
  deriving DecidableEq, Repr

structure FileTree where
  entries : List (Location × Entry)
  deriving Inhabited

namespace FileTree

def empty : FileTree := ⟨[]⟩

/-- The entry at a location; the root is always a directory. -/
def lookup? (t : FileTree) (at_ : Location) : Option Entry :=
  if at_ = [] then some .directory else (t.entries.find? fun e => e.1 == at_).map (·.2)

def putIn : List (Location × Entry) → Location → Entry → List (Location × Entry)
  | [], at_, entry => [(at_, entry)]
  | e :: rest, at_, entry => if e.1 = at_ then (at_, entry) :: rest else e :: putIn rest at_ entry

def put (t : FileTree) (at_ : Location) (entry : Entry) : FileTree := ⟨putIn t.entries at_ entry⟩

def remove (t : FileTree) (at_ : Location) : FileTree :=
  ⟨t.entries.filter fun e => !(at_.isPrefixOf e.1)⟩

/-- A place reached by following a path: an entry, or an empty directory above the root. -/
inductive Spot where
  | above
  | at_ (location : Location) (entry : Entry)
  deriving DecidableEq, Repr, Inhabited

def enter (t : FileTree) (spot : Spot) (segment : List Char) : Except IoFault Spot :=
  match spot with
  | .above =>
    if Path.isIdle segment || segment == ['.', '.'] then .ok .above else .error .notFound
  | .at_ _ (.file _) => .error .notADirectory
  | .at_ location .directory =>
    if Path.isIdle segment then .ok spot
    else if segment = ['.', '.'] then
      .ok (if location = [] then .above else .at_ location.dropLast .directory)
    else
      match t.lookup? (location ++ [segment]) with
      | some entry => .ok (.at_ (location ++ [segment]) entry)
      | none => .error .notFound

def walk (t : FileTree) (spot : Spot) (segments : List (List Char)) : Except IoFault Spot :=
  segments.foldlM (enter t) spot

def follow (t : FileTree) (cwd : Location) (p : Path) : Except IoFault Spot :=
  if p.isEmpty then .error .notFound
  else if p.chars.contains '\x00' then .error .invalidInput
  else t.walk (.at_ (if p.isAbsolute then [] else cwd) .directory) p.segments

def isFile (t : FileTree) (cwd : Location) (p : Path) : Bool :=
  match t.follow cwd p with
  | .ok (.at_ _ (.file _)) => true
  | _ => false

def isDirectory (t : FileTree) (cwd : Location) (p : Path) : Bool :=
  match t.follow cwd p with
  | .ok .above | .ok (.at_ _ .directory) => true
  | _ => false

def readText (t : FileTree) (cwd : Location) (p : Path) : Except IoFault String :=
  match t.follow cwd p with
  | .error e => .error e
  | .ok .above | .ok (.at_ _ .directory) => .error .isADirectory
  | .ok (.at_ _ (.file (.text value))) => .ok value
  | .ok (.at_ _ (.file (.binary _))) => .error .invalidData
  | .ok (.at_ _ (.file (.sealed _))) => .error .permissionDenied

def Spot.directory? : Spot → Except IoFault Location
  | .above => .error .notFound
  | .at_ _ (.file _) => .error .notADirectory
  | .at_ location .directory => .ok location

def target? (t : FileTree) (cwd : Location) (p : Path) : Except IoFault Location :=
  match p.fileName?, p.parent? with
  | some name, some parent => do
    let spot ← if parent.isEmpty then .ok (.at_ cwd .directory) else t.follow cwd parent
    return (← spot.directory?) ++ [name]
  | _, _ => .error .notFound

def makeDirectory (t : FileTree) (cwd : Location) (p : Path) : Except IoFault FileTree :=
  match t.follow cwd p with
  | .ok _ => .error .alreadyExists
  | .error .notFound => (t.target? cwd p).map fun location => t.put location .directory
  | .error e => .error e

/-- Make a directory and those it lies in; `rounds` bounds their number. What was made before a
failure stays. -/
def makeDirectories (cwd : Location) : Nat → FileTree → Path → FileTree × Except IoFault PUnit
  | 0, t, _ => (t, .error .notFound)
  | rounds + 1, t, p =>
    if p.isEmpty then (t, .ok ())
    else
      let settle (t : FileTree) (e : IoFault) : FileTree × Except IoFault PUnit :=
        if t.isDirectory cwd p then (t, .ok ()) else (t, .error e)
      match t.makeDirectory cwd p with
      | .ok made => (made, .ok ())
      | .error .notFound =>
        match p.parent? with
        | none => (t, .error .notFound)
        | some parent =>
          match makeDirectories cwd rounds t parent with
          | (t, .error e) => (t, .error e)
          | (t, .ok _) =>
            match t.makeDirectory cwd p with
            | .ok made => (made, .ok ())
            | .error e => settle t e
      | .error e => settle t e

/-- A name that nothing in the tree has, for it is longer than all names together. -/
def freshName (t : FileTree) : List Char :=
  ".tmp".toList ++ List.replicate (t.entries.flatMap fun e => e.1.flatten).length 'x'

def makeTemporary (t : FileTree) (cwd : Location) (directory : Path) :
    Except IoFault (FileTree × Location) := do
  let location ← (← t.follow cwd directory).directory?
  let temporary := location ++ [t.freshName]
  return (t.put temporary (.file (.text "")), temporary)

def writeText (t : FileTree) (at_ : Location) (text : String) :
    Option BrokenWrite → FileTree × Except IoFault PUnit
  | none => (t.put at_ (.file (.text text)), .ok ())
  | some broken => (t.put at_ (.file (.text broken.written)), .error broken.cause)

/-- Where a file goes that is moved to a path: to the place of a file, or to where nothing is. -/
def filePlace (t : FileTree) (cwd : Location) (p : Path) : Except IoFault Location :=
  match t.follow cwd p with
  | .ok .above | .ok (.at_ _ .directory) => .error .isADirectory
  | .ok (.at_ location (.file _)) => .ok location
  | .error .notFound =>
    if p.endsInDot then .error .notFound
    else if p.chars.getLast? = some '/' then .error .notADirectory
    else t.target? cwd p
  | .error e => .error e

/-- Move a file to a path. One that is moved to where it is stays there. -/
def rename (t : FileTree) (cwd : Location) (source : Location) (p : Path) :
    Except IoFault FileTree := do
  let place ← t.filePlace cwd p
  match t.lookup? source with
  | none => .error .notFound
  | some entry => return if place = source then t else (t.put place entry).remove source

def ancestors (at_ : Location) : List Location :=
  (List.range (at_.length - 1)).map fun n => at_.take (n + 1)

def plant (t : FileTree) (at_ : Location) (entry : Entry) : FileTree :=
  ((ancestors at_).foldl (fun t a => if (t.lookup? a).isSome then t else t.put a .directory) t).put
    at_ entry

def locationOf (p : Path) : Location :=
  p.normalize.components.filterMap fun
    | .name cs => some cs
    | _ => none

def texts (t : FileTree) : List (Location × String) :=
  t.entries.filterMap fun
    | (at_, .file (.text value)) => some (at_, value)
    | _ => none

def fileCount (t : FileTree) : Nat :=
  (t.entries.filter fun
    | (_, .file _) => true
    | _ => false).length

end FileTree

/-- A tree together with the directory that relative paths start from. -/
structure Disk where
  tree : FileTree
  cwd : Location
  deriving Inhabited

namespace Disk

def isFile (d : Disk) (p : Path) : Bool := d.tree.isFile d.cwd p

def isDirectory (d : Disk) (p : Path) : Bool := d.tree.isDirectory d.cwd p

def readText (d : Disk) (p : Path) : Except IoFault String := d.tree.readText d.cwd p

end Disk

end Bundler
