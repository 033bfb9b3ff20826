import Bundler.Config.Layer
import Bundler.FileTree
import Bundler.Toml

/-! Configuration files. A file is a layer: any of nine keys with a value of its own kind, and no
other key. -/

namespace Bundler.Config.Layer

def string? : Toml → Option String
  | .string value => some value
  | _ => none

def boolean? : Toml → Option Bool
  | .boolean value => some value
  | _ => none

def strings? : Toml → Option (List String)
  | .array elements _ => elements.mapM string?
  | _ => none

/-- A name out of a list: as a text, or as the only key of a table, with nothing for a value. -/
def choice? : Toml → Option String
  | .string name => some name
  | .table _ [(name, .table _ [])] => some name
  | .table _ [(name, .array [] _)] => some name
  | _ => none

def set? (l : Layer) (key : String) (value : Toml) : Option Layer :=
  match key with
  | "root" => (string? value).map fun s => { l with root := some (.ofString s) }
  | "env" => (string? value).map fun s => { l with env := some s }
  | "minify" => (boolean? value).map fun b => { l with minify := some b }
  | "extension" => (string? value).map fun s => { l with extension := some s }
  | "package-dir" => (string? value).map fun s => { l with packageDir := some s }
  | "externals" => (strings? value).map fun names => { l with externals := names }
  | "platform" =>
    ((choice? value).bind Platform.ofName?).map fun p => { l with platform := some p }
  | "instantiation" =>
    ((choice? value).bind Instantiation.ofName?).map fun i => { l with instantiation := some i }
  | "process-shim" => (boolean? value).map fun b => { l with processShim := some b }
  | _ => none

def ofText? (text : String) : Option Layer := do
  let members ← Toml.parse text
  members.foldlM (fun l (key, value) => l.set? key value) {}

def withoutDots (extension : String) : String :=
  String.ofList (extension.toList.dropWhile (· == '.'))

/-- A layer as it counts for the file that holds it: the root starts from the directory of the file,
and the extension is given with or without dots before it. -/
def placedIn (file : Path) (l : Layer) : Layer :=
  { l with
    root := l.root.map fun root => (file.parent?.getD ⟨[]⟩).join root
    extension := l.extension.map withoutDots }

end Bundler.Config.Layer
