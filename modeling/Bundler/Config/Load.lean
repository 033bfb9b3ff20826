import Bundler.Config.File

/-! The configuration of a run: defaults, the file of the user, the file of the project or one that
is asked for instead, and variables, each over those before it. -/

namespace Bundler

inductive ConfigFault where
  | unreadable (file : Path)
  | malformed (file : Path)
  | badMinify (value : String)
  | badPlatform (value : String)
  deriving DecidableEq, Repr

namespace ConfigFault

def message : ConfigFault → String
  | unreadable file => "Failed to read config file " ++ file.toString
  | malformed file => "Failed to parse config file " ++ file.toString
  | badMinify value => "Invalid CJSPACK_MINIFY value '" ++ value ++ "'"
  | badPlatform value => "Invalid CJSPACK_PLATFORM value '" ++ value ++ "'"

end ConfigFault

/-- A computation that sets parts of a configuration. What was set before a failure stays set. -/
abbrev Configure := ExceptT ConfigFault (StateM Config)

/-- The values of the variables that are set. -/
abbrev Variables := String → Option String

namespace Configure

def mergeFile (d : Disk) (file : Path) : Configure PUnit :=
  match d.readText file with
  | .error _ => throw (.unreadable file)
  | .ok text =>
    match Config.Layer.ofText? text with
    | none => throw (.malformed file)
    | some layer => modify (layer.placedIn file).onto

def switch? (word : String) : Option Bool :=
  let word := word.map Char.toLower
  if ["1", "true", "yes", "on"].contains word then some true
  else if ["0", "false", "no", "off", ""].contains word then some false
  else none

def applyEnv (vars : Variables) : Configure PUnit :=
  match vars "CJSPACK_ENV" <|> vars "NODE_ENV" with
  | none => return
  | some env => modify fun c => { c with env := env }

def applyMinify (vars : Variables) : Configure PUnit :=
  match vars "CJSPACK_MINIFY" with
  | none => return
  | some word =>
    match switch? word with
    | none => throw (.badMinify word)
    | some minify => modify fun c => { c with minify := minify }

def applyPlatform (vars : Variables) : Configure PUnit :=
  match vars "CJSPACK_PLATFORM" with
  | none => return
  | some word =>
    let name := word.map Char.toLower
    match Platform.ofName? name with
    | none => throw (.badPlatform name)
    | some platform => modify fun c => { c with platform := platform }

def applyVariables (vars : Variables) : Configure PUnit := do
  applyEnv vars
  applyMinify vars
  applyPlatform vars

end Configure

namespace Config

def fileName : Path := .ofString "cjspack.toml"

/-- The file of the user, below the directory for configurations or that of the user. -/
def userFile? (vars : Variables) : Option Path :=
  let below (directory : Path) : Path := (directory.join (.ofString "cjspack")).join fileName
  match (vars "XDG_CONFIG_HOME").map Path.ofString with
  | some directory =>
    if directory.isAbsolute then some (below directory) else home below
  | none => home below
where
  home (below : Path → Path) : Option Path :=
    (vars "HOME").map fun home => below ((Path.ofString home).join (.ofString ".config/"))

def mergeIfPresent (d : Disk) (file : Path) : Configure PUnit :=
  if d.isFile file then Configure.mergeFile d file else return

def layers (d : Disk) (vars : Variables) (explicit : Option Path) : Configure PUnit := do
  match userFile? vars with
  | some file => mergeIfPresent d file
  | none => pure ()
  match explicit with
  | some file => Configure.mergeFile d file
  | none => mergeIfPresent d fileName
  Configure.applyVariables vars

def load (d : Disk) (vars : Variables) (explicit : Option Path) : Except ConfigFault Config :=
  match (layers d vars explicit).run.run default_ with
  | (.ok _, c) => .ok c
  | (.error e, _) => .error e

end Config

end Bundler
