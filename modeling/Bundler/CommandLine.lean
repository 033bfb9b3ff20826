import Bundler.Config.Layer

/-! The command line. Arguments are judged from left to right: an option waits for its value until
another option or the end of the line settles it, and only then is the value looked at. -/

namespace Bundler

inductive CommandOption where
  | entry | output | root | env | minify | platform | instantiation | processShim | config
  | verbose | help | version
  deriving DecidableEq, Repr

namespace CommandOption

def all : List CommandOption :=
  [entry, output, root, env, minify, platform, instantiation, processShim, config, verbose, help,
    version]

def name : CommandOption → String
  | entry => "entry"
  | output => "output"
  | root => "root"
  | env => "env"
  | minify => "minify"
  | platform => "platform"
  | instantiation => "instantiation"
  | processShim => "process-shim"
  | config => "config"
  | verbose => "verbose"
  | help => "help"
  | version => "version"

def letter? : CommandOption → Option Char
  | entry => some 'e'
  | output => some 'o'
  | config => some 'c'
  | verbose => some 'v'
  | help => some 'h'
  | version => some 'V'
  | _ => none

def takesValue : CommandOption → Bool
  | entry | output | root | env | platform | instantiation | config => true
  | _ => false

def ofName? (name : List Char) : Option CommandOption :=
  all.find? fun o => o.name == String.ofList name

def ofLetter? (c : Char) : Option CommandOption := all.find? fun o => o.letter? == some c

end CommandOption

inductive UsageFault where
  | missingArgument
  | unknownArgument
  | invalidValue
  | conflict
  | tooManyValues
  deriving DecidableEq, Repr

inductive Refusal where
  | help
  | version
  | usage (fault : UsageFault)
  deriving DecidableEq, Repr

structure CommandLine where
  entry : Path
  output : Path
  configFile : Option Path
  /-- how often more messages were asked for -/
  verbosity : Nat
  /-- the settings that were given -/
  layer : Config.Layer
  deriving DecidableEq, Repr

namespace CommandLine

structure Draft where
  /-- the options that may not come again -/
  given : List CommandOption := []
  entry : Option Path := none
  output : Option Path := none
  configFile : Option Path := none
  verbosity : Nat := 0
  layer : Config.Layer := {}
  /-- an option whose value is still to come, or has come but was not looked at -/
  waiting : Option (CommandOption × Option String) := none
  deriving Inhabited

abbrev Reading := Except Refusal

def refuse {α : Type} (fault : UsageFault) : Reading α := .error (.usage fault)

def verbosityLimit : Nat := 255

def pathValue (value : String) : Reading Path :=
  if value = "" then refuse .invalidValue else .ok (.ofString value)

def choiceValue {α : Type} (found : Option α) : Reading α :=
  match found with
  | some a => .ok a
  | none => refuse .invalidValue

namespace Draft

def note (d : Draft) (o : CommandOption) : Reading Draft :=
  if d.given.contains o then refuse .conflict else .ok { d with given := o :: d.given }

def take (d : Draft) (o : CommandOption) (value : String) : Reading Draft := do
  let d ← d.note o
  match o with
  | .entry => return { d with entry := some (← pathValue value) }
  | .output => return { d with output := some (← pathValue value) }
  | .config => return { d with configFile := some (← pathValue value) }
  | .root => return { d with layer := { d.layer with root := some (← pathValue value) } }
  | .env => return { d with layer := { d.layer with env := some value } }
  | .platform =>
    let platform ← choiceValue (Platform.ofName? value)
    return { d with layer := { d.layer with platform := some platform } }
  | .instantiation =>
    let mode ← choiceValue (Instantiation.ofName? value)
    return { d with layer := { d.layer with instantiation := some mode } }
  | _ => return d

def settle (d : Draft) : Reading Draft :=
  match d.waiting with
  | none => .ok d
  | some (_, none) => refuse .invalidValue
  | some (o, some value) => { d with waiting := none }.take o value

def raise (d : Draft) (o : CommandOption) : Reading Draft := do
  let d ← d.settle
  match o with
  | .help => .error .help
  | .version => .error .version
  | .verbose => return { d with verbosity := min verbosityLimit (d.verbosity + 1) }
  | .minify =>
    let d ← d.note o
    return { d with layer := { d.layer with minify := some true } }
  | .processShim =>
    let d ← d.note o
    return { d with layer := { d.layer with processShim := some true } }
  | _ => return d

def begin_ (d : Draft) (o : CommandOption) (attached : Option String) : Reading Draft := do
  let d ← d.settle
  match attached with
  | some value => d.take o value
  | none => return { d with waiting := some (o, none) }

def readName (d : Draft) (text : List Char) : Reading Draft :=
  let name := text.takeWhile (· != '=')
  let attached := match text.drop name.length with
    | '=' :: value => some (String.ofList value)
    | _ => none
  match CommandOption.ofName? name with
  | none => refuse .unknownArgument
  | some o =>
    if o.takesValue then d.begin_ o attached
    else if attached.isSome then refuse .tooManyValues
    else d.raise o

/-- Options by their letters. What follows the letter of one with a value is the value. -/
def readLetters (d : Draft) : List Char → Reading Draft
  | [] => .ok d
  | c :: rest =>
    match CommandOption.ofLetter? c with
    | none => refuse .unknownArgument
    | some o =>
      if o.takesValue then
        match rest with
        | [] => d.begin_ o none
        | '=' :: value => d.begin_ o (some (String.ofList value))
        | value => d.begin_ o (some (String.ofList value))
      else do
        let d ← d.raise o
        d.readLetters rest

def readWord (d : Draft) (word : String) : Reading Draft :=
  match d.waiting with
  | some (o, none) => .ok { d with waiting := some (o, some word) }
  | _ => refuse .unknownArgument

def read (d : Draft) (argument : String) : Reading Draft :=
  match argument.toList with
  | '-' :: '-' :: text => d.readName text
  | '-' :: c :: rest => d.readLetters (c :: rest)
  | _ => d.readWord argument

/-- Two dashes end the options, and nothing else may follow. -/
def readAll (d : Draft) : List String → Reading Draft
  | [] => d.settle
  | "--" :: rest => if rest.isEmpty then d.settle else refuse .unknownArgument
  | argument :: rest => do
    let d ← d.read argument
    d.readAll rest

def finish (d : Draft) : Reading CommandLine :=
  match d.entry, d.output with
  | some entry, some output => .ok ⟨entry, output, d.configFile, d.verbosity, d.layer⟩
  | _, _ => refuse .missingArgument

end Draft

def parse (arguments : List String) : Reading CommandLine := do
  let d ← ({} : Draft).readAll arguments
  d.finish

def settings (l : CommandLine) (c : Config) : Config := l.layer.onto c

end CommandLine

end Bundler
