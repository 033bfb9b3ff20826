import Bundler.Command
import Bundler.Survey

/-! The program. It reads the files that a run looks at, makes the run, and writes what the run
changed. -/

namespace Bundler.Shell

def variableNames : List String :=
  ["CJSPACK_ENV", "NODE_ENV", "CJSPACK_MINIFY", "CJSPACK_PLATFORM", "HOME", "XDG_CONFIG_HOME",
    "RUST_LOG"]

def knownVariables : IO Variables := do
  let values ← variableNames.mapM fun name => return (name, ← IO.getEnv name)
  return fun name => (values.lookup name).join

def readInto (d : Disk) (p : Path) : IO Disk := do
  let at_ := FileTree.locationOf ((Bundle.directoryPath d.cwd).join p)
  match ← (IO.FS.readBinFile p.toString).toBaseIO with
  | .ok bytes => return { d with tree := d.tree.plant at_ (.file (.ofBytes bytes)) }
  | .error (.permissionDenied ..) => return { d with tree := d.tree.plant at_ (.file (.sealed [])) }
  | .error _ => return d

partial def gather (vars : Variables) (line : CommandLine) (asked : List Path) (d : Disk) :
    IO Disk := do
  let fresh := ((Survey.wanted d vars line).filter fun p => !asked.contains p).eraseDups
  if fresh.isEmpty then return d
  gather vars line (asked ++ fresh) (← fresh.foldlM readInto d)

def writeText (at_ : Location) (text : String) : IO PUnit := do
  let target := (Bundle.directoryPath at_).toString
  let beside := target ++ ".partial"
  IO.FS.createDirAll (Bundle.directoryPath at_.dropLast).toString
  try
    IO.FS.writeFile beside text
    IO.FS.rename beside target
  catch e =>
    (IO.FS.removeFile beside).toBaseIO >>= fun _ => throw e

def report (headline cause : String) : IO PUnit :=
  IO.eprintln ("Error: " ++ headline ++ "\n\nCaused by:\n    " ++ cause)

def usage : String :=
  "Bundle a CommonJS entry file and everything it requires into one script\n\n" ++
  "Usage: cjspack [OPTIONS] --entry <ENTRY> --output <OUTPUT>"

def finish (before : FileTree) (headline : String) (outcome : Outcome) : IO UInt32 := do
  outcome.log.forM IO.eprintln
  match outcome.result with
  | .error (.refused .help) => IO.println usage
  | .error (.refused .version) => IO.println "cjspack 0.1.0"
  | .error (.refused (.usage _)) => IO.eprintln usage
  | .error e => report (e.headline?.getD "") (e.cause?.getD "")
  | .ok _ =>
    for (at_, text) in outcome.tree.texts do
      if before.lookup? at_ != some (.file (.text text)) then
        match ← (writeText at_ text).toBaseIO with
        | .ok _ => pure ()
        | .error e =>
          report headline e.toString
          return 1
  return outcome.exitCode.toUInt32

def run (arguments : List String) : IO UInt32 := do
  let vars ← knownVariables
  let start : Disk := ⟨.empty, FileTree.locationOf (.ofString (← IO.currentDir).toString)⟩
  match CommandLine.parse arguments with
  | .error _ => finish start.tree "" (Command.run start vars arguments)
  | .ok line =>
    let d ← gather vars line [] start
    finish d.tree ("Failed to bundle " ++ line.entry.toString) (Command.run d vars arguments)

end Bundler.Shell

def main (arguments : List String) : IO UInt32 := Bundler.Shell.run arguments
