import Bundler.Bundle
import Bundler.CommandLine
import Bundler.Config.Load

/-! The paths that a run looks at, as far as they can be told from a tree. Files that are read at
these paths may lead to more of them, until nothing new is named. -/

namespace Bundler.Survey

def below (r : Resolver) (d : Disk) (target : Path) : List Path :=
  let mains := match Resolver.manifestOf d target with
    | .ok (some main) =>
      let file := (target.join (.ofString main)).normalize
      [file, r.extended file, file.join r.indexName]
    | _ => []
  [target, r.extended target, target.join (.ofString "package.json"), target.join r.indexName] ++
    mains

def candidates (r : Resolver) (d : Disk) (specifier : String) (base : Path) : List Path :=
  below r d <|
    if Specifier.isRelative specifier then (base.join (.ofString specifier)).normalize
    else r.packagePath specifier

def questions (env : String) (d : Disk) (p : Path) : List (String × Path) :=
  match (d.readText p).map (Script.parse true) with
  | .ok (.ok program) =>
    (program.live env).requires.map fun s => (s, p.directory)
  | _ => []

/-- The files that are required, and were not seen before. -/
def fresh (r : Resolver) (d : Disk) (seen : List Path) (asked : List (String × Path)) : List Path :=
  let found := asked.filterMap fun (specifier, base) =>
    match r.resolve d specifier base with
    | .ok (.file p _ _) => some p
    | _ => none
  found.eraseDups.filter fun p => !seen.contains p

def levels (plan : Plan) (d : Disk) : Nat → List Path → List Path → List Path
  | 0, _, _ => []
  | count + 1, files, seen =>
    let asked := files.flatMap (questions plan.env d)
    let next := fresh plan.resolver d seen asked
    files ++ asked.flatMap (fun (specifier, base) => candidates plan.resolver d specifier base) ++
      levels plan d count next (seen ++ next)

def configFiles (vars : Variables) (line : CommandLine) : List Path :=
  (Config.userFile? vars).toList ++ [line.configFile.getD Config.fileName]

def wanted (d : Disk) (vars : Variables) (line : CommandLine) : List Path :=
  let modules : Except BundleFault (List Path) :=
    match Config.load d vars line.configFile with
    | .error _ => .ok []
    | .ok c => do
      let c := line.settings c
      let entry ← Bundle.absolute d.cwd line.entry
      let root ← Bundle.rootOf d.cwd c entry
      return levels (.ofConfig root c) d (d.tree.fileCount + 1) [entry] [entry]
  configFiles vars line ++ (modules.toOption.getD [])

end Bundler.Survey
