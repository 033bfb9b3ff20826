import Bundler.FileTree
import Bundler.Setting

/-! Everything that can end a build, and what is said of it. -/

namespace Bundler

inductive BundleFault where
  /-- no file and no host module answers to a specifier -/
  | unresolved (specifier : String) (base : Path)
  /-- a text that is no script -/
  | malformed (path : Path)
  /-- a package manifest that is there but cannot be understood -/
  | badManifest (path : Path)
  /-- a host module that the platform does not provide -/
  | unavailable (specifier : String) (platform : Platform)
  | io (path : Path) (cause : IoFault)
  /-- a call bound to a module without a definition -/
  | unbound (binding : String)
  /-- more modules inside one another than there are texts -/
  | tooDeep
  deriving DecidableEq, Repr

namespace BundleFault

def message : BundleFault → String
  | unresolved specifier base => "cannot resolve '" ++ specifier ++ "' from " ++ base.toString
  | malformed path => "failed to parse " ++ path.toString
  | badManifest path => "invalid package manifest " ++ path.toString
  | unavailable specifier platform =>
    "built-in module '" ++ specifier ++ "' is not available on the " ++ platform.name ++ " platform"
  | io path cause => "I/O error on " ++ path.toString ++ ": " ++ cause.name
  | unbound binding =>
    "rewritten call site references unknown module binding '" ++ binding ++ "'"
  | tooDeep => "modules are nested too deeply"

end BundleFault

end Bundler
