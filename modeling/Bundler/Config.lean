import Bundler.Path
import Bundler.Setting

/-! What a bundle is built by. -/

namespace Bundler

structure Config where
  /-- the directory that holds the package directory; that of the entry if not set -/
  root : Option Path
  /-- the value of `process.env.NODE_ENV` that guards are decided by -/
  env : String
  minify : Bool
  /-- what is put after specifiers that name no file -/
  extension : String
  /-- where installed packages lie below the root -/
  packageDir : String
  /-- specifiers left to the host like its own modules, each once -/
  externals : List String
  platform : Platform
  instantiation : Instantiation
  /-- the bundle defines `process.env.NODE_ENV` -/
  processShim : Bool
  deriving DecidableEq, Repr

namespace Config

def default_ : Config :=
  ⟨none, "development", false, "js", "node_modules", [], .node, .memoized, false⟩

instance : Inhabited Config := ⟨default_⟩

def addExternals (c : Config) (more : List String) : Config :=
  { c with
    externals := more.foldl (fun all s => if all.contains s then all else all ++ [s]) c.externals }

end Config

end Bundler
