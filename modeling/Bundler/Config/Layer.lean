import Bundler.Config

/-! Layers of settings. A layer replaces what lies below it where it says something, and adds to the
externals. -/

namespace Bundler.Config

structure Layer where
  root : Option Path := none
  env : Option String := none
  minify : Option Bool := none
  extension : Option String := none
  packageDir : Option String := none
  /-- further externals, after those below -/
  externals : List String := []
  platform : Option Platform := none
  instantiation : Option Instantiation := none
  processShim : Option Bool := none
  deriving DecidableEq, Repr, Inhabited

namespace Layer

def onto (l : Layer) (c : Config) : Config :=
  { c.addExternals l.externals with
    root := l.root <|> c.root
    env := l.env.getD c.env
    minify := l.minify.getD c.minify
    extension := l.extension.getD c.extension
    packageDir := l.packageDir.getD c.packageDir
    platform := l.platform.getD c.platform
    instantiation := l.instantiation.getD c.instantiation
    processShim := l.processShim.getD c.processShim }

end Layer

end Bundler.Config
