import Bundler.Digest
import Bundler.Path
import Bundler.Script.Node

/-! The modules of a bundle by content, in the order in which they were completed. -/

namespace Bundler

structure Module where
  id : ContentId
  /-- where this content was first found -/
  path : Path
  program : Script.Node
  /-- how many modules were there before -/
  order : Nat

structure Graph where
  modules : List Module

namespace Graph

def empty : Graph := ⟨[]⟩

instance : Inhabited Graph := ⟨empty⟩

def get? (g : Graph) (id : ContentId) : Option Module := g.modules.find? fun m => m.id == id

def contains (g : Graph) (id : ContentId) : Bool := g.modules.any fun m => m.id == id

def ids (g : Graph) : List ContentId := g.modules.map (·.id)

def size (g : Graph) : Nat := g.modules.length

/-- The first module of a content stays; also whether the module was added. -/
def insert (g : Graph) (id : ContentId) (path : Path) (program : Script.Node) : Bool × Graph :=
  if g.contains id then (false, g) else (true, ⟨g.modules ++ [⟨id, path, program, g.size⟩]⟩)

end Graph

end Bundler
