import Bundler.Fault

/-! Texts that have been read. A text is read once for each path and kept from then on, whatever
becomes of the file. -/

namespace Bundler

structure Cache where
  texts : List (Path × String)
  deriving Inhabited

namespace Cache

def empty : Cache := ⟨[]⟩

def get? (c : Cache) (p : Path) : Option String :=
  (c.texts.find? fun entry => entry.1.same p).map (·.2)

def contains (c : Cache) (p : Path) : Bool := (c.get? p).isSome

def size (c : Cache) : Nat := c.texts.length

/-- The kept text, or the text of the file, which is kept. A failed read keeps nothing. -/
def read (c : Cache) (d : Disk) (p : Path) :
    Except BundleFault (String × Cache) :=
  match c.get? p with
  | some text => .ok (text, c)
  | none =>
    match d.readText p with
    | .ok text => .ok (text, ⟨c.texts ++ [(p, text)]⟩)
    | .error cause => .error (.io p cause)

end Cache

end Bundler
