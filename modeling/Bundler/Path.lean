/-! Paths as texts. The text is kept as written; two paths name the same place for look-ups when
their components agree, which leaves out repeated separators and inner dots. -/

namespace Bundler

def splitChars (mark : Char) : List Char → List (List Char)
  | [] => [[]]
  | c :: rest =>
    if c = mark then [] :: splitChars mark rest
    else
      match splitChars mark rest with
      | [] => [[c]]
      | segment :: segments => (c :: segment) :: segments

structure Path where
  chars : List Char
  deriving DecidableEq, Repr, Inhabited

namespace Path

inductive Component where
  | root
  | current
  | parent
  | name (chars : List Char)
  deriving DecidableEq, Repr, Inhabited

def ofString (s : String) : Path := ⟨s.toList⟩

def toString (p : Path) : String := String.ofList p.chars

instance : ToString Path := ⟨toString⟩

def isEmpty (p : Path) : Bool := p.chars.isEmpty

def isAbsolute (p : Path) : Bool := p.chars.head? == some '/'

def joinChars : List (List Char) → List Char
  | [] => []
  | [segment] => segment
  | segment :: segments => segment ++ '/' :: joinChars segments

def segments (p : Path) : List (List Char) := splitChars '/' p.chars

def isIdle (segment : List Char) : Bool := segment == [] || segment == ['.']

def endsInDot (p : Path) : Bool :=
  (p.segments.reverse.dropWhile List.isEmpty).head? == some ['.']

def Component.ofSegment (segment : List Char) : Component :=
  if segment = ['.', '.'] then .parent else .name segment

def Component.chars : Component → List Char
  | root => []
  | current => ['.']
  | parent => ['.', '.']
  | name cs => cs

def start (p : Path) : List Component :=
  match p.segments with
  | [] :: _ :: _ => [.root]
  | ['.'] :: _ => [.current]
  | _ => []

def trail (p : Path) : List (List Char) :=
  match p.segments with
  | [] :: rest@(_ :: _) => rest
  | ['.'] :: rest => rest
  | all => all

def components (p : Path) : List Component :=
  p.start ++ (p.trail.filter fun s => !isIdle s).map Component.ofSegment

/-- The same place for look-ups. -/
def same (p q : Path) : Bool := p.components == q.components

def ofComponents : List Component → Path
  | .root :: rest => ⟨'/' :: joinChars (rest.map Component.chars)⟩
  | all => ⟨joinChars (all.map Component.chars)⟩

/-- An absolute path replaces the one it is joined to. -/
def join (base rest : Path) : Path :=
  if rest.isAbsolute then rest
  else if base.chars = [] ∨ base.chars.getLast? = some '/' then ⟨base.chars ++ rest.chars⟩
  else ⟨base.chars ++ '/' :: rest.chars⟩

def trimEnd (segments : List (List Char)) : List (List Char) :=
  (segments.reverse.dropWhile isIdle).reverse

def withTrail (p : Path) (trail : List (List Char)) : Path :=
  match p.start with
  | .root :: _ => ⟨'/' :: joinChars trail⟩
  | .current :: _ => if trail = [] then ⟨['.']⟩ else ⟨'.' :: '/' :: joinChars trail⟩
  | _ => ⟨joinChars trail⟩

/-- The path without its last component; neither a root nor the empty path has one. -/
def parent? (p : Path) : Option Path :=
  let trail := trimEnd p.trail
  if trail = [] then (if p.start = [.current] then some ⟨[]⟩ else none)
  else some (p.withTrail (trimEnd trail.dropLast))

def directory (p : Path) : Path := p.parent?.getD ⟨['/']⟩

def fileName? (p : Path) : Option (List Char) :=
  match p.components.getLast? with
  | some (.name cs) => some cs
  | _ => none

/-- The text after the last dot of the file name, unless that dot is its first character. -/
def extension? (p : Path) : Option (List Char) := do
  let name ← p.fileName?
  let after := name.reverse.takeWhile (· != '.')
  if after.length + 1 < name.length then some after.reverse else none

def append (p : Path) (suffix : List Char) : Path := ⟨p.chars ++ suffix⟩

def step (stack : List Component) : Component → List Component
  | .current => stack
  | .parent =>
    match stack with
    | [] | [.root] => .parent :: stack
    | _ :: below => below
  | c => c :: stack

/-- The path with dots left out and each `..` taken together with the component before it. At the
start and at the root a `..` has nothing to take away and stays, as a component that the next one
takes away. -/
def normalize (p : Path) : Path := ofComponents (p.components.foldl step []).reverse

end Path

end Bundler
