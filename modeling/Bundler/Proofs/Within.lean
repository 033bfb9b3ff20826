import Bundler.Proofs.Normal
import Bundler.Proofs.Resolution

/-! Where the files of packages lie. A bare specifier is put after the package directory, and what a
manifest names as main after the directory of the package. Nothing looks at where these two lead: as
long as neither of them leads out again, the file that is found lies below the package directory. -/

namespace Bundler

namespace Path

/-- The path of a directory, and names after it. -/
def Within (p directory : Path) : Prop :=
  ∃ names : List (List Char), p.components = directory.components ++ names.map .name

/-- A path that leads out of the directory it is joined to: an absolute one, or one that climbs. -/
def Leaves (p : Path) : Prop := p.isAbsolute = true ∨ 0 < p.way.up

instance (p : Path) : Decidable p.Leaves := inferInstanceAs (Decidable (_ ∨ _))

/-- A path that does not leave, and comes back to the directory it is joined to. -/
def Returns (p : Path) : Prop := p.isAbsolute = false ∧ p.way = ⟨0, []⟩

theorem Within.isPrefix {p directory : Path} (h : p.Within directory) :
    directory.components <+: p.components := by
  obtain ⟨names, whole⟩ := h
  exact ⟨_, whole.symm⟩

theorem Within.join {p directory rest : Path} (h : p.Within directory) {name : List Char}
    (start : rest.start = []) (named : rest.components = [.name name]) :
    (p.join rest).Within directory := by
  obtain ⟨names, whole⟩ := h
  refine ⟨names ++ [name], ?_⟩
  rw [components_join p start, named, whole, List.append_assoc, List.map_append, List.map_singleton]

theorem way_of_not_leaves {p : Path} (stays : ¬ p.Leaves) :
    p.isAbsolute = false ∧ p.way = ⟨0, p.way.down⟩ := by
  obtain ⟨relative, level⟩ := not_or.mp stays
  have none : p.way.up = 0 := Nat.eq_zero_of_not_pos level
  refine ⟨Bool.eq_false_iff.mpr relative, ?_⟩
  rw [← none]

theorem returns_of_not_leaves {p : Path} (stays : ¬ p.Leaves) (down : p.way.down = []) :
    p.Returns := by
  obtain ⟨relative, way⟩ := way_of_not_leaves stays
  exact ⟨relative, down ▸ way⟩

theorem isAbsolute_of_join {base rest : Path} (h : (base.join rest).isAbsolute = false) :
    rest.isAbsolute = false := by
  refine Bool.eq_false_iff.mpr fun absolute => ?_
  rw [Path.join, if_pos absolute, absolute] at h
  cases h

/-- A path leads on from a directory, down along names, the last of them first. -/
structure Beneath (p directory : Path) (names : List (List Char)) : Prop where
  root : p.isAbsolute = directory.isAbsolute
  level : p.way.up % 2 = directory.way.up % 2
  down : p.way.down = names ++ directory.way.down

namespace Beneath

variable {p rest directory : Path} {names further : List (List Char)}

theorem refl (p : Path) : p.Beneath p [] := ⟨rfl, rfl, rfl⟩

theorem join (h : p.Beneath directory names) (relative : rest.isAbsolute = false)
    (leads : (rest.names.map Component.ofSegment).foldl Way.next ⟨0, names⟩ = ⟨0, further⟩) :
    (p.join rest).Beneath directory further := by
  have way : (p.join rest).way = ⟨p.way.up, further ++ directory.way.down⟩ := by
    rw [way_join p relative, ← Way.foldl_beyond leads, ← h.down]
  refine ⟨(p.isAbsolute_join relative).trans h.root, ?_, ?_⟩
  · rw [way, h.level]
  · rw [way]

theorem normalize (h : p.Beneath directory names) : p.normalize.Beneath directory names where
  root := p.isAbsolute_normalize.trans h.root
  level := by rw [way_normalize, Nat.mod_mod, h.level]
  down := by rw [way_normalize, h.down]

theorem anchor (h : p.Beneath directory names) : p.anchor = directory.anchor := by
  rw [Path.anchor, Path.anchor, h.root]

theorem descent (h : p.Beneath directory names) :
    p.descent = directory.descent ++ names.reverse := by
  rw [Path.descent, h.down, List.reverse_append, ← Path.descent]

theorem within (h : p.Beneath directory names) : p.normalize.Within directory.normalize := by
  refine ⟨names.reverse, ?_⟩
  rw [components_normalize, components_normalize, h.anchor, h.level, h.descent, List.map_append,
    ← List.append_assoc]

theorem same (h : p.Beneath directory []) : p.normalize = directory.normalize :=
  normalize_congr h.root h.level h.down

theorem within_append {last suffix : List Char} (h : p.Beneath directory (last :: names))
    (slashless : '/' ∉ suffix) : (p.normalize.append suffix).Within directory.normalize := by
  refine ⟨names.reverse ++ [last ++ suffix], ?_⟩
  have ends : p.way.down = last :: (names ++ directory.way.down) := h.down
  have below : (names ++ directory.way.down).reverse ++ [last ++ suffix] =
      directory.descent ++ (names.reverse ++ [last ++ suffix]) := by
    rw [List.reverse_append, List.append_assoc, ← Path.descent]
  rw [components_append_normalize ends slashless, components_normalize, h.anchor, h.level,
    below, List.map_append, ← List.append_assoc]

end Beneath

theorem beneath_join (directory : Path) {p : Path} (stays : ¬ p.Leaves) :
    (directory.join p).Beneath directory p.way.down := by
  obtain ⟨relative, way⟩ := way_of_not_leaves stays
  rw [way_eq] at way
  exact (Beneath.refl directory).join relative (way_eq p ▸ way)

/-- What stays below a path that stays below a directory stays below that directory. -/
theorem beneath_join_join (directory : Path) {p rest : Path} (stays : ¬ p.Leaves)
    (stays' : ¬ (p.join rest).Leaves) :
    ((directory.join p).normalize.join rest).Beneath directory (p.join rest).way.down := by
  have relative := isAbsolute_of_join (way_of_not_leaves stays').1
  have leads := (way_of_not_leaves stays').2
  rw [way_join p relative, (way_of_not_leaves stays).2] at leads
  refine (beneath_join directory stays).normalize.join relative ?_
  rw [leads, way_join p relative, (way_of_not_leaves stays).2, leads]

end Path

namespace Installed

def disk : Disk where
  tree := (FileTree.empty.plant ["p".toList, "node_modules".toList, "pkg".toList,
      "package.json".toList] (.file (.text "\x7b\"main\": \"lib/entry\"\x7d"))
    |>.plant ["p".toList, "node_modules".toList, "pkg".toList, "lib".toList, "entry.js".toList]
      (.file (.text "exports.a = 1;")))
    |>.plant ["p".toList, "secret.js".toList] (.file (.text "1"))
  cwd := []

def resolver : Resolver := .ofConfig (.ofString "/p") .default_

def directory : Path := .ofString "/p/node_modules/pkg/lib"

def main : Path := .ofString "/p/node_modules/pkg/lib/entry.js"

def secret : Path := .ofString "/p/secret.js"

end Installed

namespace Resolver

variable {r : Resolver} {d : Disk} {specifier : String} {base path next : Path}

def packageDirectory (r : Resolver) : Path := (r.root.join (.ofString r.packageDir)).normalize

section

variable (noSlash : '/' ∉ r.extension.toList)
include noSlash

theorem indexName_start : r.indexName.start = [] ∧
    r.indexName.components = [.name ("index.".toList ++ r.extension.toList)] := by
  have isName : Path.IsName "index.".toList := by decide
  have whole : r.indexName = ⟨"index.".toList ++ r.extension.toList⟩ := by
    rw [indexName, Path.ofString, String.toList_append]
  rw [whole]
  exact Path.components_name (isName.append noSlash)

theorem within_extended {p directory : Path} {names : List (List Char)}
    (h : p.Beneath directory names) : (r.extended p.normalize).Within directory.normalize ∨
      r.extended p.normalize = r.extended directory.normalize ∧ names = [] := by
  cases names with
  | nil => exact .inr ⟨congrArg r.extended h.same, rfl⟩
  | cons last names =>
    refine .inl (h.within_append ?_)
    simpa using noSlash

theorem entry_within (stays : ¬ (Path.ofString specifier).Leaves)
    (mains : ∀ main, d.NamesMain (r.packagePath specifier) main →
      ¬ ((Path.ofString specifier).join (.ofString main)).Leaves)
    (entry : r.Entry d (r.packagePath specifier) path) :
    path.Within r.packageDirectory ∨ path = r.extended r.packageDirectory ∧
      ∃ main, d.NamesMain (r.packagePath specifier) main ∧
        ((Path.ofString specifier).join (.ofString main)).Returns := by
  obtain ⟨start, named⟩ := indexName_start noSlash
  have below {main : String} (h : d.NamesMain (r.packagePath specifier) main) :=
    Path.beneath_join_join (r.root.join (.ofString r.packageDir)) stays (mains main h)
  cases entry with
  | main named _ => exact .inl (below named).within
  | @extended main named _ _ =>
    refine (within_extended noSlash (below named)).imp_right fun ⟨beside, down⟩ => ?_
    exact ⟨beside, main, named, Path.returns_of_not_leaves (mains main named) down⟩
  | nested main _ _ _ => exact .inl ((below main).within.join start named)
  | index _ _ _ => exact .inl ((Path.beneath_join _ stays).within.join start named)

/-- The file of a package lies below the package directory if neither the specifier nor the main
file that the manifest of the package names leads out again. Only where one of them leads back to the
package directory itself may a file beside it be found: its own name with the default extension. -/
theorem package_file_within (found : r.resolve d specifier base = .ok (.file path next .package))
    (stays : ¬ (Path.ofString specifier).Leaves)
    (mains : ∀ main, d.NamesMain (r.packagePath specifier) main →
      ¬ ((Path.ofString specifier).join (.ofString main)).Leaves) :
    path.Within r.packageDirectory ∨ path = r.extended r.packageDirectory ∧
      ((Path.ofString specifier).Returns ∨
        ∃ main, d.NamesMain (r.packagePath specifier) main ∧
          ((Path.ofString specifier).join (.ofString main)).Returns) := by
  obtain ⟨finds, -, kind⟩ := resolve_file_iff.mp found
  have bare : Specifier.isRelative specifier = false := by
    refine Bool.eq_false_iff.mpr fun relative => ?_
    rw [kindOf_eq_project.mpr relative] at kind
    cases kind
  have place : r.place specifier base = r.packagePath specifier := place_of_bare bare
  have below := Path.beneath_join (r.root.join (.ofString r.packageDir)) stays
  cases finds with
  | direct relative => exact (Bool.eq_false_iff.mp bare relative).elim
  | entry enters entry =>
    obtain ⟨rfl, -⟩ := (enters_of_bare bare).mp enters
    exact (entry_within noSlash stays mains entry).imp_right (And.imp_right .inr)
  | exact =>
    rw [place]
    exact .inl below.within
  | extended =>
    rw [place]
    refine (within_extended noSlash below).imp_right fun ⟨beside, down⟩ => ?_
    exact ⟨beside, .inl (Path.returns_of_not_leaves stays down)⟩

end

theorem package_file_within_installed :
    '/' ∉ Installed.resolver.extension.toList ∧
    Installed.resolver.resolve Installed.disk "pkg" (.ofString "/p") =
      .ok (.file Installed.main Installed.directory .package) ∧
    ¬ (Path.ofString "pkg").Leaves ∧
    (∀ main, Installed.disk.NamesMain (Installed.resolver.packagePath "pkg") main →
      ¬ ((Path.ofString "pkg").join (.ofString main)).Leaves) ∧
    Installed.main.Within Installed.resolver.packageDirectory := by
  have noSlash : '/' ∉ Installed.resolver.extension.toList := by decide +kernel
  have found : Installed.resolver.resolve Installed.disk "pkg" (.ofString "/p") =
      .ok (.file Installed.main Installed.directory .package) := by decide +kernel
  have stays : ¬ (Path.ofString "pkg").Leaves := by decide +kernel
  have read : manifestOf Installed.disk (Installed.resolver.packagePath "pkg") =
      .ok (some "lib/entry") := by decide +kernel
  have mains : ∀ main, Installed.disk.NamesMain (Installed.resolver.packagePath "pkg") main →
      ¬ ((Path.ofString "pkg").join (.ofString main)).Leaves := by
    intro main named
    rw [← namesMain_unique (manifestOf_main_iff.mp read) named]
    decide +kernel
  refine ⟨noSlash, found, stays, mains, ?_⟩
  have apart : Installed.main ≠
      Installed.resolver.extended Installed.resolver.packageDirectory := by
    decide +kernel
  exact (package_file_within noSlash found stays mains).resolve_right fun beside => apart beside.1

/-- A bare specifier that climbs finds a file of the project, as one of a package. -/
theorem not_package_file_within : ¬ ∀ (r : Resolver) (d : Disk) (specifier : String)
    (base path next : Path), '/' ∉ r.extension.toList → Specifier.isRelative specifier = false →
    r.resolve d specifier base = .ok (.file path next .package) →
    path.Within r.packageDirectory := by
  intro within
  have found : Installed.resolver.resolve Installed.disk "a/../../secret" (.ofString "/p") =
      .ok (.file Installed.secret (.ofString "/p") .package) := by decide +kernel
  have inside := within _ _ _ _ _ _ (by decide +kernel) (by decide) found
  exact absurd inside.isPrefix (by decide +kernel)

end Resolver

end Bundler
