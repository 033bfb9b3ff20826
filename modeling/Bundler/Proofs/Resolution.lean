import Bundler.Proofs.Segments

/-! What a specifier resolves to. The rules of the look-up are stated as relations on the disk: which
directory a look-up comes to, which file stands for a directory, and which file is found. From them it
follows for every specifier which of the four answers is given: a file, the host, a manifest that
cannot be understood, or nothing. -/

namespace Bundler

namespace Specifier

/-- A module of the host, with or without the scheme, and with or without a path below it. -/
def IsBuiltIn (specifier : String) : Prop :=
  ∃ name ∈ hostModules, ∃ below : List Char, (below = [] ∨ below.head? = some '/') ∧
    (specifier.toList = name.toList ++ below ∨
      specifier.toList = 'n' :: 'o' :: 'd' :: 'e' :: ':' :: (name.toList ++ below))

def isPlain (name : List Char) : Bool :=
  !name.contains '/' && match name with
    | a :: b :: _ => !(a == 'n' && b == 'o')
    | _ => false

theorem hostModules_plain : ∀ name ∈ hostModules, '/' ∉ name.toList ∧
    ∃ a b rest, name.toList = a :: b :: rest ∧ (a = 'n' → b ≠ 'o') := by
  have checked : hostModules.all (isPlain ·.toList) = true := by decide +kernel
  intro name mem
  have plain := List.all_eq_true.mp checked name mem
  generalize name.toList = chars at plain
  rcases chars with _ | ⟨a, _ | ⟨b, rest⟩⟩
  · simp [isPlain] at plain
  · simp [isPlain] at plain
  · obtain ⟨noSlash, other⟩ := Bool.and_eq_true_iff.mp plain
    refine ⟨?_, a, b, rest, rfl, ?_⟩
    · simpa using noSlash
    · simpa [Decidable.imp_iff_not_or] using other

theorem withoutScheme_host {name : String} (mem : name ∈ hostModules) (below : List Char) :
    withoutScheme (name.toList ++ below) = name.toList ++ below := by
  obtain ⟨-, a, b, rest, here, other⟩ := hostModules_plain name mem
  rw [here]
  refine withoutScheme.eq_2 _ fun more same => ?_
  obtain ⟨isN, same⟩ := List.cons.inj same
  exact other isN (List.cons.inj same).1

theorem takeWhile_host {name : String} (mem : name ∈ hostModules) {below : List Char}
    (ends : below = [] ∨ below.head? = some '/') :
    (name.toList ++ below).takeWhile (· != '/') = name.toList := by
  have noSlash := (hostModules_plain name mem).1
  have inside : ∀ c ∈ name.toList, (c != '/') = true :=
    fun c mem => bne_iff_ne.mpr fun same => noSlash (same ▸ mem)
  rw [List.takeWhile_append_of_pos inside]
  rcases ends with rfl | slash
  · simp
  · obtain ⟨rest, rfl⟩ := List.head?_eq_some_iff.mp slash
    simp

theorem isHost_iff (specifier : String) : isHost specifier ↔ IsBuiltIn specifier := by
  unfold isHost
  dsimp only
  rw [List.contains_iff_mem]
  constructor
  · intro mem
    have parts := List.takeWhile_append_dropWhile (p := (· != '/'))
      (l := withoutScheme specifier.toList)
    refine ⟨_, mem, (withoutScheme specifier.toList).dropWhile (· != '/'), ?_, ?_⟩
    · cases left : (withoutScheme specifier.toList).dropWhile (· != '/') with
      | nil => exact .inl rfl
      | cons c rest =>
        have stops := List.head?_dropWhile_not (· != '/') (withoutScheme specifier.toList)
        rw [left] at stops
        right
        simpa using stops
    · rw [String.toList_ofList, parts]
      generalize specifier.toList = chars
      unfold withoutScheme
      split
      · exact .inr rfl
      · exact .inl rfl
  · rintro ⟨name, mem, below, ends, whole | whole⟩
    · rw [whole, withoutScheme_host mem, takeWhile_host mem ends, String.ofList_toList]
      exact mem
    · rw [whole, withoutScheme, takeWhile_host mem ends, String.ofList_toList]
      exact mem

end Specifier

theorem Path.names_of_parent?_none {p : Path} (h : p.parent? = none) : p.names = [] := by
  unfold parent? at h
  dsimp only at h
  split at h
  · rename_i trimmed
    rw [names, segments_filter, ← filter_trimEnd, trimmed, List.filter_nil]
  · cases h

theorem Disk.parent?_of_isFile {d : Disk} {p : Path} (h : d.isFile p) :
    p.parent? = some p.directory := by
  cases parent : p.parent? with
  | some directory => rw [Path.directory, parent, Option.getD_some]
  | none =>
    obtain ⟨spot, led⟩ := follow_of_isFile h
    have walked := FileTree.follow_ok led
    have noNames := Path.names_of_parent?_none parent
    rw [Path.names] at noNames
    rw [noNames] at walked
    cases walked
    unfold isFile FileTree.isFile at h
    rw [led] at h
    cases h

theorem Disk.not_isFile_of_isDirectory {d : Disk} {p : Path} (h : d.isDirectory p) :
    d.isFile p = false := by
  unfold isDirectory FileTree.isDirectory at h
  unfold isFile FileTree.isFile
  split at h
  · rename_i led
    rw [led]
  · rename_i led
    rw [led]
  · cases h

inductive NamedMain : Json → Option String → Prop where
  | null : NamedMain .null none
  | string (name : String) : NamedMain (.string (some name)) (some name)

/-- The values that are package manifests, and the main file that each of them names: an object whose
keys can all be read and at most one of which is `main`, or a list of one item which then is `main`. -/
inductive Manifest : Json → Option String → Prop where
  | silent {members : List (Option String × Json)} (readable : ∀ m ∈ members, m.1 ≠ none)
      (others : ∀ m ∈ members, m.1 ≠ some "main") : Manifest (.object members) none
  | member {before after : List (Option String × Json)} {value : Json} {main : Option String}
      (readable : ∀ m ∈ before ++ after, m.1 ≠ none)
      (others : ∀ m ∈ before ++ after, m.1 ≠ some "main") (named : NamedMain value main) :
      Manifest (.object (before ++ (some "main", value) :: after)) main
  | item {value : Json} {main : Option String} (named : NamedMain value main) :
      Manifest (.array [value]) main

/-- A text that is a package manifest and names a main file, if it names one. -/
def IsManifest (text : String) (main : Option String) : Prop :=
  ∃ value, Json.parse text = some value ∧ Manifest value main

theorem mainName?_iff {value : Json} {main : Option String} :
    mainName? value = some main ↔ NamedMain value main := by
  constructor
  · intro h
    unfold mainName? at h
    split at h
    · cases h
      exact .null
    · cases h
      exact .string _
    · cases h
  · rintro (_ | name) <;> rfl

theorem isNone_any_iff {members : List (Option String × Json)} :
    (members.any fun m => m.1.isNone) = false ↔ ∀ m ∈ members, m.1 ≠ none := by
  simp [List.any_eq_false]

theorem filter_main_nil_iff {members : List (Option String × Json)} :
    (members.filter fun m => m.1 == some "main") = [] ↔ ∀ m ∈ members, m.1 ≠ some "main" := by
  simp only [List.filter_eq_nil_iff, beq_iff_eq, ne_eq]

theorem filter_main_iff {members : List (Option String × Json)} {m : Option String × Json} :
    (members.filter fun m => m.1 == some "main") = [m] ↔ ∃ before after,
      members = before ++ m :: after ∧ m.1 = some "main" ∧
        ∀ other ∈ before ++ after, other.1 ≠ some "main" := by
  simp only [List.filter_eq_cons_iff, List.filter_eq_nil_iff, beq_iff_eq, List.mem_append, or_imp,
    forall_and]
  constructor
  · rintro ⟨before, after, rfl, front, named, back⟩
    exact ⟨before, after, rfl, named, front, back⟩
  · rintro ⟨before, after, rfl, named, front, back⟩
    exact ⟨before, after, rfl, front, named, back⟩

theorem manifestMain?_iff {text : String} {main : Option String} :
    manifestMain? text = some main ↔ IsManifest text main := by
  unfold manifestMain? IsManifest
  constructor
  · intro h
    split at h
    · exact ⟨_, ‹_›, .item (mainName?_iff.mp h)⟩
    · split at h
      · cases h
      · have readable := isNone_any_iff.mp (Bool.eq_false_iff.mpr ‹_›)
        split at h
        · cases h
          exact ⟨_, ‹_›, .silent readable (filter_main_nil_iff.mp ‹_›)⟩
        · rename_i only
          obtain ⟨before, after, rfl, rfl, others⟩ := filter_main_iff.mp only
          refine ⟨_, ‹_›, .member (fun m mem => readable m ?_) others (mainName?_iff.mp h)⟩
          exact (List.mem_append.mp mem).elim (List.mem_append_left _) fun there =>
            List.mem_append_right _ (List.mem_cons_of_mem _ there)
        · cases h
    · cases h
  · rintro ⟨value, parsed, manifest⟩
    rw [parsed]
    cases manifest with
    | silent readable others =>
      simp [isNone_any_iff.mpr readable, filter_main_nil_iff.mpr others]
    | @member before after value main readable others named =>
      have only := filter_main_iff.mpr
        ⟨before, after, rfl, (rfl : (some "main", value).1 = some "main"), others⟩
      have all : ∀ m ∈ before ++ (some "main", value) :: after, m.1 ≠ none := by
        simpa [or_imp, forall_and] using readable
      simpa [isNone_any_iff.mpr all, only] using mainName?_iff.mpr named
    | item named => exact mainName?_iff.mpr named

namespace Disk

def manifestPath (directory : Path) : Path := directory.join (.ofString "package.json")

/-- The package manifest of a directory can be read as text, but is none. -/
def HasBadManifest (d : Disk) (directory : Path) : Prop :=
  ∃ text, d.readText (manifestPath directory) = .ok text ∧ ∀ main, ¬ IsManifest text main

/-- The package manifest of a directory names a main file; an empty name is none. -/
def NamesMain (d : Disk) (directory : Path) (main : String) : Prop :=
  ∃ text, d.readText (manifestPath directory) = .ok text ∧ IsManifest text (some main) ∧
    main.isEmpty = false

end Disk

namespace Resolver

variable {r : Resolver} {d : Disk} {specifier : String} {base directory : Path} {p : Path}

theorem manifestOf_eq (d : Disk) (directory : Path) : manifestOf d directory =
    match d.readText (Disk.manifestPath directory) with
    | .error _ => .ok none
    | .ok text =>
      match manifestMain? text with
      | none => .error (.badManifest (Disk.manifestPath directory))
      | some main => .ok (main.filter fun m => !m.isEmpty) := rfl

theorem manifestOf_error_iff {e : BundleFault} : manifestOf d directory = .error e ↔
    d.HasBadManifest directory ∧ e = .badManifest (Disk.manifestPath directory) := by
  rw [manifestOf_eq, Disk.HasBadManifest]
  simp only [← manifestMain?_iff, ← Option.eq_none_iff_forall_ne_some]
  cases read : d.readText (Disk.manifestPath directory) with
  | error fault => simp
  | ok text => cases main : manifestMain? text <;> simp [main, eq_comm]

theorem manifestOf_main_iff {main : String} : manifestOf d directory = .ok (some main) ↔
    d.NamesMain directory main := by
  rw [manifestOf_eq, Disk.NamesMain]
  simp only [← manifestMain?_iff]
  cases read : d.readText (Disk.manifestPath directory) with
  | error fault => simp
  | ok text => cases named : manifestMain? text <;> simp [named, Option.filter_eq_some_iff]

theorem manifestOf_none_iff : manifestOf d directory = .ok none ↔
    ¬ d.HasBadManifest directory ∧ ∀ main, ¬ d.NamesMain directory main := by
  constructor
  · intro h
    constructor
    · intro bad
      rw [manifestOf_error_iff.mpr ⟨bad, rfl⟩] at h
      cases h
    · intro main named
      rw [manifestOf_main_iff.mpr named] at h
      cases h
  · rintro ⟨sound, silent⟩
    rcases read : manifestOf d directory with e | _ | main
    · exact (sound (manifestOf_error_iff.mp read).1).elim
    · rfl
    · exact (silent main (manifestOf_main_iff.mp read)).elim

def mainPath (directory : Path) (main : String) : Path := (directory.join (.ofString main)).normalize

/-- The file that stands for a directory. A manifest that names a main file leads to that file, to the
same with the default extension, or to the index of a directory of this name, and nowhere else. Only
where no main file is named the index of the directory itself is its file. -/
inductive Entry (r : Resolver) (d : Disk) (directory : Path) : Path → Prop where
  | main {main : String} (named : d.NamesMain directory main)
      (isFile : d.isFile (mainPath directory main)) : Entry r d directory (mainPath directory main)
  | extended {main : String} (named : d.NamesMain directory main)
      (noFile : ¬ d.isFile (mainPath directory main))
      (isFile : d.isFile (r.extended (mainPath directory main))) :
      Entry r d directory (r.extended (mainPath directory main))
  | nested {main : String} (named : d.NamesMain directory main)
      (noFile : ¬ d.isFile (mainPath directory main))
      (noExtended : ¬ d.isFile (r.extended (mainPath directory main)))
      (isFile : d.isFile ((mainPath directory main).join r.indexName)) :
      Entry r d directory ((mainPath directory main).join r.indexName)
  | index (sound : ¬ d.HasBadManifest directory) (silent : ∀ main, ¬ d.NamesMain directory main)
      (isFile : d.isFile (directory.join r.indexName)) : Entry r d directory (directory.join r.indexName)

theorem firstFile_cons (p : Path) (rest : List Path) :
    firstFile d (p :: rest) = if d.isFile p then some p else firstFile d rest := by
  rw [firstFile, List.find?_cons]
  cases d.isFile p <;> rfl

theorem firstFile_nil : firstFile d [] = none := rfl

theorem directoryFile_error_iff {e : BundleFault} : r.directoryFile d directory = .error e ↔
    d.HasBadManifest directory ∧ e = .badManifest (Disk.manifestPath directory) := by
  rw [← manifestOf_error_iff, directoryFile]
  rcases manifestOf d directory with e' | _ | main <;> simp

theorem directoryFile_some_iff : r.directoryFile d directory = .ok (some p) ↔
    r.Entry d directory p := by
  constructor
  · intro h
    rcases read : manifestOf d directory with e | _ | main
    · rw [directoryFile, read] at h
      cases h
    · obtain ⟨sound, silent⟩ := manifestOf_none_iff.mp read
      simp only [directoryFile, read, firstFile_cons, firstFile_nil] at h
      split at h
      · cases h
        exact .index sound silent ‹_›
      · cases h
    · have named := manifestOf_main_iff.mp read
      simp only [directoryFile, read, firstFile_cons, firstFile_nil] at h
      split at h
      · cases h
        exact .main named ‹_›
      · split at h
        · cases h
          exact .extended named ‹_› ‹_›
        · split at h
          · cases h
            exact .nested named ‹_› ‹_› ‹_›
          · cases h
  · intro h
    cases h with
    | main named isFile =>
      rw [mainPath] at isFile
      simp [directoryFile, manifestOf_main_iff.mpr named, firstFile_cons, mainPath, isFile]
    | extended named noFile isFile =>
      rw [mainPath] at noFile isFile
      simp [directoryFile, manifestOf_main_iff.mpr named, firstFile_cons, mainPath, isFile, noFile]
    | nested named noFile noExtended isFile =>
      rw [mainPath] at noFile noExtended isFile
      simp [directoryFile, manifestOf_main_iff.mpr named, firstFile_cons, mainPath, isFile, noFile,
        noExtended]
    | index sound silent isFile =>
      simp [directoryFile, manifestOf_none_iff.mpr ⟨sound, silent⟩, firstFile_cons, isFile]

theorem directoryFile_none_iff : r.directoryFile d directory = .ok none ↔
    ¬ d.HasBadManifest directory ∧ ∀ p, ¬ r.Entry d directory p := by
  constructor
  · intro h
    constructor
    · intro bad
      rw [directoryFile_error_iff.mpr ⟨bad, rfl⟩] at h
      cases h
    · intro p entry
      rw [directoryFile_some_iff.mpr entry] at h
      cases h
  · rintro ⟨sound, noEntry⟩
    rcases found : r.directoryFile d directory with e | _ | p
    · exact (sound (directoryFile_error_iff.mp found).1).elim
    · rfl
    · exact (noEntry p (directoryFile_some_iff.mp found)).elim

/-- The place that a specifier names, dots left out: below the directory of the module that holds it,
or below the package directory. -/
def place (r : Resolver) (specifier : String) (base : Path) : Path :=
  if Specifier.isRelative specifier then (base.join (.ofString specifier)).normalize
  else r.packagePath specifier

/-- A look-up comes to a directory: the place that the specifier names. A relative specifier that
names a file goes no further. -/
structure Enters (r : Resolver) (d : Disk) (specifier : String) (base directory : Path) : Prop where
  place : directory = r.place specifier base
  isDirectory : d.isDirectory directory
  noFile : Specifier.isRelative specifier → ¬ d.isFile (r.withExtension d directory)

/-- A look-up meets a manifest that cannot be understood. -/
def MeetsBadManifest (r : Resolver) (d : Disk) (specifier : String) (base directory : Path) : Prop :=
  r.Enters d specifier base directory ∧ d.HasBadManifest directory

/-- The file that is found for a specifier. A bare one that leads to no file of a directory, be it that
its manifest names a missing file, goes on to a file of its own name. -/
inductive Finds (r : Resolver) (d : Disk) (specifier : String) (base : Path) : Path → Prop where
  | direct (relative : Specifier.isRelative specifier)
      (isFile : d.isFile (r.withExtension d (r.place specifier base))) :
      Finds r d specifier base (r.withExtension d (r.place specifier base))
  | entry {directory p : Path} (enters : r.Enters d specifier base directory)
      (entry : r.Entry d directory p) : Finds r d specifier base p
  | exact (bare : Specifier.isRelative specifier = false)
      (sound : ∀ directory, ¬ r.MeetsBadManifest d specifier base directory)
      (noEntry : ∀ directory p, r.Enters d specifier base directory → ¬ r.Entry d directory p)
      (isFile : d.isFile (r.place specifier base)) :
      Finds r d specifier base (r.place specifier base)
  | extended (bare : Specifier.isRelative specifier = false)
      (sound : ∀ directory, ¬ r.MeetsBadManifest d specifier base directory)
      (noEntry : ∀ directory p, r.Enters d specifier base directory → ¬ r.Entry d directory p)
      (noFile : ¬ d.isFile (r.place specifier base))
      (isFile : d.isFile (r.extended (r.place specifier base))) :
      Finds r d specifier base (r.extended (r.place specifier base))

/-- A bare specifier may be left to the host if it is one of its modules or listed. -/
def MayLeave (r : Resolver) (specifier : String) : Prop :=
  Specifier.isRelative specifier = false ∧ (Specifier.IsBuiltIn specifier ∨ specifier ∈ r.externals)

def kindOf (specifier : String) : ModuleKind :=
  if Specifier.isRelative specifier then .project else .package

inductive Answers (r : Resolver) (d : Disk) (specifier : String) (base : Path) :
    Except BundleFault Resolved → Prop where
  | file {p : Path} (finds : r.Finds d specifier base p) :
      Answers r d specifier base (.ok (.ofFile p (kindOf specifier)))
  | external (sound : ∀ directory, ¬ r.MeetsBadManifest d specifier base directory)
      (noFile : ∀ p, ¬ r.Finds d specifier base p) (left : r.MayLeave specifier) :
      Answers r d specifier base (.ok (.external specifier))
  | badManifest {directory : Path} (meets : r.MeetsBadManifest d specifier base directory) :
      Answers r d specifier base (.error (.badManifest (Disk.manifestPath directory)))
  | unresolved (sound : ∀ directory, ¬ r.MeetsBadManifest d specifier base directory)
      (noFile : ∀ p, ¬ r.Finds d specifier base p) (kept : ¬ r.MayLeave specifier) :
      Answers r d specifier base (.error (.unresolved specifier base))

theorem enters_none {specifier : String} {base : Path}
    (h : r.Enters d specifier base (r.place specifier base) →
      r.directoryFile d (r.place specifier base) = .ok none) :
    (∀ directory, ¬ r.MeetsBadManifest d specifier base directory) ∧
      ∀ directory p, r.Enters d specifier base directory → ¬ r.Entry d directory p := by
  constructor
  · rintro directory ⟨enters, bad⟩
    obtain rfl := enters.place
    exact (directoryFile_none_iff.mp (h enters)).1 bad
  · intro directory p enters entry
    obtain rfl := enters.place
    exact (directoryFile_none_iff.mp (h enters)).2 p entry

theorem not_mayLeave_of_relative (relative : Specifier.isRelative specifier) :
    ¬ r.MayLeave specifier := by
  rintro ⟨bare, -⟩
  exact Bool.eq_false_iff.mp bare relative

theorem answers_relative (relative : Specifier.isRelative specifier) :
    r.Answers d specifier base (r.resolve d specifier base) := by
  have named : r.place specifier base = (base.join (.ofString specifier)).normalize := if_pos relative
  have kind : kindOf specifier = .project := if_pos relative
  rw [resolve, if_pos relative, relative?, ← named]
  by_cases isFile : d.isFile (r.withExtension d (r.place specifier base))
  · rw [if_pos isFile]
    exact kind ▸ .file (.direct relative isFile)
  rw [if_neg isFile]
  -- no directory at the place and one without a file come to the same
  have ends (h : r.Enters d specifier base (r.place specifier base) →
      r.directoryFile d (r.place specifier base) = .ok none) :
      r.Answers d specifier base (.error (.unresolved specifier base)) := by
    obtain ⟨sound, noEntry⟩ := enters_none h
    refine .unresolved sound ?_ (not_mayLeave_of_relative relative)
    intro p finds
    cases finds with
    | direct _ there => exact isFile there
    | entry enters entry => exact noEntry _ p enters entry
    | exact bare => exact Bool.eq_false_iff.mp bare relative
    | extended bare => exact Bool.eq_false_iff.mp bare relative
  by_cases isDirectory : d.isDirectory (r.place specifier base)
  · rw [if_pos isDirectory]
    have enters : r.Enters d specifier base (r.place specifier base) :=
      ⟨rfl, isDirectory, fun _ => isFile⟩
    rcases found : r.directoryFile d (r.place specifier base) with e | _ | p
    · obtain ⟨bad, rfl⟩ := directoryFile_error_iff.mp found
      exact .badManifest ⟨enters, bad⟩
    · exact ends fun _ => found
    · exact kind ▸ .file (.entry enters (directoryFile_some_iff.mp found))
  · rw [if_neg isDirectory]
    exact ends fun enters => (isDirectory enters.isDirectory).elim

section

variable (bare : Specifier.isRelative specifier = false)
include bare

theorem place_of_bare : r.place specifier base = r.packagePath specifier :=
  if_neg (Bool.eq_false_iff.mp bare)

/-- A bare specifier leads to the directory at its place below the package directory, if there is
one. -/
theorem enters_of_bare : r.Enters d specifier base directory ↔
    directory = r.packagePath specifier ∧ d.isDirectory directory := by
  rw [← show r.place specifier base = _ from place_of_bare bare]
  constructor
  · intro enters
    exact ⟨enters.place, enters.isDirectory⟩
  · rintro ⟨place, isDirectory⟩
    exact ⟨place, isDirectory, fun relative => (Bool.eq_false_iff.mp bare relative).elim⟩

theorem not_meets_of_bare : (∀ directory, ¬ r.MeetsBadManifest d specifier base directory) ↔
    ¬ (d.isDirectory (r.packagePath specifier) ∧ d.HasBadManifest (r.packagePath specifier)) := by
  constructor
  · rintro sound ⟨isDirectory, bad⟩
    exact sound _ ⟨(enters_of_bare bare).mpr ⟨rfl, isDirectory⟩, bad⟩
  · rintro sound directory ⟨enters, bad⟩
    obtain ⟨rfl, isDirectory⟩ := (enters_of_bare bare).mp enters
    exact sound ⟨isDirectory, bad⟩

theorem not_finds_of_bare
    (sound : ∀ directory, ¬ r.MeetsBadManifest d specifier base directory) :
    (∀ p, ¬ r.Finds d specifier base p) ↔
      (d.isDirectory (r.packagePath specifier) → ∀ p, ¬ r.Entry d (r.packagePath specifier) p) ∧
      ¬ d.isFile (r.packagePath specifier) ∧ ¬ d.isFile (r.extended (r.packagePath specifier)) := by
  have named : r.place specifier base = r.packagePath specifier := place_of_bare bare
  constructor
  · intro noFile
    have noEntry : ∀ directory p, r.Enters d specifier base directory → ¬ r.Entry d directory p :=
      fun directory p enters entry => noFile p (.entry enters entry)
    have noExact : ¬ d.isFile (r.place specifier base) :=
      fun isFile => noFile _ (.exact bare sound noEntry isFile)
    have noExtended : ¬ d.isFile (r.extended (r.place specifier base)) :=
      fun isFile => noFile _ (.extended bare sound noEntry noExact isFile)
    rw [named] at noExact noExtended
    exact ⟨fun isDirectory p => noEntry _ p ((enters_of_bare bare).mpr ⟨rfl, isDirectory⟩), noExact,
      noExtended⟩
  · rintro ⟨noEntry, noExact, noExtended⟩ p finds
    rw [← named] at noExact noExtended
    cases finds with
    | direct relative => exact Bool.eq_false_iff.mp bare relative
    | entry enters entry =>
      obtain ⟨rfl, isDirectory⟩ := (enters_of_bare bare).mp enters
      exact noEntry isDirectory p entry
    | exact _ _ _ isFile => exact noExact isFile
    | extended _ _ _ _ isFile => exact noExtended isFile

end

theorem resolve_of_package? {found : Option Resolved} (bare : Specifier.isRelative specifier = false)
    (h : r.package? d specifier = .ok found) :
    r.resolve d specifier base = found.elim (.error (.unresolved specifier base)) .ok := by
  rw [resolve, bare, if_neg Bool.false_ne_true, h]
  cases found <;> rfl

/-- Where no directory stands for a bare specifier, a file of its own name is looked for, and then the
host. -/
theorem package?_of_passed (h : (if d.isDirectory (r.packagePath specifier) then
      r.directoryFile d (r.packagePath specifier) else .ok none) = .ok none) :
    r.package? d specifier =
      .ok ((firstFile d [r.packagePath specifier, r.extended (r.packagePath specifier)]).elim
        (r.hostModule? specifier) fun file => some (.ofFile file .package)) := by
  rw [package?, h]
  cases firstFile d [r.packagePath specifier, r.extended (r.packagePath specifier)] <;> rfl

theorem leaves_iff : (Specifier.isHost specifier || r.externals.contains specifier) = true ↔
    Specifier.IsBuiltIn specifier ∨ specifier ∈ r.externals := by
  rw [Bool.or_eq_true, Specifier.isHost_iff, List.contains_iff_mem]

/-- A bare specifier for which no file of a directory stands is answered by a file of its own name, by
the host, or not at all. -/
theorem answers_of_passed (bare : Specifier.isRelative specifier = false)
    (h : (if d.isDirectory (r.place specifier base) then
      r.directoryFile d (r.place specifier base) else .ok none) = .ok none) :
    r.Answers d specifier base (r.resolve d specifier base) := by
  have named : r.place specifier base = r.packagePath specifier := place_of_bare bare
  have kind : kindOf specifier = .package := if_neg (Bool.eq_false_iff.mp bare)
  have passed : r.Enters d specifier base (r.place specifier base) →
      r.directoryFile d (r.place specifier base) = .ok none := by
    intro enters
    rw [if_pos enters.isDirectory] at h
    exact h
  obtain ⟨sound, noEntry⟩ := enters_none passed
  rw [resolve_of_package? bare (package?_of_passed (named ▸ h)), ← named, firstFile_cons,
    firstFile_cons, firstFile_nil]
  by_cases isFile : d.isFile (r.place specifier base)
  · rw [if_pos isFile]
    exact kind ▸ .file (.exact bare sound noEntry isFile)
  rw [if_neg isFile]
  by_cases isExtended : d.isFile (r.extended (r.place specifier base))
  · rw [if_pos isExtended]
    exact kind ▸ .file (.extended bare sound noEntry isFile isExtended)
  rw [if_neg isExtended, Option.elim_none]
  -- neither the directory nor the two files of its name: only the host is left
  have noFile : ∀ p, ¬ r.Finds d specifier base p := by
    refine (not_finds_of_bare bare sound).mpr ⟨fun isDirectory p => ?_, named ▸ isFile,
      named ▸ isExtended⟩
    exact noEntry _ p ((enters_of_bare bare).mpr ⟨rfl, isDirectory⟩)
  by_cases left : (Specifier.isHost specifier || r.externals.contains specifier) = true
  · rw [hostModule?, if_pos left]
    exact .external sound noFile ⟨bare, leaves_iff.mp left⟩
  · rw [hostModule?, if_neg left]
    exact .unresolved sound noFile fun may => left (leaves_iff.mpr may.2)

theorem answers_bare (bare : Specifier.isRelative specifier = false) :
    r.Answers d specifier base (r.resolve d specifier base) := by
  have unlike : ¬ Specifier.isRelative specifier = true := Bool.eq_false_iff.mp bare
  have named : r.place specifier base = r.packagePath specifier := place_of_bare bare
  have kind : kindOf specifier = .package := if_neg unlike
  by_cases isDirectory : d.isDirectory (r.place specifier base)
  · have enters : r.Enters d specifier base (r.place specifier base) :=
      ⟨rfl, isDirectory, fun relative => (unlike relative).elim⟩
    rcases found : r.directoryFile d (r.place specifier base) with e | _ | p
    · obtain ⟨bad, rfl⟩ := directoryFile_error_iff.mp found
      rw [resolve, if_neg unlike, package?, ← named, if_pos isDirectory, found]
      exact .badManifest ⟨enters, bad⟩
    · exact answers_of_passed bare (by rw [if_pos isDirectory, found])
    · rw [resolve, if_neg unlike, package?, ← named, if_pos isDirectory, found]
      exact kind ▸ .file (.entry enters (directoryFile_some_iff.mp found))
  · exact answers_of_passed bare (if_neg isDirectory)

/-- Every look-up is answered by these rules. -/
theorem answers_resolve (r : Resolver) (d : Disk) (specifier : String) (base : Path) :
    r.Answers d specifier base (r.resolve d specifier base) := by
  cases relative : Specifier.isRelative specifier with
  | true => exact answers_relative relative
  | false => exact answers_bare relative

theorem Entry.unique {p q : Path} (hp : r.Entry d directory p) (hq : r.Entry d directory q) :
    p = q := by
  have found := directoryFile_some_iff.mpr hp
  rw [directoryFile_some_iff.mpr hq] at found
  exact (Option.some.inj (Except.ok.inj found)).symm

theorem Entry.not_bad {p : Path} (h : r.Entry d directory p) : ¬ d.HasBadManifest directory := by
  intro bad
  have found := directoryFile_some_iff.mpr h
  rw [directoryFile_error_iff.mpr ⟨bad, rfl⟩] at found
  cases found

theorem Finds.not_meets {p : Path} (h : r.Finds d specifier base p) :
    ¬ r.MeetsBadManifest d specifier base directory := by
  rintro ⟨enters, bad⟩
  cases h with
  | direct relative isFile => exact enters.noFile relative (enters.place ▸ isFile)
  | entry enters' entry => exact entry.not_bad ((enters.place.trans enters'.place.symm) ▸ bad)
  | exact _ sound => exact sound directory ⟨enters, bad⟩
  | extended _ sound => exact sound directory ⟨enters, bad⟩

theorem Finds.unique {p q : Path} (hp : r.Finds d specifier base p)
    (hq : r.Finds d specifier base q) : p = q := by
  cases hp with
  | direct relative isFile =>
    cases hq with
    | direct => rfl
    | entry enters => exact (enters.noFile relative (enters.place ▸ isFile)).elim
    | exact bare => exact (Bool.eq_false_iff.mp bare relative).elim
    | extended bare => exact (Bool.eq_false_iff.mp bare relative).elim
  | entry enters entry =>
    cases hq with
    | direct relative isFile => exact (enters.noFile relative (enters.place ▸ isFile)).elim
    | entry enters' entry' => exact entry.unique ((enters'.place.trans enters.place.symm) ▸ entry')
    | exact _ _ noEntry => exact (noEntry _ _ enters entry).elim
    | extended _ _ noEntry => exact (noEntry _ _ enters entry).elim
  | exact bare _ noEntry isFile =>
    cases hq with
    | direct relative => exact (Bool.eq_false_iff.mp bare relative).elim
    | entry enters entry => exact (noEntry _ _ enters entry).elim
    | exact => rfl
    | extended _ _ _ noFile => exact (noFile isFile).elim
  | extended bare _ noEntry noFile =>
    cases hq with
    | direct relative => exact (Bool.eq_false_iff.mp bare relative).elim
    | entry enters entry => exact (noEntry _ _ enters entry).elim
    | exact _ _ _ isFile => exact (noFile isFile).elim
    | extended => rfl

theorem Answers.unique {a b : Except BundleFault Resolved} (ha : r.Answers d specifier base a)
    (hb : r.Answers d specifier base b) : a = b := by
  cases ha with
  | file finds =>
    cases hb with
    | file finds' => rw [finds.unique finds']
    | external _ noFile => exact (noFile _ finds).elim
    | badManifest meets => exact (finds.not_meets meets).elim
    | unresolved _ noFile => exact (noFile _ finds).elim
  | external sound noFile left =>
    cases hb with
    | file finds => exact (noFile _ finds).elim
    | external => rfl
    | badManifest meets => exact (sound _ meets).elim
    | unresolved _ _ kept => exact (kept left).elim
  | badManifest meets =>
    cases hb with
    | file finds => exact (finds.not_meets meets).elim
    | external sound => exact (sound _ meets).elim
    | badManifest meets' => rw [meets.1.place, meets'.1.place]
    | unresolved sound => exact (sound _ meets).elim
  | unresolved sound noFile kept =>
    cases hb with
    | file finds => exact (noFile _ finds).elim
    | external _ _ left => exact (kept left).elim
    | badManifest meets => exact (sound _ meets).elim
    | unresolved => rfl

/-- The rules of the look-up describe it completely. -/
theorem resolve_eq_iff {answer : Except BundleFault Resolved} :
    r.resolve d specifier base = answer ↔ r.Answers d specifier base answer := by
  constructor
  · rintro rfl
    exact answers_resolve r d specifier base
  · exact (answers_resolve r d specifier base).unique

theorem resolve_file_iff {path next : Path} {kind : ModuleKind} :
    r.resolve d specifier base = .ok (.file path next kind) ↔
      r.Finds d specifier base path ∧ next = path.directory ∧ kind = kindOf specifier := by
  rw [resolve_eq_iff]
  constructor
  · intro answers
    cases answers with
    | file finds => exact ⟨finds, rfl, rfl⟩
  · rintro ⟨finds, rfl, rfl⟩
    exact .file finds

theorem resolve_finds_iff {path : Path} :
    (∃ next kind, r.resolve d specifier base = .ok (.file path next kind)) ↔
      r.Finds d specifier base path := by
  constructor
  · rintro ⟨next, kind, answer⟩
    exact (resolve_file_iff.mp answer).1
  · intro finds
    exact ⟨_, _, resolve_file_iff.mpr ⟨finds, rfl, rfl⟩⟩

theorem resolve_external_iff {left : String} :
    r.resolve d specifier base = .ok (.external left) ↔ left = specifier ∧ r.MayLeave specifier ∧
      (∀ directory, ¬ r.MeetsBadManifest d specifier base directory) ∧
      ∀ p, ¬ r.Finds d specifier base p := by
  rw [resolve_eq_iff]
  constructor
  · intro answers
    cases answers with
    | external sound noFile may => exact ⟨rfl, may, sound, noFile⟩
  · rintro ⟨rfl, may, sound, noFile⟩
    exact .external sound noFile may

theorem resolve_badManifest_iff {path : Path} :
    r.resolve d specifier base = .error (.badManifest path) ↔
      ∃ directory, r.MeetsBadManifest d specifier base directory ∧
        path = Disk.manifestPath directory := by
  rw [resolve_eq_iff]
  constructor
  · intro answers
    cases answers with
    | badManifest meets => exact ⟨_, meets, rfl⟩
  · rintro ⟨directory, meets, rfl⟩
    exact .badManifest meets

theorem Entry.isFile {p : Path} (h : r.Entry d directory p) : d.isFile p :=
  isFile_of_directoryFile (directoryFile_some_iff.mpr h)

theorem Finds.isFile {p : Path} (h : r.Finds d specifier base p) : d.isFile p := by
  cases h with
  | direct _ isFile => exact isFile
  | entry _ entry => exact entry.isFile
  | exact _ _ _ isFile => exact isFile
  | extended _ _ _ _ isFile => exact isFile

theorem kindOf_eq_project : kindOf specifier = .project ↔ Specifier.isRelative specifier := by
  unfold kindOf
  cases Specifier.isRelative specifier <;> simp

/-- The manifest of a directory names a main file that is missing: none of the three places where it
is looked for holds a file. -/
structure LacksMain (r : Resolver) (d : Disk) (directory : Path) (main : String) : Prop where
  named : d.NamesMain directory main
  noFile : ¬ d.isFile (mainPath directory main)
  noExtended : ¬ d.isFile (r.extended (mainPath directory main))
  noNested : ¬ d.isFile ((mainPath directory main).join r.indexName)

theorem LacksMain.not_bad {main : String} (h : r.LacksMain d directory main) :
    ¬ d.HasBadManifest directory := by
  intro bad
  have read := manifestOf_main_iff.mpr h.named
  rw [manifestOf_error_iff.mpr ⟨bad, rfl⟩] at read
  cases read

theorem namesMain_unique {main other : String} (h : d.NamesMain directory main)
    (h' : d.NamesMain directory other) : main = other := by
  have read := manifestOf_main_iff.mpr h
  rw [manifestOf_main_iff.mpr h'] at read
  exact (Option.some.inj (Except.ok.inj read)).symm

theorem LacksMain.no_entry {main : String} (h : r.LacksMain d directory main) (p : Path) :
    ¬ r.Entry d directory p := by
  intro entry
  cases entry with
  | main named isFile => exact h.noFile (namesMain_unique h.named named ▸ isFile)
  | extended named _ isFile => exact h.noExtended (namesMain_unique h.named named ▸ isFile)
  | nested named _ _ isFile => exact h.noNested (namesMain_unique h.named named ▸ isFile)
  | index _ silent => exact silent main h.named

/-- A package whose main file is missing is passed over: only the file of its own name with the default
extension is found for it. -/
theorem LacksMain.finds_iff {main : String} (lacks : r.LacksMain d (r.packagePath specifier) main)
    (bare : Specifier.isRelative specifier = false) (isDirectory : d.isDirectory (r.packagePath specifier)) :
    r.Finds d specifier base p ↔ p = r.extended (r.packagePath specifier) ∧ d.isFile p := by
  have named : r.place specifier base = r.packagePath specifier := place_of_bare bare
  have noEntry : ∀ directory p, r.Enters d specifier base directory → ¬ r.Entry d directory p := by
    intro directory p enters
    obtain ⟨rfl, -⟩ := (enters_of_bare bare).mp enters
    exact lacks.no_entry p
  have noFile : ¬ d.isFile (r.packagePath specifier) :=
    Bool.eq_false_iff.mp (Disk.not_isFile_of_isDirectory isDirectory)
  constructor
  · intro finds
    refine ⟨?_, finds.isFile⟩
    cases finds with
    | direct relative => exact (Bool.eq_false_iff.mp bare relative).elim
    | entry enters entry => exact (noEntry _ _ enters entry).elim
    | exact _ _ _ isFile => exact (noFile (named ▸ isFile)).elim
    | extended => rw [named]
  · rintro ⟨rfl, isFile⟩
    rw [← named] at noFile isFile ⊢
    refine .extended bare ((not_meets_of_bare bare).mpr ?_) noEntry noFile isFile
    exact fun meets => lacks.not_bad meets.2

structure Outcome (r : Resolver) (d : Disk) (specifier : String) (base : Path)
    (answer : Except BundleFault Resolved) : Prop where
  /-- a file is there, its own specifiers start from its parent, and it belongs to the project just
  when it was named by a relative specifier -/
  file : ∀ path next kind, answer = .ok (.file path next kind) →
    d.isFile path ∧ path.parent? = some next ∧ (kind = .project ↔ Specifier.isRelative specifier)
  /-- which file that is -/
  found : ∀ path, (∃ next kind, answer = .ok (.file path next kind)) ↔ r.Finds d specifier base path
  /-- a relative specifier is never left to the host -/
  relative : Specifier.isRelative specifier → ∀ left, answer ≠ .ok (.external left)
  /-- a bare one is left to the host when no bad manifest is met, none of the three places holds a
  file, and it is a module of the host or listed -/
  external : Specifier.isRelative specifier = false → ∀ left, answer = .ok (.external left) ↔
    left = specifier ∧
    ¬ (d.isDirectory (r.packagePath specifier) ∧ d.HasBadManifest (r.packagePath specifier)) ∧
    (d.isDirectory (r.packagePath specifier) → ∀ p, ¬ r.Entry d (r.packagePath specifier) p) ∧
    ¬ d.isFile (r.packagePath specifier) ∧ ¬ d.isFile (r.extended (r.packagePath specifier)) ∧
    (Specifier.IsBuiltIn specifier ∨ specifier ∈ r.externals)
  /-- a package whose main file is missing is passed over: only the file of its own name with the
  default extension can be found then, and not its index -/
  skipped : Specifier.isRelative specifier = false → d.isDirectory (r.packagePath specifier) →
    ∀ main, r.LacksMain d (r.packagePath specifier) main →
    (∀ path, (∃ next kind, answer = .ok (.file path next kind)) ↔
      path = r.extended (r.packagePath specifier) ∧ d.isFile path) ∧
    ∀ path, answer ≠ .error (.badManifest path)
  /-- a manifest is complained of just when the look-up comes to a directory with a bad one -/
  badManifest : ∀ path, answer = .error (.badManifest path) ↔
    ∃ directory, r.Enters d specifier base directory ∧ d.HasBadManifest directory ∧
      path = Disk.manifestPath directory
  /-- in all other cases the specifier cannot be resolved from its directory -/
  unresolved : (∀ path next kind, answer ≠ .ok (.file path next kind)) →
    (∀ left, answer ≠ .ok (.external left)) → (∀ path, answer ≠ .error (.badManifest path)) →
    answer = .error (.unresolved specifier base)

theorem resolve_outcome (r : Resolver) (d : Disk) (specifier : String) (base : Path) :
    r.Outcome d specifier base (r.resolve d specifier base) where
  file path next kind answer := by
    obtain ⟨finds, rfl, rfl⟩ := resolve_file_iff.mp answer
    exact ⟨finds.isFile, Disk.parent?_of_isFile finds.isFile, kindOf_eq_project⟩
  found path := resolve_finds_iff
  relative relative left answer :=
    not_mayLeave_of_relative relative (resolve_external_iff.mp answer).2.1
  external bare left := by
    rw [resolve_external_iff]
    constructor
    · rintro ⟨same, may, sound, noFile⟩
      obtain ⟨noEntry, noExact, noExtended⟩ := (not_finds_of_bare bare sound).mp noFile
      exact ⟨same, (not_meets_of_bare bare).mp sound, noEntry, noExact, noExtended, may.2⟩
    · rintro ⟨same, sound, noEntry, noExact, noExtended, may⟩
      have unmet : ∀ directory, ¬ r.MeetsBadManifest d specifier base directory :=
        (not_meets_of_bare bare).mpr sound
      exact ⟨same, ⟨bare, may⟩, unmet,
        (not_finds_of_bare bare unmet).mpr ⟨noEntry, noExact, noExtended⟩⟩
  skipped bare isDirectory main lacks := by
    refine ⟨fun path => ?_, fun path answer => ?_⟩
    · rw [resolve_finds_iff, lacks.finds_iff bare isDirectory]
    · obtain ⟨directory, meets, -⟩ := resolve_badManifest_iff.mp answer
      exact (not_meets_of_bare bare).mpr (fun bad => lacks.not_bad bad.2) directory meets
  badManifest path := by
    rw [resolve_badManifest_iff]
    simp only [MeetsBadManifest, and_assoc]
  unresolved noFile noExternal noManifest := by
    rcases answered : r.resolve d specifier base with e | ⟨path, next, kind⟩ | left
    · rcases resolve_error answered with ⟨path, rfl⟩ | rfl
      · exact (noManifest path answered).elim
      · rfl
    · exact (noFile _ _ _ answered).elim
    · exact (noExternal _ answered).elim

namespace Broken

/-- A package whose manifest is cut short, and one whose main file is missing though it has an index. -/
def disk : Disk where
  tree := (FileTree.empty.plant ["p".toList, "node_modules".toList, "cut".toList,
      "package.json".toList] (.file (.text "\x7b\"main\": "))
    |>.plant ["p".toList, "node_modules".toList, "lost".toList, "package.json".toList]
      (.file (.text "\x7b\"main\": \"lib\"\x7d"))
    |>.plant ["p".toList, "node_modules".toList, "lost".toList, "index.js".toList]
      (.file (.text "exports.a = 1;")))
    |>.plant ["p".toList, "node_modules".toList, "lost.js".toList]
      (.file (.text "exports.b = 1;"))
  cwd := []

def project : Path := .ofString "/p"

def resolver : Resolver := .ofConfig project .default_

def file : Path := .ofString "/p/node_modules/lost.js"

theorem hasBadManifest : disk.HasBadManifest (resolver.packagePath "cut") :=
  (manifestOf_error_iff (e := .badManifest
    (Disk.manifestPath (resolver.packagePath "cut")))).mp (by decide +kernel) |>.1

theorem lacksMain : resolver.LacksMain disk (resolver.packagePath "lost") "lib" where
  named := manifestOf_main_iff.mp (by decide +kernel)
  noFile := by decide +kernel
  noExtended := by decide +kernel
  noNested := by decide +kernel

end Broken

/-- The first package cannot be used at all; the second is passed over for the file beside it. -/
theorem resolve_outcome_broken :
    Broken.resolver.resolve Broken.disk "cut" Broken.project =
      .error (.badManifest (Disk.manifestPath (Broken.resolver.packagePath "cut"))) ∧
    ∃ next kind, Broken.resolver.resolve Broken.disk "lost" Broken.project =
      .ok (.file Broken.file next kind) := by
  have cut : Specifier.isRelative "cut" = false := by decide
  have lost : Specifier.isRelative "lost" = false := by decide
  have cutThere : Broken.disk.isDirectory (Broken.resolver.packagePath "cut") := by decide +kernel
  have lostThere : Broken.disk.isDirectory (Broken.resolver.packagePath "lost") := by decide +kernel
  have beside : Broken.file = Broken.resolver.extended (Broken.resolver.packagePath "lost") ∧
      Broken.disk.isFile Broken.file := by decide +kernel
  constructor
  · refine (resolve_outcome Broken.resolver Broken.disk "cut" Broken.project).badManifest _ |>.mpr ?_
    exact ⟨_, (enters_of_bare cut).mpr ⟨rfl, cutThere⟩, Broken.hasBadManifest, rfl⟩
  · have passed := (resolve_outcome Broken.resolver Broken.disk "lost" Broken.project).skipped lost
      lostThere "lib" Broken.lacksMain
    exact (passed.1 Broken.file).mpr beside

end Resolver

end Bundler
