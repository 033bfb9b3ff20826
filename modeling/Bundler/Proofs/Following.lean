import Bundler.Proofs.Normal
import Mathlib.Data.List.Induction

/-! Where paths lead, component by component, in a tree whose root is its own parent, as that of a whole
disk is. To follow a path in a tree that may be a part of a larger one leads above the root instead;
where it leads to a file or directory of the tree, the path leads there in both readings. A path and its
normal form lead to the same entry as long as no more than one level above the working directory is
asked for: of more levels the normal form keeps one or none. -/

namespace Bundler

def Location.climb (at_ : Location) (levels : Nat) : Location := at_.take (at_.length - levels)

namespace Location

theorem climb_zero (at_ : Location) : climb at_ 0 = at_ := List.take_length

theorem climb_root (levels : Nat) : climb [] levels = [] := List.take_nil

theorem dropLast_climb (at_ : Location) (levels : Nat) :
    (climb at_ levels).dropLast = climb at_ (levels + 1) := by
  rw [climb, climb, List.dropLast_eq_take, List.take_take, List.length_take]
  congr 1
  omega

theorem climb_dropLast (at_ : Location) (levels : Nat) :
    climb at_.dropLast levels = climb at_ (levels + 1) := by
  rw [climb, climb, List.length_dropLast, List.dropLast_eq_take, List.take_take]
  congr 1
  omega

theorem climb_eq_iff {at_ : Location} {a b : Nat} :
    climb at_ a = climb at_ b ↔ min a at_.length = min b at_.length := by
  constructor
  · intro same
    have lengths := congrArg List.length same
    rw [climb, climb, List.length_take, List.length_take] at lengths
    omega
  · intro same
    rw [climb, climb]
    congr 1
    omega

end Location

namespace FileTree

open Path (Component Way)

/-- One component further: only a directory leads on, and `..` at the root leads to the root. -/
def stepTo (t : FileTree) : Location × Entry → Component → Option (Location × Entry)
  | (_, .file _), _ => none
  | (_, .directory), .root => some ([], .directory)
  | (at_, .directory), .current => some (at_, .directory)
  | (at_, .directory), .parent => some (at_.dropLast, .directory)
  | (at_, .directory), .name cs => (t.lookup? (at_ ++ [cs])).map fun entry => (at_ ++ [cs], entry)

def reach (t : FileTree) (cwd : Location) (p : Path) : Option (Location × Entry) :=
  p.components.foldlM t.stepTo (cwd, .directory)

def below (t : FileTree) (at_ : Location) (names : List (List Char)) : Option (Location × Entry) :=
  (names.map Component.name).foldlM t.stepTo (at_, .directory)

variable {t : FileTree} {cwd at_ : Location} {names : List (List Char)} {x : Location × Entry}

theorem stepTo_name {y : Location × Entry} {name : List Char}
    (h : t.stepTo y (.name name) = some x) : y.2 = .directory ∧ x.1 = y.1 ++ [name] := by
  obtain ⟨loc, _ | content⟩ := y
  · obtain ⟨entry, -, rfl⟩ := Option.map_eq_some_iff.mp h
    exact ⟨rfl, rfl⟩
  · cases h

theorem below_concat (name : List Char) :
    t.below at_ (names ++ [name]) = (t.below at_ names).bind (t.stepTo · (.name name)) := by
  rw [below, List.map_append, List.foldlM_append, List.map_singleton]
  congr 1
  funext y
  exact bind_pure _

theorem location_of_below (h : t.below at_ names = some x) : x.1 = at_ ++ names := by
  induction names using List.reverseRecOn generalizing x with
  | nil =>
    cases h
    exact (List.append_nil _).symm
  | append_singleton names name ih =>
    rw [below_concat] at h
    obtain ⟨y, earlier, last⟩ := Option.bind_eq_some_iff.mp h
    rw [(stepTo_name last).2, ih earlier, List.append_assoc]

theorem below_next {w : Way} {c : Component} {y : Location × Entry} (noRoot : c ≠ .root)
    (before : t.below (at_.climb w.up) w.down.reverse = some y) (last : t.stepTo y c = some x) :
    t.below (at_.climb (w.next c).up) (w.next c).down.reverse = some x := by
  obtain ⟨up, down⟩ := w
  obtain ⟨loc, _ | content⟩ := y
  · cases c with
    | root => exact (noRoot rfl).elim
    | current =>
      cases last
      cases down <;> exact before
    | parent =>
      cases last
      cases down with
      | nil =>
        -- with no name to take back the way goes one step further up
        cases before
        show some (at_.climb (up + 1), Entry.directory) = _
        rw [Location.dropLast_climb]
      | cons name names =>
        rw [List.reverse_cons, below_concat] at before
        obtain ⟨⟨front, entry⟩, earlier, named⟩ := Option.bind_eq_some_iff.mp before
        obtain ⟨rfl, rfl⟩ := stepTo_name named
        rw [List.dropLast_concat]
        exact earlier
    | name cs =>
      have longer : (Way.next ⟨up, down⟩ (.name cs)) = ⟨up, cs :: down⟩ := by cases down <;> rfl
      rw [longer, List.reverse_cons, below_concat, before]
      exact last
  · cases last

/-- What components lead to is reached by their way: first up, then down along names. -/
theorem below_of_way {cs : List Component} (noRoot : .root ∉ cs)
    (h : cs.foldlM t.stepTo (at_, .directory) = some x) :
    t.below (at_.climb (cs.foldl Way.next ⟨0, []⟩).up) (cs.foldl Way.next ⟨0, []⟩).down.reverse =
      some x := by
  induction cs using List.reverseRecOn generalizing x with
  | nil =>
    cases h
    show some (at_.climb 0, Entry.directory) = _
    rw [Location.climb_zero]
  | append_singleton cs c ih =>
    rw [List.foldlM_append] at h
    obtain ⟨y, earlier, h⟩ := Option.bind_eq_some_iff.mp h
    rw [List.foldlM_cons] at h
    obtain ⟨_, last, h⟩ := Option.bind_eq_some_iff.mp h
    cases h
    rw [List.foldl_append]
    exact below_next (fun same => noRoot (same ▸ List.mem_append_right _ List.mem_cons_self))
      (ih (fun mem => noRoot (List.mem_append_left _ mem)) earlier) last

theorem foldlM_parents (levels : Nat) (cs : List Component) :
    (List.replicate levels Component.parent ++ cs).foldlM t.stepTo (at_, .directory) =
      cs.foldlM t.stepTo (at_.climb levels, .directory) := by
  induction levels generalizing at_ with
  | zero => rw [List.replicate_zero, List.nil_append, Location.climb_zero]
  | succ levels ih =>
    rw [List.replicate_succ, List.cons_append, List.foldlM_cons, ← Location.climb_dropLast]
    exact ih

theorem reach_eq (t : FileTree) (cwd : Location) (p : Path) :
    t.reach cwd p = (p.names.map Component.ofSegment).foldlM t.stepTo (base cwd p, .directory) := by
  rw [reach, Path.components_eq, base]
  rcases Path.start_eq p with start | start | start
  · rw [start, Path.isAbsolute_of_start (by simp [start])]
    rfl
  · rw [start, (Path.isAbsolute_iff p).mpr start]
    rfl
  · rw [start, Path.isAbsolute_of_start (by simp [start])]
    rfl

theorem walk_above {segments : List (List Char)} {spot : Spot}
    (h : t.walk .above segments = .ok spot) : spot = .above := by
  induction segments with
  | nil => exact (Except.ok.inj h).symm
  | cons segment rest ih =>
    obtain ⟨middle, entered, later⟩ := walk_cons_ok h
    unfold enter at entered
    dsimp only at entered
    split at entered
    · cases entered
      exact ih later
    · cases entered

theorem foldlM_of_walk {segments : List (List Char)} {from_ entry : Entry} {loc : Location}
    (active : ∀ segment ∈ segments, Path.isIdle segment = false)
    (h : t.walk (.at_ at_ from_) segments = .ok (.at_ loc entry)) :
    (segments.map Component.ofSegment).foldlM t.stepTo (at_, from_) = some (loc, entry) := by
  induction segments generalizing at_ from_ with
  | nil =>
    cases h
    rfl
  | cons segment rest ih =>
    obtain ⟨busy, others⟩ := List.forall_mem_cons.mp active
    obtain ⟨middle, entered, later⟩ := walk_cons_ok h
    cases from_ with
    | file content => cases entered
    | directory =>
      unfold enter at entered
      dsimp only at entered
      rw [busy, if_neg Bool.false_ne_true] at entered
      rw [List.map_cons, List.foldlM_cons, Component.ofSegment]
      split at entered
      · rename_i isParent
        rw [if_pos isParent]
        split at entered
        · cases entered
          cases walk_above later
        · cases entered
          exact ih others later
      · rename_i isName
        rw [if_neg isName]
        split at entered
        · rename_i found
          cases entered
          rw [stepTo, found]
          exact ih others later
        · cases entered

/-- Where a path is followed to on a disk, it leads to by its components. -/
theorem reach_of_follow {p : Path} {entry : Entry} {loc : Location}
    (h : t.follow cwd p = .ok (.at_ loc entry)) : t.reach cwd p = some (loc, entry) := by
  rw [reach_eq]
  exact foldlM_of_walk (fun _ mem => Path.not_idle_of_mem_names mem)
    (walk_filter (follow_ok_iff.mp h).2.2)

theorem below_of_reach {p : Path} (h : t.reach cwd p = some x) :
    t.below ((base cwd p).climb p.way.up) p.descent = some x := by
  rw [reach_eq] at h
  have led := below_of_way p.root_not_mem_names h
  rwa [← Path.way_eq] at led

theorem reach_normalize (t : FileTree) (cwd : Location) (p : Path) :
    t.reach cwd p.normalize = t.below ((base cwd p).climb (p.way.up % 2)) p.descent := by
  rw [reach, Path.components_normalize, Path.anchor, base, below]
  cases p.isAbsolute with
  | true =>
    rw [if_pos rfl, if_pos rfl, List.append_assoc, List.singleton_append, List.foldlM_cons]
    exact foldlM_parents _ _
  | false =>
    rw [if_neg Bool.false_ne_true, if_neg Bool.false_ne_true, List.nil_append]
    exact foldlM_parents _ _

/-- Where a path leads to some entry, its normal form leads to the same one just when it keeps all
levels that the path climbs: from the root there are none, one is kept, and of more only those that
the working directory does not have are left out. -/
theorem reach_normalize_iff {p : Path} (h : t.reach cwd p = some x) :
    t.reach cwd p.normalize = some x ↔
      p.isAbsolute ∨ p.way.up < 2 ∨ cwd.length ≤ p.way.up % 2 := by
  have led := below_of_reach h
  rw [reach_normalize]
  have alike : t.below ((base cwd p).climb (p.way.up % 2)) p.descent = some x ↔
      (base cwd p).climb p.way.up = (base cwd p).climb (p.way.up % 2) := by
    constructor
    · intro led'
      have same := (location_of_below led).symm.trans (location_of_below led')
      exact (List.append_left_inj _).mp same
    · intro same
      rw [← same, led]
  rw [alike, base]
  cases p.isAbsolute with
  | true =>
    rw [if_pos rfl, Location.climb_root, Location.climb_root]
    exact iff_of_true rfl (.inl rfl)
  | false =>
    rw [if_neg Bool.false_ne_true, Location.climb_eq_iff]
    simp only [Bool.false_eq_true, false_or]
    omega

namespace Climbed

def tree : FileTree := (FileTree.empty.plant ["a".toList, "b".toList] .directory).plant ["x".toList]
  (.file (.text "1"))

def file : Location × Entry := (["x".toList], .file (.text "1"))

def path : Path := .ofString "../../x"

end Climbed

theorem reach_normalize_iff_climbed :
    Climbed.tree.reach ["a".toList] (.ofString ".././x") = some Climbed.file ∧
    Climbed.tree.reach ["a".toList] (Path.ofString ".././x").normalize = some Climbed.file := by
  have led : Climbed.tree.reach ["a".toList] (.ofString ".././x") = some Climbed.file := by
    decide +kernel
  refine ⟨led, (reach_normalize_iff led).mpr (.inr (.inl ?_))⟩
  decide +kernel

/-- From two levels below the root a path leads to a file, and its normal form to none. -/
theorem not_reach_normalize : ¬ ∀ (t : FileTree) (cwd : Location) (p : Path) (x : Location × Entry),
    t.reach cwd p = some x → t.reach cwd p.normalize = some x := by
  intro keeps
  have led : Climbed.tree.reach ["a".toList, "b".toList] Climbed.path = some Climbed.file := by
    decide +kernel
  have lost : Climbed.tree.reach ["a".toList, "b".toList] Climbed.path.normalize = none := by
    decide +kernel
  cases lost.symm.trans (keeps _ _ _ _ led)

end FileTree

end Bundler
