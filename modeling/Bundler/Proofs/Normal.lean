import Bundler.Proofs.Segments
import Mathlib.Algebra.Order.Group.Nat

/-! Normal forms of paths. A path leads some levels above the place where it starts, and from there
down along names. Its normal form has all of these names. Of the levels above it keeps no more than
one: a `..` that has nothing to take away stays, and is taken away itself by the next one. -/

namespace Bundler

namespace Path

/-- Where components lead: so many levels up, and then down along names, the last of them first. -/
structure Way where
  up : Nat
  down : List (List Char)

namespace Way

def next : Way → Component → Way
  | ⟨up, []⟩, .parent => ⟨up + 1, []⟩
  | ⟨up, _ :: below⟩, .parent => ⟨up, below⟩
  | ⟨up, down⟩, .name cs => ⟨up, cs :: down⟩
  | w, _ => w

theorem up_le_next (w : Way) (c : Component) : w.up ≤ (w.next c).up := by
  obtain ⟨up, _ | ⟨last, below⟩⟩ := w <;> cases c <;> simp [next]

theorem up_le_foldl (w : Way) (cs : List Component) : w.up ≤ (cs.foldl next w).up := by
  induction cs generalizing w with
  | nil => exact le_rfl
  | cons c cs ih => exact (w.up_le_next c).trans (ih (w.next c))

theorem foldl_add (before : Nat) (w : Way) (cs : List Component) :
    cs.foldl next ⟨before + w.up, w.down⟩ =
      ⟨before + (cs.foldl next w).up, (cs.foldl next w).down⟩ := by
  induction cs generalizing w with
  | nil => rfl
  | cons c cs ih =>
    have first : next ⟨before + w.up, w.down⟩ c = ⟨before + (next w c).up, (next w c).down⟩ := by
      obtain ⟨up, _ | ⟨last, below⟩⟩ := w <;> cases c <;> rfl
    rw [List.foldl_cons, List.foldl_cons, first, ih]

theorem mem_down_next {w : Way} {c : Component} {name : List Char} (h : name ∈ (w.next c).down) :
    name ∈ w.down ∨ .name name = c := by
  obtain ⟨up, down⟩ := w
  cases c with
  | name cs =>
    have added : name ∈ cs :: down := by cases down <;> exact h
    exact (List.mem_cons.mp added).symm.imp id (congrArg Component.name)
  | parent =>
    cases down with
    | nil => exact .inl h
    | cons last below => exact .inl (List.mem_cons_of_mem _ h)
  | root => cases down <;> exact .inl h
  | current => cases down <;> exact .inl h

theorem mem_down_foldl {w : Way} {cs : List Component} {name : List Char}
    (h : name ∈ (cs.foldl next w).down) : name ∈ w.down ∨ .name name ∈ cs := by
  induction cs generalizing w with
  | nil => exact .inl h
  | cons c cs ih =>
    rcases ih h with early | late
    · exact (mem_down_next early).imp id fun same => List.mem_cons.mpr (.inl same)
    · exact .inr (List.mem_cons_of_mem _ late)

theorem foldl_names (w : Way) (names : List (List Char)) :
    (names.map Component.name).foldl next w = ⟨w.up, names.reverse ++ w.down⟩ := by
  induction names generalizing w with
  | nil => rfl
  | cons name names ih =>
    rw [List.map_cons, List.foldl_cons, ih, List.reverse_cons, List.append_assoc]
    obtain ⟨up, _ | ⟨last, below⟩⟩ := w <;> rfl

theorem foldl_parents (up levels : Nat) :
    (List.replicate levels Component.parent).foldl next ⟨up, []⟩ = ⟨up + levels, []⟩ := by
  induction levels generalizing up with
  | zero => rfl
  | succ levels ih =>
    rw [List.replicate_succ, List.foldl_cons, next, ih, Nat.add_right_comm, Nat.add_assoc]

theorem foldl_beyond {cs : List Component} {from_ down : List (List Char)}
    (h : cs.foldl next ⟨0, from_⟩ = ⟨0, down⟩) (up : Nat) (before : List (List Char)) :
    cs.foldl next ⟨up, from_ ++ before⟩ = ⟨up, down ++ before⟩ := by
  induction cs generalizing from_ with
  | nil =>
    cases h
    rfl
  | cons c cs ih =>
    rw [List.foldl_cons] at h ⊢
    cases from_ with
    | nil =>
      cases c with
      | parent =>
        have climbed := up_le_foldl ⟨1, []⟩ cs
        rw [show next ⟨0, []⟩ .parent = ⟨1, []⟩ from rfl] at h
        rw [h] at climbed
        cases climbed
      | name cs =>
        have further := ih h
        cases before <;> exact further
      | root => cases before <;> exact ih h
      | current => cases before <;> exact ih h
    | cons last below => cases c <;> exact ih h

def onto (w : Way) (bottom : List Component) : List Component :=
  w.down.map .name ++ (List.replicate w.up .parent).foldl step bottom

theorem step_onto (w : Way) (bottom : List Component) {c : Component} (noRoot : c ≠ .root) :
    step (w.onto bottom) c = (w.next c).onto bottom := by
  obtain ⟨up, _ | ⟨last, below⟩⟩ := w
  · cases c with
    | root => exact (noRoot rfl).elim
    | parent => rw [next, onto, onto, List.replicate_succ', List.foldl_append]; rfl
    | _ => rfl
  · cases c with
    | root => exact (noRoot rfl).elim
    | _ => rfl

theorem foldl_onto (w : Way) (bottom : List Component) {cs : List Component}
    (noRoot : .root ∉ cs) : cs.foldl step (w.onto bottom) = (cs.foldl next w).onto bottom := by
  induction cs generalizing w with
  | nil => rfl
  | cons c cs ih =>
    have other : c ≠ .root := fun same => noRoot (same ▸ List.mem_cons_self)
    rw [List.foldl_cons, List.foldl_cons, step_onto w bottom other]
    exact ih _ fun mem => noRoot (List.mem_cons_of_mem _ mem)

theorem foldl_step_parents (absolute : Bool) (levels : Nat) :
    (List.replicate levels .parent).foldl step (if absolute then [.root] else []) =
      List.replicate (levels % 2) .parent ++ if absolute then [.root] else [] := by
  induction levels using Nat.twoStepInduction with
  | zero => rfl
  | one => cases absolute <;> rfl
  | more levels ih _ =>
    rw [List.replicate_succ, List.replicate_succ, List.foldl_cons, List.foldl_cons,
      Nat.add_mod_right, ← ih]
    cases absolute <;> rfl

end Way

/-- Where a path leads from the place where it starts. -/
def way (p : Path) : Way := p.components.foldl Way.next ⟨0, []⟩

def anchor (p : Path) : List Component := if p.isAbsolute then [.root] else []

theorem components_eq (p : Path) : p.components = p.start ++ p.names.map Component.ofSegment := by
  rw [components, names, segments_filter]

theorem isAbsolute_of_start {p : Path} (other : p.start ≠ [.root]) : p.isAbsolute = false :=
  Bool.eq_false_iff.mpr (mt (isAbsolute_iff p).mp other)

theorem ofSegment_chars (segment : List Char) : (Component.ofSegment segment).chars = segment := by
  unfold Component.ofSegment
  split
  · rename_i same
    rw [same]
    rfl
  · rfl

theorem ofSegment_name {name : List Char} (goes : name ≠ ['.', '.']) :
    Component.ofSegment name = .name name := if_neg goes

theorem root_not_mem_names (p : Path) : .root ∉ p.names.map Component.ofSegment := by
  intro mem
  obtain ⟨segment, -, same⟩ := List.mem_map.mp mem
  exact (ofSegment_ne segment).1 same

/-- A segment that names an entry of a directory. -/
def IsName (segment : List Char) : Prop :=
  isIdle segment = false ∧ '/' ∉ segment ∧ segment ≠ ['.', '.']

instance (segment : List Char) : Decidable (IsName segment) :=
  inferInstanceAs (Decidable (_ ∧ _ ∧ _))

theorem isName_of_mem {p : Path} {name : List Char} (h : .name name ∈ p.components) :
    IsName name := by
  rw [components_eq] at h
  rcases List.mem_append.mp h with atStart | later
  · rcases start_eq p with start | start | start <;> rw [start] at atStart <;> simp at atStart
  · obtain ⟨segment, mem, same⟩ := List.mem_map.mp later
    rw [Component.ofSegment] at same
    split at same
    · cases same
    · cases same
      exact ⟨not_idle_of_mem_names mem, slash_not_mem_segment (List.mem_filter.mp mem).1, ‹_›⟩

theorem way_eq (p : Path) : p.way = (p.names.map Component.ofSegment).foldl Way.next ⟨0, []⟩ := by
  rw [way, components_eq, List.foldl_append]
  rcases start_eq p with start | start | start <;> rw [start] <;> rfl

theorem isName_of_mem_way {p : Path} {name : List Char} (h : name ∈ p.way.down) : IsName name :=
  isName_of_mem ((Way.mem_down_foldl h).resolve_left List.not_mem_nil)

theorem foldl_step_components (p : Path) :
    p.components.foldl step [] = p.way.onto p.anchor := by
  have noRoot := p.root_not_mem_names
  rw [components_eq, List.foldl_append, way_eq, anchor]
  rcases start_eq p with start | start | start
  · rw [start, isAbsolute_of_start (by simp [start])]
    exact Way.foldl_onto ⟨0, []⟩ [] noRoot
  · rw [start, (isAbsolute_iff p).mpr start]
    exact Way.foldl_onto ⟨0, []⟩ [.root] noRoot
  · rw [start, isAbsolute_of_start (by simp [start])]
    exact Way.foldl_onto ⟨0, []⟩ [] noRoot

theorem ofComponents_segments (segments : List (List Char)) :
    ofComponents (segments.map Component.ofSegment) = ⟨joinChars segments⟩ := by
  have texts : (segments.map Component.ofSegment).map Component.chars = segments := by
    simp [Function.comp_def, ofSegment_chars]
  have noRoot (rest : List Component) : segments.map Component.ofSegment ≠ .root :: rest := by
    intro same
    obtain ⟨segment, _, -, here, -⟩ := List.map_eq_cons_iff.mp same
    exact (ofSegment_ne segment).1 here
  rw [ofComponents.eq_2 _ noRoot, texts]

theorem ofComponents_root (segments : List (List Char)) :
    ofComponents (.root :: segments.map Component.ofSegment) = ⟨'/' :: joinChars segments⟩ := by
  have texts : (segments.map Component.ofSegment).map Component.chars = segments := by
    simp [Function.comp_def, ofSegment_chars]
  rw [ofComponents, texts]

/-- Segments that lead somewhere. -/
def Active (segments : List (List Char)) : Prop :=
  ∀ segment ∈ segments, isIdle segment = false ∧ '/' ∉ segment

theorem Active.filter {segments : List (List Char)} (active : Active segments) :
    (splitChars '/' (joinChars segments)).filter (fun s => !isIdle s) = segments := by
  cases segments with
  | nil => rfl
  | cons first rest =>
    rw [splitChars_joinChars (List.cons_ne_nil _ _) fun segment mem => (active segment mem).2]
    exact List.filter_eq_self.mpr fun segment mem => by rw [(active segment mem).1]; rfl

theorem Active.start {segments : List (List Char)} (active : Active segments) :
    start ⟨joinChars segments⟩ = [] := by
  cases segments with
  | nil => rfl
  | cons first rest =>
    have busy := (active first List.mem_cons_self).1
    rw [Path.start, Path.segments, splitChars_joinChars (List.cons_ne_nil _ _) fun segment mem =>
      (active segment mem).2]
    split
    · rename_i same
      cases same
      cases busy
    · rename_i same
      cases same
      cases busy
    · rfl

theorem components_ofComponents {absolute : Bool} {segments : List (List Char)}
    (active : Active segments) :
    (ofComponents ((if absolute then [.root] else []) ++
      segments.map Component.ofSegment)).components =
      (if absolute then [.root] else []) ++ segments.map Component.ofSegment := by
  rw [components_eq, names, Path.segments]
  cases absolute with
  | true =>
    have chars : ofComponents ([.root] ++ segments.map Component.ofSegment) =
        ⟨'/' :: joinChars segments⟩ := ofComponents_root segments
    rw [if_pos rfl, chars]
    have start : start ⟨'/' :: joinChars segments⟩ = [.root] := (isAbsolute_iff _).mp rfl
    have split : splitChars '/' ('/' :: joinChars segments) =
        [] :: splitChars '/' (joinChars segments) :=
      splitChars_append_slash _ List.not_mem_nil
    rw [start, split, List.filter_cons_of_neg (by simp [isIdle]), active.filter]
  | false =>
    rw [if_neg Bool.false_ne_true, List.nil_append, ofComponents_segments, active.filter,
      active.start, List.nil_append]

def climbing (levels : Nat) (names : List (List Char)) : List (List Char) :=
  List.replicate levels ['.', '.'] ++ names

section

variable {names : List (List Char)} (named : ∀ name ∈ names, IsName name) (levels : Nat)
include named

theorem active_climbing : Active (climbing levels names) := by
  intro segment mem
  rcases List.mem_append.mp mem with climbs | goes
  · rw [List.eq_of_mem_replicate climbs]
    decide
  · exact ⟨(named segment goes).1, (named segment goes).2.1⟩

theorem climbing_ofSegment : (climbing levels names).map Component.ofSegment =
    List.replicate levels .parent ++ names.map .name := by
  rw [climbing, List.map_append, List.map_replicate]
  congr 1
  exact List.map_congr_left fun name mem => ofSegment_name (named name mem).2.2

end

def descent (p : Path) : List (List Char) := p.way.down.reverse

theorem isName_of_mem_descent {p : Path} : ∀ name ∈ p.descent, IsName name :=
  fun _ mem => isName_of_mem_way (List.mem_reverse.mp mem)

theorem normalize_eq (p : Path) : p.normalize =
    ofComponents (p.anchor ++ (climbing (p.way.up % 2) p.descent).map Component.ofSegment) := by
  rw [normalize, foldl_step_components, Way.onto, anchor, Way.foldl_step_parents,
    climbing_ofSegment isName_of_mem_descent, descent]
  congr 1
  cases p.isAbsolute <;> simp [List.map_reverse]

theorem components_normalize (p : Path) : p.normalize.components =
    p.anchor ++ List.replicate (p.way.up % 2) .parent ++ p.descent.map .name := by
  rw [normalize_eq, anchor, components_ofComponents (active_climbing isName_of_mem_descent _),
    climbing_ofSegment isName_of_mem_descent, List.append_assoc]

/-- Paths have the same normal form when they start alike, lead down along the same names, and climb
numbers of levels that differ by an even one. -/
theorem normalize_congr {p q : Path} (root : p.isAbsolute = q.isAbsolute)
    (level : p.way.up % 2 = q.way.up % 2) (down : p.way.down = q.way.down) :
    p.normalize = q.normalize := by
  rw [normalize_eq, normalize_eq, anchor, anchor, root, level, descent, descent, down]

theorem way_normalize (p : Path) : p.normalize.way = ⟨p.way.up % 2, p.way.down⟩ := by
  have start : p.anchor.foldl Way.next ⟨0, []⟩ = ⟨0, []⟩ := by
    rw [anchor]
    cases p.isAbsolute <;> rfl
  rw [way, components_normalize, List.foldl_append, List.foldl_append, start, Way.foldl_parents,
    Way.foldl_names, descent, List.reverse_reverse, Nat.zero_add, List.append_nil]

theorem isAbsolute_iff_root_mem (p : Path) : p.isAbsolute ↔ .root ∈ p.components := by
  rw [isAbsolute_iff, components_eq, List.mem_append]
  rcases start_eq p with start | start | start <;> simp [start, p.root_not_mem_names]

theorem isAbsolute_normalize (p : Path) : p.normalize.isAbsolute = p.isAbsolute := by
  rw [Bool.eq_iff_iff, isAbsolute_iff_root_mem, components_normalize, anchor]
  cases p.isAbsolute <;> simp

theorem IsName.append {segment suffix : List Char} (h : IsName segment) (slashless : '/' ∉ suffix) :
    IsName (segment ++ suffix) := by
  obtain ⟨active, noSlash, notUp⟩ := h
  refine ⟨?_, fun slash => (List.mem_append.mp slash).elim noSlash slashless, ?_⟩ <;>
    rcases segment with _ | ⟨a, _ | ⟨b, rest⟩⟩ <;> simp_all [isIdle]

theorem components_name {segment : List Char} (h : IsName segment) :
    start ⟨segment⟩ = [] ∧ components ⟨segment⟩ = [.name segment] := by
  have active : Active [segment] := List.forall_mem_singleton.mpr ⟨h.1, h.2.1⟩
  have whole := @components_ofComponents false [segment] active
  rw [if_neg Bool.false_ne_true, List.nil_append, ofComponents_segments, List.map_singleton,
    ofSegment_name h.2.2] at whole
  exact ⟨active.start, whole⟩

theorem joinChars_concat (front : List (List Char)) (last suffix : List Char) :
    joinChars (front ++ [last]) ++ suffix = joinChars (front ++ [last ++ suffix]) := by
  induction front with
  | nil => rfl
  | cons first front ih =>
    have apart (last : List Char) : joinChars (first :: (front ++ [last])) =
        first ++ '/' :: joinChars (front ++ [last]) := by
      cases front <;> rfl
    rw [List.cons_append, List.cons_append, apart, apart, List.append_assoc, List.cons_append, ih]

theorem append_ofComponents (absolute : Bool) (front : List (List Char)) (last suffix : List Char) :
    (ofComponents ((if absolute then [.root] else []) ++
      (front ++ [last]).map Component.ofSegment)).append suffix =
      ofComponents ((if absolute then [.root] else []) ++
        (front ++ [last ++ suffix]).map Component.ofSegment) := by
  cases absolute with
  | true =>
    rw [if_pos rfl, List.singleton_append, List.singleton_append, ofComponents_root,
      ofComponents_root, append, List.cons_append, joinChars_concat]
  | false =>
    rw [if_neg Bool.false_ne_true, List.nil_append, List.nil_append, ofComponents_segments,
      ofComponents_segments, append, joinChars_concat]

theorem components_append_normalize {p : Path} {last suffix : List Char}
    {below : List (List Char)} (ends : p.way.down = last :: below) (slashless : '/' ∉ suffix) :
    (p.normalize.append suffix).components = p.anchor ++ List.replicate (p.way.up % 2) .parent ++
      (below.reverse ++ [last ++ suffix]).map .name := by
  have named (name : List Char) (mem : name ∈ last :: below) : IsName name :=
    isName_of_mem_way (ends ▸ mem)
  have longer : ∀ name ∈ below.reverse ++ [last ++ suffix], IsName name := by
    intro name mem
    rcases List.mem_append.mp mem with early | late
    · exact named name (List.mem_cons_of_mem _ (List.mem_reverse.mp early))
    · rw [List.mem_singleton.mp late]
      exact (named last List.mem_cons_self).append slashless
  rw [normalize_eq, descent, ends, List.reverse_cons, anchor, climbing, ← List.append_assoc,
    append_ofComponents, List.append_assoc, ← climbing,
    components_ofComponents (active_climbing longer _), climbing_ofSegment longer,
    List.append_assoc]

theorem splitChars_append (front back : List Char) :
    splitChars '/' (front ++ '/' :: back) = splitChars '/' front ++ splitChars '/' back := by
  induction front with
  | nil => exact splitChars_append_slash back List.not_mem_nil
  | cons c front ih =>
    rw [List.cons_append, splitChars, splitChars, ih]
    split
    · rfl
    · cases below : splitChars '/' front with
      | nil => exact (splitChars_ne_nil front below).elim
      | cons segment later => rfl

theorem segments_join (base : Path) {rest : Path} (relative : rest.isAbsolute = false) :
    ∃ front, (base.join rest).segments = front ++ rest.segments ∧
      (base.segments = front ∨ base.segments = front ++ [[]]) ∧
      (front = [] ↔ base.chars = []) := by
  rw [join, relative, if_neg Bool.false_ne_true]
  by_cases empty : base.chars = []
  · refine ⟨[], ?_, .inr ?_, iff_of_true rfl empty⟩
    · rw [if_pos (.inl empty), segments, segments, empty]
      rfl
    · rw [segments, empty]
      rfl
  · by_cases slash : base.chars.getLast? = some '/'
    · obtain ⟨before, whole⟩ := List.getLast?_eq_some_iff.mp slash
      refine ⟨splitChars '/' before, ?_, .inr ?_, iff_of_false (splitChars_ne_nil before) empty⟩
      · rw [if_pos (.inr slash), segments, segments, whole, List.append_assoc]
        exact splitChars_append before rest.chars
      · rw [segments, whole, splitChars_append]
        rfl
    · refine ⟨base.segments, ?_, .inl rfl, iff_of_false (splitChars_ne_nil base.chars) empty⟩
      rw [if_neg (not_or.mpr ⟨empty, slash⟩), segments, splitChars_append]
      rfl

section

variable (base : Path) {rest : Path} (relative : rest.isAbsolute = false)
include relative

theorem names_join : (base.join rest).names = base.names ++ rest.names := by
  obtain ⟨front, whole, own, -⟩ := base.segments_join relative
  rw [names, whole, List.filter_append]
  rcases own with same | same <;> rw [names, same]
  · rfl
  · rw [List.filter_append, List.filter_cons_of_neg (by simp [isIdle]), List.filter_nil,
      List.append_nil]
    rfl

theorem isAbsolute_join : (base.join rest).isAbsolute = base.isAbsolute := by
  have own := relative
  rw [join, relative, if_neg Bool.false_ne_true]
  unfold isAbsolute at own ⊢
  cases chars : base.chars with
  | nil => simpa using own
  | cons c more =>
    split <;> rfl

theorem way_join : (base.join rest).way =
    (rest.names.map Component.ofSegment).foldl Way.next base.way := by
  rw [way_eq, base.names_join relative, List.map_append, List.foldl_append, ← way_eq]

end

theorem normalize_join_normalize (base rest : Path) :
    (base.normalize.join rest).normalize = (base.join rest).normalize := by
  by_cases absolute : rest.isAbsolute
  · rw [join, if_pos absolute, join, if_pos absolute]
  · have relative : rest.isAbsolute = false := Bool.eq_false_iff.mpr absolute
    have goesOn (before : Nat) :=
      Way.foldl_add before ⟨0, base.way.down⟩ (rest.names.map Component.ofSegment)
    have way := (base.way_join relative).trans (goesOn base.way.up)
    have way' := base.normalize.way_join relative
    rw [way_normalize] at way'
    have way' := way'.trans (goesOn (base.way.up % 2))
    refine normalize_congr ?_ ?_ ?_
    · rw [isAbsolute_join _ relative, isAbsolute_join _ relative, isAbsolute_normalize]
    · rw [way, way', Nat.mod_add_mod]
    · rw [way, way']

theorem start_eq_current {p : Path} : p.start = [.current] ↔ p.segments.head? = some ['.'] := by
  unfold start
  split
  · rename_i same
    simp [same]
  · rename_i same
    simp [same]
  · rename_i other
    refine iff_of_false (List.cons_ne_nil _ _).symm fun dot => ?_
    obtain ⟨rest, same⟩ := List.head?_eq_some_iff.mp dot
    exact other rest same

theorem start_join (base : Path) {rest : Path} (plain : rest.start = []) :
    (base.join rest).start = base.start := by
  have relative : rest.isAbsolute = false := isAbsolute_of_start (by simp [plain])
  have absolute : (base.join rest).start = [.root] ↔ base.start = [.root] := by
    rw [← isAbsolute_iff, ← isAbsolute_iff, base.isAbsolute_join relative]
  have current : (base.join rest).start = [.current] ↔ base.start = [.current] := by
    obtain ⟨front, whole, own, empty⟩ := base.segments_join relative
    rw [start_eq_current, start_eq_current, whole]
    cases front with
    | nil =>
      -- nothing stands before the other path, and it does not start with a dot
      have noDot : rest.segments.head? ≠ some ['.'] := by
        rw [Ne, ← start_eq_current, plain]
        exact (List.cons_ne_nil _ _).symm
      refine iff_of_false noDot ?_
      rw [segments, empty.mp rfl]
      decide
    | cons first more => rcases own with same | same <;> rw [same] <;> rfl
  rcases start_eq (base.join rest) with whole | whole | whole
  · rcases start_eq base with own | own | own
    · rw [whole, own]
    · cases whole.symm.trans (absolute.mpr own)
    · cases whole.symm.trans (current.mpr own)
  · rw [whole, absolute.mp whole]
  · rw [whole, current.mp whole]

theorem components_join (base : Path) {rest : Path} (plain : rest.start = []) :
    (base.join rest).components = base.components ++ rest.components := by
  have relative : rest.isAbsolute = false := isAbsolute_of_start (by simp [plain])
  rw [components_eq, base.start_join plain, base.names_join relative, List.map_append,
    ← List.append_assoc, ← components_eq, components_eq rest, plain, List.nil_append]

/-- Components without a dot among them, and without a `..` that stands after a name. -/
structure Straight (cs : List Component) : Prop where
  current : .current ∉ cs
  parent : ∀ front name back, cs = front ++ .name name :: back → .parent ∉ back

theorem parent_not_mem_names (names : List (List Char)) :
    Component.parent ∉ names.map Component.name := by
  intro mem
  obtain ⟨_, -, same⟩ := List.mem_map.mp mem
  cases same

theorem straight_of_climbing (absolute : Bool) (levels : Nat) (names : List (List Char)) :
    Straight ((if absolute then [.root] else []) ++ List.replicate levels .parent ++
      names.map .name) := by
  have start : ∀ c ∈ (if absolute then [.root] else []) ++ List.replicate levels Component.parent,
      c = .root ∨ c = .parent := by
    intro c mem
    rcases List.mem_append.mp mem with root | climbs
    · cases absolute with
      | false => cases root
      | true => exact .inl (List.mem_singleton.mp root)
    · exact .inr (List.eq_of_mem_replicate climbs)
  constructor
  · intro mem
    rcases List.mem_append.mp mem with early | late
    · rcases start _ early with same | same <;> cases same
    · obtain ⟨_, -, same⟩ := List.mem_map.mp late
      cases same
  · intro front name back whole
    -- what stands after a name is part of the names at the end
    have inside : back ⊆ names.map .name := by
      rcases List.append_eq_append_iff.mp whole with
        ⟨between, -, below⟩ | ⟨_ | ⟨c, between⟩, above, below⟩
      · rw [below]
        exact List.subset_append_of_subset_right _ (List.subset_cons_self _ _)
      · rw [List.nil_append] at below
        rw [← below]
        exact List.subset_cons_self _ _
      · obtain ⟨rfl, -⟩ := List.cons.inj below
        have early := start (.name name) (above ▸ List.mem_append_right _ List.mem_cons_self)
        rcases early with same | same <;> cases same
    exact fun mem => parent_not_mem_names names (inside mem)

theorem normalize_normalize (p : Path) : p.normalize.normalize = p.normalize := by
  refine normalize_congr p.isAbsolute_normalize ?_ ?_
  · rw [way_normalize, Nat.mod_mod]
  · rw [way_normalize]

/-- A normal form is its own normal form, and it may stand for the path wherever something is joined to
that. It consists of the root of the path, of one `..` if the path climbs an odd number of levels, and
of the names that the path leads down along. -/
theorem normalize_laws (a b : Path) :
    a.normalize.normalize = a.normalize ∧
    (a.normalize.join b).normalize = (a.join b).normalize ∧
    Straight a.normalize.components ∧
    a.normalize.components =
      a.anchor ++ List.replicate (a.way.up % 2) .parent ++ a.descent.map .name := by
  refine ⟨a.normalize_normalize, a.normalize_join_normalize b, ?_, a.components_normalize⟩
  rw [components_normalize, anchor]
  exact straight_of_climbing a.isAbsolute _ _

end Path

end Bundler
