import Bundler.Proofs.Lookup
import Mathlib.Data.List.DropRight

/-! The names in a path. Those of the path before the last name are all but that name, and both paths
start in the same place. -/

namespace Bundler

namespace Path

def names (p : Path) : List (List Char) := p.segments.filter fun s => !isIdle s

theorem not_idle_of_mem_names {p : Path} {name : List Char} (mem : name ∈ p.names) :
    isIdle name = false := by
  simpa using (List.mem_filter.mp mem).2

theorem slash_not_mem_segment {chars segment : List Char} (mem : segment ∈ splitChars '/' chars) :
    '/' ∉ segment := by
  induction chars generalizing segment with
  | nil =>
    rw [splitChars, List.mem_singleton] at mem
    rw [mem]
    exact List.not_mem_nil
  | cons c rest ih =>
    rw [splitChars] at mem
    split at mem
    · rcases List.mem_cons.mp mem with rfl | later
      · exact List.not_mem_nil
      · exact ih later
    · rename_i other
      cases below : splitChars '/' rest with
      | nil => exact (splitChars_ne_nil rest below).elim
      | cons first later =>
        rw [below] at mem ih
        rcases List.mem_cons.mp mem with rfl | there
        · intro slash
          rcases List.mem_cons.mp slash with same | inFirst
          · exact other same.symm
          · exact ih List.mem_cons_self inFirst
        · exact ih (List.mem_cons_of_mem _ there)

theorem splitChars_append_slash {segment : List Char} (rest : List Char) (h : '/' ∉ segment) :
    splitChars '/' (segment ++ '/' :: rest) = segment :: splitChars '/' rest := by
  induction segment with
  | nil => rw [List.nil_append, splitChars, if_pos rfl]
  | cons c segment ih =>
    have other : c ≠ '/' := (List.ne_of_not_mem_cons h).symm
    rw [List.cons_append, splitChars, if_neg other, ih (List.not_mem_of_not_mem_cons h)]

theorem splitChars_of_not_mem {segment : List Char} (h : '/' ∉ segment) :
    splitChars '/' segment = [segment] := by
  induction segment with
  | nil => rfl
  | cons c segment ih =>
    have other : c ≠ '/' := (List.ne_of_not_mem_cons h).symm
    rw [splitChars, if_neg other, ih (List.not_mem_of_not_mem_cons h)]

theorem splitChars_joinChars {segments : List (List Char)} (nonempty : segments ≠ [])
    (h : ∀ segment ∈ segments, '/' ∉ segment) :
    splitChars '/' (joinChars segments) = segments := by
  induction segments with
  | nil => exact (nonempty rfl).elim
  | cons segment rest ih =>
    obtain ⟨first, later⟩ := List.forall_mem_cons.mp h
    cases rest with
    | nil => exact splitChars_of_not_mem first
    | cons next rest =>
      show splitChars '/' (segment ++ '/' :: joinChars (next :: rest)) = _
      rw [splitChars_append_slash _ first, ih (List.cons_ne_nil _ _) later]

theorem getLast?_of_split {chars : List Char} {front : List (List Char)}
    (h : splitChars '/' chars = front ++ [[]]) : chars = [] ∨ chars.getLast? = some '/' := by
  induction chars generalizing front with
  | nil => exact .inl rfl
  | cons c rest ih =>
    -- the empty last segment is that of the rest, or the rest is empty and a slash stands before it
    have ends {later : List (List Char)} (below : splitChars '/' rest = later ++ [[]])
        (alone : rest = [] → c = '/') : (c :: rest).getLast? = some '/' := by
      rcases ih below with rfl | last
      · rw [alone rfl, List.getLast?_singleton]
      · rw [List.getLast?_cons, last, Option.getD_some]
    right
    rw [splitChars] at h
    split at h
    · rename_i slash
      cases front with
      | nil => exact (splitChars_ne_nil rest (List.cons.inj h).2).elim
      | cons first front => exact ends (List.cons.inj h).2 fun _ => slash
    · cases below : splitChars '/' rest with
      | nil => exact (splitChars_ne_nil rest below).elim
      | cons segment later =>
        rw [below] at h
        cases front with
        | nil => cases (List.cons.inj h).1
        | cons first front =>
          obtain ⟨-, same⟩ := List.cons.inj h
          have last : splitChars '/' rest = (segment :: front) ++ [[]] := by
            rw [below, same]
            rfl
          refine ends last fun alone => ?_
          rw [alone, splitChars] at below
          obtain ⟨-, none⟩ := List.cons.inj below
          rw [← none] at same
          exact (List.concat_ne_nil _ _ same.symm).elim

theorem not_idle_last {p : Path} {front : List (List Char)} {last : List Char}
    (ends : p.segments = front ++ [last]) (nonempty : p.isEmpty = false)
    (noDot : p.endsInDot = false) (noSlash : p.chars.getLast? ≠ some '/') :
    isIdle last = false := by
  refine Bool.eq_false_iff.mpr fun idle => ?_
  rw [isIdle, Bool.or_eq_true, beq_iff_eq, beq_iff_eq] at idle
  rcases idle with rfl | rfl
  · rcases getLast?_of_split ends with empty | slash
    · rw [isEmpty, empty] at nonempty
      cases nonempty
    · exact noSlash slash
  · rw [endsInDot, ends, List.reverse_append] at noDot
    cases noDot

theorem filter_trimEnd (segments : List (List Char)) :
    (trimEnd segments).filter (fun s => !isIdle s) = segments.filter fun s => !isIdle s := by
  show (segments.rdropWhile isIdle).filter _ = _
  induction segments using List.reverseRecOn with
  | nil => rfl
  | append_singleton segments last ih =>
    by_cases idle : isIdle last
    · rw [List.rdropWhile_concat_pos _ _ _ idle, ih, List.filter_append,
        List.filter_cons_of_neg (by simp [idle]), List.filter_nil, List.append_nil]
    · rw [List.rdropWhile_concat_neg _ _ _ idle]

theorem prefix_trimEnd (segments : List (List Char)) : trimEnd segments <+: segments :=
  List.rdropWhile_prefix isIdle segments

theorem trail_suffix (p : Path) : p.trail <:+ p.segments := by
  unfold trail
  split
  · rename_i h
    rw [h]
    exact List.suffix_cons _ _
  · rename_i h
    rw [h]
    exact List.suffix_cons _ _
  · exact List.suffix_rfl

theorem trail_of_start_nil {p : Path} (h : p.start = []) : p.trail = p.segments := by
  rw [start] at h
  rw [trail]
  generalize p.segments = segments at h ⊢
  split at h
  · cases h
  · cases h
  · rename_i noRoot noDot
    split
    · exact (noRoot _ _ rfl).elim
    · exact (noDot _ rfl).elim
    · rfl

theorem names_withTrail (p : Path) {trail : List (List Char)}
    (h : ∀ segment ∈ trail, '/' ∉ segment) :
    (p.withTrail trail).names = trail.filter fun s => !isIdle s := by
  have joined : (splitChars '/' (joinChars trail)).filter (fun s => !isIdle s) =
      trail.filter fun s => !isIdle s := by
    cases trail with
    | nil => rfl
    | cons first rest => rw [splitChars_joinChars (List.cons_ne_nil _ _) h]
  unfold withTrail names segments
  split
  · rw [← joined]
    rfl
  · split
    · rename_i empty
      rw [empty]
      rfl
    · rw [← joined]
      rfl
  · exact joined

theorem isAbsolute_withTrail {p : Path} {trail : List (List Char)} (below : trail <+: p.trail)
    (nonempty : (p.withTrail trail).isEmpty = false) :
    (p.withTrail trail).isAbsolute = p.isAbsolute := by
  have slashless (segment : List Char) (mem : segment ∈ trail) : '/' ∉ segment :=
    slash_not_mem_segment (p.trail_suffix.subset (below.subset mem))
  rw [Bool.eq_iff_iff, isAbsolute_iff p]
  rcases start_eq p with start | start | start
  · -- a relative trail could begin with a separator only if the whole path did
    rw [start]
    refine iff_of_false (fun absolute => ?_) nofun
    rw [withTrail, start] at absolute nonempty
    rw [isAbsolute_iff] at absolute
    cases trail with
    | nil => cases nonempty
    | cons first rest =>
      obtain ⟨more, whole⟩ := below
      rw [trail_of_start_nil start] at whole
      rw [Path.start, segments, splitChars_joinChars (List.cons_ne_nil _ _) slashless] at absolute
      split at absolute
      · rename_i same
        rw [same] at whole
        rw [Path.start, ← whole] at start
        cases start
      · cases absolute
      · cases absolute
  · rw [start, withTrail, start]
    exact iff_of_true rfl rfl
  · rw [start, withTrail, start]
    refine iff_of_false ?_ nofun
    dsimp only
    split <;> exact nofun

theorem isAbsolute_of_empty_withTrail {p : Path} {trail : List (List Char)}
    (h : (p.withTrail trail).isEmpty) : p.isAbsolute = false := by
  refine Bool.eq_false_iff.mpr fun absolute => ?_
  rw [withTrail, (isAbsolute_iff p).mp absolute] at h
  cases h

theorem names_of_fileName {p : Path} {name : List Char} (h : p.fileName? = some name) :
    ∃ front, p.names = front ++ [name] ∧ name ≠ ['.', '.'] := by
  unfold fileName? at h
  split at h
  · rename_i last
    cases h
    rw [components, ← segments_filter] at last
    change (p.start ++ p.names.map Component.ofSegment).getLast? = _ at last
    rcases List.eq_nil_or_concat p.names with alone | ⟨front, segment, ends⟩
    · rw [alone] at last
      rcases start_eq p with start | start | start <;> rw [start] at last <;> cases last
    · rw [ends, List.concat_eq_append, List.map_append, ← List.append_assoc] at last
      have named := Option.some.inj (List.getLast?_concat.symm.trans last)
      rw [Component.ofSegment] at named
      split at named
      · cases named
      · cases named
        exact ⟨front, by rw [ends, List.concat_eq_append], ‹_›⟩
  · cases h

theorem parent_of_names {p parent : Path} {front : List (List Char)} {name : List Char}
    (named : p.names = front ++ [name]) (h : p.parent? = some parent) :
    ∃ trail, trail <+: p.trail ∧ parent = p.withTrail trail ∧ parent.names = front := by
  have kept : (trimEnd p.trail).filter (fun s => !isIdle s) = front ++ [name] := by
    rw [filter_trimEnd, ← segments_filter]
    exact named
  rcases List.eq_nil_or_concat (trimEnd p.trail) with idle | ⟨init, last, ends⟩
  · rw [idle] at kept
    exact (List.concat_ne_nil _ _ kept.symm).elim
  · rw [List.concat_eq_append] at ends
    have nonempty : trimEnd p.trail ≠ [] := by
      rw [ends]
      exact List.concat_ne_nil _ _
    have active : ¬ isIdle last := by
      have active : ¬ isIdle ((trimEnd p.trail).getLast nonempty) :=
        List.rdropWhile_last_not isIdle p.trail nonempty
      simpa only [ends, List.getLast_concat] using active
    have below : trimEnd init <+: p.trail := by
      have inside : init <+: trimEnd p.trail := by
        rw [ends]
        exact List.prefix_append _ _
      exact (prefix_trimEnd init).trans (inside.trans (prefix_trimEnd p.trail))
    have slashless (segment : List Char) (mem : segment ∈ trimEnd init) : '/' ∉ segment :=
      slash_not_mem_segment (p.trail_suffix.subset (below.subset mem))
    rw [parent?, if_neg nonempty, ends, List.dropLast_concat] at h
    rw [ends, List.filter_append, List.filter_cons_of_pos (by simp [active])] at kept
    have same := (List.append_inj' kept rfl).1
    cases h
    refine ⟨trimEnd init, below, rfl, ?_⟩
    rw [names_withTrail p slashless, filter_trimEnd, same]

end Path

end Bundler
