import Bundler.Proofs.Binding
import Bundler.Proofs.Script.Phases

/-! Calls by the place they have in a tree. The requires of a tree are those of all its places, and
an answer changes the call at its own place. -/

namespace Bundler.Script.Node

def at? (n : Node) : List Nat → Option Node
  | [] => some n
  | i :: below => n.parts[i]?.bind fun part => part.at? below

theorem requiresOf_eq (ns : List Node) : requiresOf ns = ns.flatMap requires := by
  induction ns with
  | nil => rfl
  | cons n rest ih => rw [requiresOf, ih, List.flatMap_cons]

theorem substituteParts_eq (target : String → Option ContentId) (ns : List Node) :
    substituteParts target ns = ns.map (substitute target) := by
  induction ns with
  | nil => rfl
  | cons n rest ih => rw [substituteParts, ih, List.map_cons]

theorem requires_of_call {n : Node} {specifier : String}
    (h : n.requireSpecifier? = some specifier) : n.requires = [specifier] := by
  obtain ⟨form, notes, parts⟩ := n
  rw [requires, h]

theorem requires_of_other {n : Node} (h : n.requireSpecifier? = none) :
    n.requires = n.parts.flatMap requires := by
  obtain ⟨form, notes, parts⟩ := n
  rw [requires, h, requiresOf_eq]

theorem substitute_of_call {n : Node} {specifier : String} (target : String → Option ContentId)
    (h : n.requireSpecifier? = some specifier) :
    n.substitute target = answered (target specifier) n := by
  obtain ⟨form, notes, parts⟩ := n
  rw [substitute, h]

theorem substitute_of_other {n : Node} (target : String → Option ContentId)
    (h : n.requireSpecifier? = none) :
    n.substitute target = ⟨n.form, n.notes, n.parts.map (substitute target)⟩ := by
  obtain ⟨form, notes, parts⟩ := n
  rw [substitute, h, substituteParts_eq]

theorem requireSpecifier?_below {n call : Node} {i : Nat} {below : List Nat} {specifier : String}
    (h : n.requireSpecifier? = some specifier) (found : n.at? (i :: below) = some call) :
    call.requireSpecifier? = none := by
  obtain ⟨part, there, found⟩ := Option.bind_eq_some_iff.mp found
  have leaf := requireSpecifier?_part h (List.mem_of_getElem? there)
  cases below with
  | nil =>
    cases found
    exact leaf.2
  | cons j below =>
    rw [at?, leaf.1] at found
    cases found

theorem mem_requires_iff {n : Node} {specifier : String} :
    specifier ∈ n.requires ↔
      ∃ position call, n.at? position = some call ∧ call.requireSpecifier? = some specifier := by
  induction n using Node.ind with
  | step form notes parts ih =>
    cases one : requireSpecifier? ⟨form, notes, parts⟩ with
    | some own =>
      rw [requires_of_call one, List.mem_singleton]
      constructor
      · rintro rfl
        exact ⟨[], _, rfl, one⟩
      · rintro ⟨position, call, found, requires⟩
        -- there is no call inside one that requires
        cases position with
        | nil =>
          cases found
          exact Option.some.inj (requires.symm.trans one)
        | cons i below =>
          rw [requireSpecifier?_below one found] at requires
          cases requires
    | none =>
      rw [requires_of_other one, List.mem_flatMap]
      constructor
      · rintro ⟨part, mem, inPart⟩
        obtain ⟨position, call, found, requires⟩ := (ih part mem).mp inPart
        obtain ⟨i, there⟩ := List.mem_iff_getElem?.mp mem
        exact ⟨i :: position, call, Option.bind_eq_some_iff.mpr ⟨part, there, found⟩, requires⟩
      · rintro ⟨position, call, found, requires⟩
        cases position with
        | nil =>
          cases found
          rw [one] at requires
          cases requires
        | cons i below =>
          obtain ⟨part, there, found⟩ := Option.bind_eq_some_iff.mp found
          have mem := List.mem_of_getElem? there
          exact ⟨part, mem, (ih part mem).mpr ⟨below, call, found, requires⟩⟩

theorem at?_part {n call : Node} {i : Nat} {below : List Nat} {specifier : String}
    (found : n.at? (i :: below) = some call) (h : call.requireSpecifier? = some specifier) :
    n.requireSpecifier? = none ∧ ∃ part, n.parts[i]? = some part ∧ part.at? below = some call := by
  refine ⟨?_, Option.bind_eq_some_iff.mp found⟩
  cases one : n.requireSpecifier? with
  | none => rfl
  | some own =>
    rw [requireSpecifier?_below one found] at h
    cases h

theorem at?_substitute {n call : Node} {position : List Nat} {specifier : String}
    (target : String → Option ContentId) (found : n.at? position = some call)
    (h : call.requireSpecifier? = some specifier) :
    (n.substitute target).at? position = some (answered (target specifier) call) := by
  induction position generalizing n with
  | nil =>
    cases found
    rw [substitute_of_call target h, at?]
  | cons i below ih =>
    obtain ⟨other, part, there, inside⟩ := at?_part found h
    rw [substitute_of_other target other, at?, List.getElem?_map, there]
    exact ih inside

mutual

theorem fill_suffix (n : Node) (answers : List (Option ContentId)) :
    (n.fill answers).2 <:+ answers := by
  obtain ⟨form, notes, parts⟩ := n
  rw [fill]
  cases requireSpecifier? ⟨form, notes, parts⟩ with
  | some specifier => exact List.tail_suffix answers
  | none => exact fillParts_suffix parts answers

theorem fillParts_suffix (ns : List Node) (answers : List (Option ContentId)) :
    (fillParts ns answers).2 <:+ answers := by
  match ns with
  | [] => exact List.suffix_rfl
  | n :: rest => exact (fillParts_suffix rest _).trans (fill_suffix n answers)

end

theorem fillParts_getElem? {ns : List Node} {n : Node} {i : Nat} (h : ns[i]? = some n)
    (answers : List (Option ContentId)) :
    ∃ rest, rest <:+ answers ∧ (fillParts ns answers).1[i]? = some (n.fill rest).1 := by
  induction ns generalizing i answers with
  | nil => cases h
  | cons first later ih =>
    cases i with
    | zero =>
      cases h
      exact ⟨answers, List.suffix_rfl, rfl⟩
    | succ i =>
      obtain ⟨rest, suffix, there⟩ := ih h (first.fill answers).2
      exact ⟨rest, suffix.trans (fill_suffix first answers), there⟩

theorem at?_fill {n call : Node} {position : List Nat} {specifier : String}
    (answers : List (Option ContentId)) (found : n.at? position = some call)
    (h : call.requireSpecifier? = some specifier) : ∃ rest, rest <:+ answers ∧
      (n.fill answers).1.at? position = some (answered rest.head?.join call) := by
  induction position generalizing n answers with
  | nil =>
    cases found
    obtain ⟨form, notes, parts⟩ := call
    exact ⟨answers, List.suffix_rfl, by rw [fill, h, at?]⟩
  | cons i below ih =>
    obtain ⟨other, part, there, inside⟩ := at?_part found h
    obtain ⟨form, notes, parts⟩ := n
    obtain ⟨mine, suffix, filled⟩ := fillParts_getElem? there answers
    obtain ⟨rest, later, same⟩ := ih mine inside
    refine ⟨rest, later.trans suffix, ?_⟩
    rw [fill, other]
    exact Option.bind_eq_some_iff.mpr ⟨_, filled, same⟩

theorem answered_form (target : Option ContentId) (n : Node) :
    (answered target n).form = n.form := by
  cases target with
  | none => rfl
  | some id => unfold answered bindTo; dsimp only; split <;> rfl

theorem substitute_form (target : String → Option ContentId) (n : Node) :
    (n.substitute target).form = n.form := by
  cases one : n.requireSpecifier? with
  | some specifier => rw [substitute_of_call target one, answered_form]
  | none => rw [substitute_of_other target one]

theorem eq_leaf_of_substitute {target : String → Option ContentId} {n : Node} {form : Form}
    {notes : List Comment} (noCall : ∀ isOptional closing, form ≠ .call isOptional closing)
    (h : n.substitute target = ⟨form, notes, []⟩) : n = ⟨form, notes, []⟩ := by
  have same : n.form = form := by rw [← substitute_form target, h]
  cases one : n.requireSpecifier? with
  | some specifier =>
    obtain ⟨isOptional, closing, isCall⟩ := requireSpecifier?_form one
    exact (noCall isOptional closing (same.symm.trans isCall)).elim
  | none =>
    obtain ⟨ownForm, ownNotes, parts⟩ := n
    rw [substitute_of_other target one, Node.mk.injEq] at h
    obtain ⟨rfl, rfl, noParts⟩ := h
    have empty : parts = [] := List.map_eq_nil_iff.mp noParts
    rw [empty]

theorem requireSpecifier?_substitute (target : String → Option ContentId) {n : Node}
    (h : n.requireSpecifier? = none) : (n.substitute target).requireSpecifier? = none := by
  refine Option.eq_none_iff_forall_ne_some.mpr fun specifier requires => ?_
  obtain ⟨isOptional, closing, notes, _, _, _, same⟩ := requireSpecifier?_eq_some.mp requires
  rw [substitute_of_other target h, Node.mk.injEq] at same
  obtain ⟨form, ownNotes, parts⟩ := n
  obtain ⟨rfl, rfl, below⟩ := same
  obtain ⟨callee, _, rfl, first, below⟩ := List.map_eq_cons_iff.mp below
  obtain ⟨text, _, rfl, second, below⟩ := List.map_eq_cons_iff.mp below
  rw [eq_leaf_of_substitute (by simp) first, eq_leaf_of_substitute (by simp) second,
    List.map_eq_nil_iff.mp below] at h
  cases h

theorem bindTo_of_call {n : Node} {specifier : String} (id : ContentId)
    (h : n.requireSpecifier? = some specifier) :
    ∃ calleeNotes,
      n.bindTo id = ⟨n.form, n.notes, [⟨.identifier id.binding, calleeNotes, []⟩]⟩ := by
  obtain ⟨_, _, _, calleeNotes, _, _, rfl⟩ := requireSpecifier?_eq_some.mp h
  exact ⟨calleeNotes, bindTo_require id⟩

theorem answered_injective {n : Node} {specifier : String} {target : Option ContentId}
    {id : ContentId} (h : n.requireSpecifier? = some specifier)
    (same : answered target n = n.bindTo id) : target = some id := by
  obtain ⟨calleeNotes, bound⟩ := bindTo_of_call id h
  rw [bound] at same
  cases target with
  | none =>
    obtain ⟨_, _, _, _, _, _, rfl⟩ := requireSpecifier?_eq_some.mp h
    cases congrArg (List.length ∘ parts) same
  | some other =>
    obtain ⟨_, boundOther⟩ := bindTo_of_call other h
    rw [answered, boundOther] at same
    injection same with _ _ parts
    injection parts with callee _
    injection callee with form _ _
    injection form with binding
    exact congrArg some (ContentId.binding_injective binding)

theorem mem_of_bound {n call : Node} {position : List Nat} {specifier : String} {id : ContentId}
    {answers : List (Option ContentId)} (found : n.at? position = some call)
    (h : call.requireSpecifier? = some specifier)
    (bound : (n.fill answers).1.at? position = some (call.bindTo id)) : some id ∈ answers := by
  obtain ⟨rest, suffix, there⟩ := at?_fill answers found h
  have own := answered_injective h (Option.some.inj (there.symm.trans bound))
  have first := Option.join_eq_some_iff.mp own
  exact suffix.subset (List.mem_of_mem_head? first)

theorem requires_bindTo {n : Node} {specifier : String} (id : ContentId)
    (h : n.requireSpecifier? = some specifier) : (n.bindTo id).requires = [] := by
  obtain ⟨isOptional, closing, isCall⟩ := requireSpecifier?_form h
  obtain ⟨calleeNotes, same⟩ := bindTo_of_call id h
  rw [same, isCall]
  rfl

theorem mem_requires_substitute {target : String → Option ContentId} {n : Node} {specifier : String}
    (h : specifier ∈ (n.substitute target).requires) :
    specifier ∈ n.requires ∧ target specifier = none := by
  induction n using Node.ind with
  | step form notes parts ih =>
    cases one : requireSpecifier? ⟨form, notes, parts⟩ with
    | some own =>
      rw [substitute_of_call target one] at h
      cases left : target own with
      | some id =>
        rw [left, answered, requires_bindTo id one] at h
        cases h
      | none =>
        rw [left, answered, requires_of_call one, List.mem_singleton] at h
        subst h
        exact ⟨by rw [requires_of_call one]; exact List.mem_singleton.mpr rfl, left⟩
    | none =>
      have other := requireSpecifier?_substitute target one
      rw [requires_of_other other, substitute_of_other target one, List.mem_flatMap] at h
      obtain ⟨_, image, inPart⟩ := h
      obtain ⟨part, mem, rfl⟩ := List.mem_map.mp image
      obtain ⟨required, left⟩ := ih part mem inPart
      exact ⟨by rw [requires_of_other one]; exact List.mem_flatMap.mpr ⟨part, mem, required⟩, left⟩

end Bundler.Script.Node
