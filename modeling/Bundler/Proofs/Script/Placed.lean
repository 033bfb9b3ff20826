import Bundler.Require
import Bundler.Script.Pattern

/-! Where statements stand in a tree. An `if` is a statement, so it is a part of a node only where the
form of the node has statements. What is read as an expression and taken again as a pattern keeps its
parts, so nothing changes for them. -/

namespace Bundler.Script

@[grind]
def Form.isStatementAt : Form → Nat → Bool
  | .program _ _, _ | .body _, _ | .block, _ | .staticBlock, _ | .labeled _, _ => true
  | .ifElse, i | .case, i | .whileLoop, i | .withScope, i => 1 ≤ i
  | .forIn, i | .forOf _, i => 2 ≤ i
  | .forLoop, i => 3 ≤ i
  | .doLoop, i => i = 0
  | _, _ => false

namespace Node

/-- An `if` stands in the tree only where a statement does. -/
inductive Placed : Node → Prop where
  | mk {form : Form} {notes : List Comment} {parts : List Node}
      (own : ∀ i part, parts[i]? = some part → part.form = .ifElse → form.isStatementAt i)
      (below : ∀ part ∈ parts, Placed part) : Placed ⟨form, notes, parts⟩

structure Plain (n : Node) : Prop where
  placed : n.Placed
  form : n.form ≠ .ifElse

attribute [grind →] Plain.placed

theorem isStatementAt_inner {form : Form} (h : form.slot = .inner) (i : Nat) :
    form.isStatementAt i = false := by
  cases form <;> first | rfl | cases h

@[grind .]
theorem bindingProperty_ne (isComputed isShorthand : Bool) (key value : Node) :
    bindingProperty isComputed isShorthand key value ≠ .ifElse := by
  unfold bindingProperty
  split <;> nofun

section

variable {form : Form} {notes : List Comment} {parts : List Node}

theorem plain_mk (noIf : form ≠ .ifElse) (each : ∀ part ∈ parts, part.Plain) :
    Plain ⟨form, notes, parts⟩ := by
  refine ⟨.mk (fun i part there isIf => ?_) fun part mem => (each part mem).placed, noIf⟩
  exact ((each part (List.mem_of_getElem? there)).form isIf).elim

variable {part left right : Node}

theorem plain_single (noIf : form ≠ .ifElse) (plain : part.Plain) : Plain ⟨form, notes, [part]⟩ :=
  plain_mk noIf (List.forall_mem_singleton.mpr plain)

theorem plain_pair (noIf : form ≠ .ifElse) (first : left.Plain) (second : right.Plain) :
    Plain ⟨form, notes, [left, right]⟩ :=
  plain_mk noIf (List.forall_mem_cons.mpr ⟨first, List.forall_mem_singleton.mpr second⟩)

theorem Plain.below {n : Node} (h : n.Plain) (inner : n.form.slot = .inner) :
    ∀ part ∈ n.parts, part.Plain := by
  obtain ⟨⟨own, below⟩, -⟩ := h
  intro part mem
  refine ⟨below part mem, fun isIf => ?_⟩
  obtain ⟨i, there⟩ := List.mem_iff_getElem?.mp mem
  have statement := own i part there isIf
  rw [isStatementAt_inner inner] at statement
  cases statement

theorem Plain.single (h : Plain ⟨form, notes, [part]⟩) (inner : form.slot = .inner) : part.Plain :=
  h.below inner part (List.mem_singleton_self part)

theorem Plain.pair (h : Plain ⟨form, notes, [left, right]⟩) (inner : form.slot = .inner) :
    left.Plain ∧ right.Plain :=
  ⟨h.below inner left (by simp), h.below inner right (by simp)⟩

@[grind ←]
theorem plain_of (noIf : form ≠ .ifElse) (each : ∀ part ∈ parts, part.Plain) :
    (Node.of form parts).Plain :=
  plain_mk noIf each

theorem plain_alone (each : ∀ part ∈ parts, part.Plain) (one : parts = [part])
    (noIf : form ≠ .ifElse) : (Node.of form [part]).Plain := by
  subst one
  exact plain_of noIf each

@[grind ←]
theorem plain_leaf (noIf : form ≠ .ifElse) : (leaf form).Plain := plain_mk noIf nofun

@[grind ←]
theorem placed_of (noIf : form ≠ .ifElse) (each : ∀ part ∈ parts, part.Plain) :
    (Node.of form parts).Placed :=
  (plain_of noIf each).placed

@[grind ←]
theorem placed_leaf (noIf : form ≠ .ifElse) : (leaf form).Placed := (plain_leaf noIf).placed

@[grind .]
theorem plain_absent : absent.Plain := plain_leaf nofun

theorem placed_append {inner statements : List Node} (plain : ∀ n ∈ inner, n.Plain)
    (placed : ∀ n ∈ statements, n.Placed) (h : ∀ i, inner.length ≤ i → form.isStatementAt i) :
    (Node.of form (inner ++ statements)).Placed := by
  refine .mk (fun i part there isIf => ?_) fun part mem => ?_
  · by_cases early : i < inner.length
    · rw [List.getElem?_append_left early] at there
      exact ((plain part (List.mem_of_getElem? there)).form isIf).elim
    · exact h i (Nat.le_of_not_lt early)
  · rcases List.mem_append.mp mem with mem | mem
    · exact (plain part mem).placed
    · exact placed part mem

theorem plain_list (placed : ∀ n ∈ parts, n.Placed) (noIf : form ≠ .ifElse)
    (h : ∀ i, form.isStatementAt i) : (Node.of form parts).Plain :=
  ⟨placed_append (List.forall_mem_nil _) placed fun i _ => h i, noIf⟩

@[grind ←]
theorem placed_labeled {label : String} {body : Node} (placed : body.Placed) :
    (Node.of (.labeled label) [body]).Placed :=
  placed_append (List.forall_mem_nil _) (List.forall_mem_singleton.mpr placed) fun _ _ => rfl

variable {test other step consequent alternate : Node}

@[grind ←]
theorem placed_ifElse (plain : test.Plain) (first : consequent.Placed) (second : alternate.Placed) :
    (Node.of .ifElse [test, consequent, alternate]).Placed :=
  placed_append (List.forall_mem_singleton.mpr plain) (by simp [first, second]) fun _ h => by
    simpa [Form.isStatementAt] using h

@[grind ←]
theorem placed_second (plain : test.Plain) (body : consequent.Placed)
    (h : ∀ i, 1 ≤ i → form.isStatementAt i) : (Node.of form [test, consequent]).Placed :=
  placed_append (List.forall_mem_singleton.mpr plain) (List.forall_mem_singleton.mpr body) h

@[grind ←]
theorem placed_third (left : test.Plain) (right : other.Plain) (body : consequent.Placed)
    (h : ∀ i, 2 ≤ i → form.isStatementAt i) : (Node.of form [test, other, consequent]).Placed :=
  placed_append (List.forall_mem_cons.mpr ⟨left, List.forall_mem_singleton.mpr right⟩)
    (List.forall_mem_singleton.mpr body) h

@[grind ←]
theorem placed_forLoop (start : test.Plain) (check : other.Plain) (update : step.Plain)
    (body : consequent.Placed) : (Node.of .forLoop [test, other, step, consequent]).Placed :=
  placed_append (List.forall_mem_cons.mpr ⟨start, List.forall_mem_cons.mpr
    ⟨check, List.forall_mem_singleton.mpr update⟩⟩) (List.forall_mem_singleton.mpr body)
    (by simp [Form.isStatementAt])

@[grind ←]
theorem placed_doLoop (body : consequent.Placed) (plain : test.Plain) :
    (Node.of .doLoop [consequent, test]).Placed := by
  refine .mk (fun i part there isIf => ?_) (by simp [body, plain.placed])
  match i with
  | 0 => rfl
  | 1 =>
    cases there
    exact (plain.form isIf).elim

@[grind ←]
theorem placed_case (plain : test.Plain) (placed : ∀ n ∈ parts, n.Placed) :
    (Node.of .case (test :: parts)).Placed :=
  placed_append (List.forall_mem_singleton.mpr plain) placed (by simp [Form.isStatementAt])

end

@[grind ←]
theorem Plain.followed {n : Node} (h : n.Plain) : n.followed.Plain := by
  unfold Node.followed
  split
  · exact plain_mk nofun (h.below rfl)
  · exact h

@[grind =]
theorem placed_withNotes {n : Node} {notes : List Comment} :
    (n.withNotes notes).Placed ↔ n.Placed := by
  obtain ⟨form, ownNotes, parts⟩ := n
  constructor
  · rintro ⟨own, below⟩
    exact .mk own below
  · rintro ⟨own, below⟩
    exact .mk own below

@[grind =]
theorem plain_withNotes {n : Node} {notes : List Comment} :
    (n.withNotes notes).Plain ↔ n.Plain :=
  ⟨fun h => ⟨placed_withNotes.mp h.placed, h.form⟩,
    fun h => ⟨placed_withNotes.mpr h.placed, h.form⟩⟩

theorem Plain.simpleTarget? {n p : Node} (h : n.Plain) (same : n.simpleTarget? = some p) :
    p.Plain := by
  fun_induction Node.simpleTarget? n generalizing p with
  | case1 notes inner ih =>
    obtain ⟨target, found, rfl⟩ := Option.map_eq_some_iff.mp same
    exact plain_single nofun (ih (h.single rfl) found)
  | case2 | case3 | case4 =>
    cases same
    exact h
  | case5 => cases same

theorem plain_taken {first : Option Node} {later : Option (List Node)} {taken : List Node}
    (own : ∀ p, first = some p → p.Plain) (rest : ∀ ps, later = some ps → ∀ p ∈ ps, p.Plain)
    (same : (do return (← first) :: (← later)) = some taken) : ∀ p ∈ taken, p.Plain := by
  simp only [Option.bind_eq_bind, Option.bind_eq_some_iff, Option.pure_def, Option.some.injEq] at same
  obtain ⟨p, found, ps, others, rfl⟩ := same
  exact List.forall_mem_cons.mpr ⟨own p found, rest ps others⟩

theorem plain_targets :
    (∀ isElement n, n.Plain → ∀ p, Node.targetWithin? isElement n = some p → p.Plain) ∧
    (∀ ns, (∀ n ∈ ns, n.Plain) → ∀ ps, propertyTargets? ns = some ps → ∀ p ∈ ps, p.Plain) ∧
    (∀ n, n.Plain → ∀ p, propertyTarget? n = some p → p.Plain) ∧
    (∀ ns, (∀ n ∈ ns, n.Plain) → ∀ ps, elementTargets? ns = some ps → ∀ p ∈ ps, p.Plain) := by
  -- Where a node is refused nothing is to be shown, elsewhere the parts are plain by induction.
  apply Node.targetWithin?.mutual_induct
  case case1 | case2 =>
    intro isElement notes parts ih h p same
    rw [Node.targetWithin?] at same
    obtain ⟨ps, found, rfl⟩ := Option.map_eq_some_iff.mp same
    exact plain_mk nofun (ih (h.below rfl) ps found)
  case case3 =>
    intro notes parts h p same
    cases same
    exact h
  case case5 =>
    intro notes parts h p same
    cases same
    exact plain_mk nofun (h.below rfl)
  case case4 | case6 =>
    intro isElement notes parts outside h p same
    rw [Node.targetWithin?, if_neg outside] at same
    cases same
  case case7 =>
    intro isElement n noArray noObject noHole noAssign h p same
    rw [Node.targetWithin?.eq_5 _ _ noArray noObject noHole noAssign] at same
    exact h.simpleTarget? same
  case case8 =>
    intro isComputed isShorthand notes key valueNotes parts h p same
    cases same
    obtain ⟨name, value⟩ := h.pair rfl
    exact plain_pair nofun name (plain_mk nofun (value.below rfl))
  case case9 =>
    intro isComputed isShorthand notes key value other ih h p same
    rw [propertyTarget?.eq_2 _ _ _ _ _ other] at same
    obtain ⟨target, found, rfl⟩ := Option.map_eq_some_iff.mp same
    obtain ⟨name, value⟩ := h.pair rfl
    exact plain_pair nofun name (ih value target found)
  case case10 =>
    intro n noDefault noValue h p same
    rw [propertyTarget?.eq_3 _ noDefault noValue] at same
    cases same
  case case11 | case14 =>
    intro h ps same
    cases same
    exact nofun
  case case12 =>
    intro notes inner h ps same
    obtain ⟨target, found, rfl⟩ := Option.map_eq_some_iff.mp same
    have inner := (List.forall_mem_singleton.mp h).single rfl
    exact List.forall_mem_singleton.mpr (plain_single nofun (inner.simpleTarget? found))
  case case15 =>
    intro notes inner ih h ps same
    obtain ⟨target, found, rfl⟩ := Option.map_eq_some_iff.mp same
    have inner := (List.forall_mem_singleton.mp h).single rfl
    exact List.forall_mem_singleton.mpr (plain_single nofun (ih inner target found))
  case case13 =>
    intro n rest other first later h ps same
    rw [propertyTargets?.eq_3 _ _ other] at same
    obtain ⟨own, others⟩ := List.forall_mem_cons.mp h
    exact plain_taken (first own) (later others) same
  case case16 =>
    intro n rest other first later h ps same
    rw [elementTargets?.eq_3 _ _ other] at same
    obtain ⟨own, others⟩ := List.forall_mem_cons.mp h
    exact plain_taken (first own) (later others) same

theorem plain_bindings :
    (∀ n, n.Plain → ∀ p, Node.binding? n = some p → p.Plain) ∧
    (∀ ns, (∀ n ∈ ns, n.Plain) → ∀ ps, bindings? ns = some ps → ∀ p ∈ ps, p.Plain) := by
  apply Node.binding?.mutual_induct
  case case1 =>
    intro name notes parts h p same
    cases same
    exact h
  case case2 =>
    intro notes parts h p same
    cases same
    exact h
  case case3 =>
    intro notes inner value ih h p same
    obtain ⟨target, found, rfl⟩ := Option.map_eq_some_iff.mp same
    obtain ⟨inner, fallback⟩ := h.pair rfl
    exact plain_pair nofun (ih inner target found) fallback
  case case4 =>
    intro notes inner ih h p same
    obtain ⟨target, found, rfl⟩ := Option.map_eq_some_iff.mp same
    exact plain_single nofun (ih (h.single rfl) target found)
  case case5 | case6 =>
    intro notes parts ih h p same
    obtain ⟨ps, found, rfl⟩ := Option.map_eq_some_iff.mp same
    exact plain_mk nofun (ih (h.below rfl) ps found)
  case case7 =>
    intro isComputed isShorthand notes key value ih h p same
    obtain ⟨target, found, rfl⟩ := Option.map_eq_some_iff.mp same
    obtain ⟨name, value⟩ := h.pair rfl
    exact plain_pair (bindingProperty_ne _ _ _ _) name (ih value target found)
  case case8 =>
    intro n h1 h2 h3 h4 h5 h6 h7 h p same
    rw [Node.binding?.eq_8 _ h1 h2 h3 h4 h5 h6 h7] at same
    cases same
  case case9 =>
    intro h ps same
    cases same
    exact nofun
  case case10 =>
    intro n rest first later h ps same
    rw [bindings?] at same
    obtain ⟨own, others⟩ := List.forall_mem_cons.mp h
    exact plain_taken (first own) (later others) same

theorem Plain.target? {n p : Node} (h : n.Plain) (same : n.target? = some p) : p.Plain :=
  plain_targets.1 false n h p same

theorem plain_parameters {isAsync : Bool} {items : List Node} {p : Node}
    (h : ∀ item ∈ items, item.Plain) (same : parameters? isAsync items = some p) : p.Plain := by
  simp only [parameters?, Option.bind_eq_bind, Option.bind_eq_some_iff] at same
  obtain ⟨targets, found, same⟩ := same
  split at same
  · cases same
  · obtain ⟨patterns, bound, same⟩ := Option.bind_eq_some_iff.mp same
    cases same
    have plain := plain_targets.2.2.2 items h targets found
    exact plain_of nofun (plain_bindings.2 targets plain patterns bound)

end Node

end Bundler.Script
