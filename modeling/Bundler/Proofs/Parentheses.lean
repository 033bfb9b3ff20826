import Bundler.Proofs.Dropped

/-! Guards and parentheses. A tree holds the grouping of its text by itself, so it means the same with
all parentheses taken out. Tests are decided as if they had none, but for one place that the look-up
of `process.env.NODE_ENV` does not look behind: parentheses around `process` alone leave a test
undecided. -/

namespace Bundler.Script.Node

mutual

def unparenthesized : Node → Node
  | ⟨.paren, _, [inner]⟩ => inner.unparenthesized
  | ⟨form, notes, parts⟩ => ⟨form, notes, unparenthesizedParts parts⟩

def unparenthesizedParts : List Node → List Node
  | [] => []
  | n :: rest => n.unparenthesized :: unparenthesizedParts rest

end

/-- `(process).env.NODE_ENV`, with any number of parentheses around `process`. -/
def isShielded : Node → Bool
  | ⟨.member "NODE_ENV" false, _, [object]⟩ =>
    match object.bare with
    | ⟨.member "env" false, _, [⟨.paren, _, [inner]⟩]⟩ => inner.bare.form == .identifier "process"
    | _ => false
  | _ => false

def shields (test : Node) : Bool :=
  match test.bare with
  | ⟨.binary _, _, [left, right]⟩ => left.bare.isShielded || right.bare.isShielded
  | _ => false

theorem unparenthesizedParts_eq (parts : List Node) :
    unparenthesizedParts parts = parts.map unparenthesized := by
  induction parts with
  | nil => rfl
  | cons n rest ih => rw [unparenthesizedParts, ih, List.map_cons]

theorem unparenthesized_paren (notes : List Comment) (inner : Node) :
    unparenthesized ⟨.paren, notes, [inner]⟩ = inner.unparenthesized := by
  rw [unparenthesized]

theorem unparenthesized_of_other {n : Node} (other : ∀ notes inner, n ≠ ⟨.paren, notes, [inner]⟩) :
    n.unparenthesized = ⟨n.form, n.notes, n.parts.map unparenthesized⟩ := by
  obtain ⟨form, notes, parts⟩ := n
  rw [unparenthesized.eq_2, unparenthesizedParts_eq]
  rintro inner rfl rfl
  exact other notes inner rfl

theorem bare_ne_paren (n : Node) (notes : List Comment) (inner : Node) :
    n.bare ≠ ⟨.paren, notes, [inner]⟩ := by
  fun_induction bare n with
  | case1 _ _ ih => exact ih
  | case2 n other => exact other notes inner

theorem unparenthesized_bare (n : Node) :
    n.bare.unparenthesized = ⟨n.bare.form, n.bare.notes, n.bare.parts.map unparenthesized⟩ :=
  unparenthesized_of_other n.bare_ne_paren

theorem bare_unparenthesized (n : Node) : n.unparenthesized.bare = n.bare.unparenthesized := by
  fun_induction bare n with
  | case1 notes inner ih =>
    rw [unparenthesized_paren]
    exact ih
  | case2 n other =>
    rw [unparenthesized_of_other other]
    apply bare.eq_2
    intro notes inner same
    obtain ⟨form, ownNotes, parts⟩ := n
    obtain ⟨rfl, rfl, below⟩ := Node.mk.inj same
    obtain ⟨part, rfl, -⟩ := List.map_eq_singleton_iff.mp below
    exact other ownNotes part rfl

theorem unparenthesized_identifier {n : Node} {name : String} :
    (∃ notes parts, n.unparenthesized = ⟨.identifier name, notes, parts⟩) ↔
      n.bare.form = .identifier name := by
  have bared : n.unparenthesized.bare.form = n.bare.form := by
    rw [bare_unparenthesized, unparenthesized_bare]
  constructor
  · rintro ⟨notes, parts, left⟩
    rw [← bared, left, bare.eq_2 _ (by rintro _ _ ⟨⟩)]
  · intro isName
    fun_induction bare n with
    | case1 notes inner ih =>
      rw [unparenthesized_paren] at bared ⊢
      exact ih bared isName
    | case2 n other =>
      rw [unparenthesized_of_other other, isName]
      exact ⟨_, _, rfl⟩

theorem isShielded_iff {n : Node} : n.isShielded ↔
    ∃ notes object innerNotes parenNotes inner, n = ⟨.member "NODE_ENV" false, notes, [object]⟩ ∧
      object.bare = ⟨.member "env" false, innerNotes, [⟨.paren, parenNotes, [inner]⟩]⟩ ∧
      inner.bare.form = .identifier "process" := by
  constructor
  · intro h
    unfold isShielded at h
    split at h
    · split at h
      · exact ⟨_, _, _, _, _, rfl, ‹_›, beq_iff_eq.mp h⟩
      · cases h
    · cases h
  · rintro ⟨notes, object, innerNotes, parenNotes, inner, rfl, inside, isName⟩
    simp only [isShielded, inside, isName, BEq.rfl]

theorem isEnvironment_unparenthesized (n : Node) :
    n.bare.unparenthesized.isEnvironment = (n.bare.isEnvironment || n.bare.isShielded) := by
  rw [unparenthesized_bare, Bool.eq_iff_iff, Bool.or_eq_true, isEnvironment_iff, isEnvironment_iff,
    isShielded_iff]
  generalize n.bare = n
  constructor
  · rintro ⟨notes, _, innerNotes, processNotes, parts, whole, inside⟩
    obtain ⟨form, ownNotes, ownParts⟩ := n
    obtain ⟨rfl, rfl, below⟩ := Node.mk.inj whole
    obtain ⟨object, rfl, rfl⟩ := List.map_eq_singleton_iff.mp below
    rw [bare_unparenthesized, unparenthesized_bare] at inside
    rcases here : object.bare with ⟨form, _, innerParts⟩
    rw [here] at inside
    obtain ⟨rfl, rfl, below⟩ := Node.mk.inj inside
    obtain ⟨name, rfl, named⟩ := List.map_eq_singleton_iff.mp below
    have isName := unparenthesized_identifier.mp ⟨_, _, named⟩
    -- parentheses around the innermost name alone keep it from being seen
    by_cases enclosed : ∃ parenNotes inner, name = ⟨.paren, parenNotes, [inner]⟩
    · obtain ⟨parenNotes, inner, rfl⟩ := enclosed
      exact .inr ⟨_, object, _, parenNotes, inner, rfl, here, isName⟩
    · have alone : name.bare = name := bare.eq_2 _ fun notes inner same => enclosed ⟨_, _, same⟩
      obtain ⟨form, nameNotes, nameParts⟩ := name
      rw [alone] at isName
      cases isName
      exact .inl ⟨_, object, _, nameNotes, nameParts, rfl, here⟩
  · rintro (⟨notes, object, innerNotes, processNotes, parts, rfl, inside⟩ |
      ⟨notes, object, innerNotes, parenNotes, inner, rfl, inside, isName⟩)
    · refine ⟨notes, _, innerNotes, processNotes, parts.map unparenthesized, rfl, ?_⟩
      rw [bare_unparenthesized, unparenthesized_bare, inside, List.map_singleton,
        unparenthesized_of_other (by rintro _ _ ⟨⟩)]
    · obtain ⟨processNotes, parts, named⟩ := unparenthesized_identifier.mpr isName
      refine ⟨notes, _, innerNotes, processNotes, parts, rfl, ?_⟩
      rw [bare_unparenthesized, unparenthesized_bare, inside, List.map_singleton,
        unparenthesized_paren, named]

theorem fixedText?_unparenthesized (n : Node) :
    n.bare.unparenthesized.fixedText? = n.bare.fixedText? := by
  rw [unparenthesized_bare]
  rcases n.bare with ⟨form, notes, parts⟩
  cases form <;> try rfl
  case template quasis =>
    rcases quasis with _ | ⟨quasi, _ | ⟨second, more⟩⟩ <;> rcases parts with _ | ⟨part, rest⟩ <;> rfl

theorem fixedText?_of_shielded {n : Node} (h : n.isShielded) : n.fixedText? = none := by
  obtain ⟨_, _, _, _, _, rfl, -⟩ := isShielded_iff.mp h
  rfl

theorem not_environment_of_shielded {n : Node} (h : n.isShielded) : n.isEnvironment = false := by
  obtain ⟨notes, object, innerNotes, parenNotes, inner, rfl, inside, -⟩ := isShielded_iff.mp h
  simp only [isEnvironment, inside]

/-- What two sides come to, of which one is the variable and the other a literal. -/
def comparedText? (left right : Node) : Option String :=
  if left.isEnvironment then right.fixedText?
  else if right.isEnvironment then left.fixedText?
  else none

theorem comparedText?_unparenthesized (left right : Node) :
    comparedText? left.bare right.bare =
      if left.bare.isShielded || right.bare.isShielded then none
      else comparedText? left.bare.unparenthesized right.bare.unparenthesized := by
  simp only [comparedText?, isEnvironment_unparenthesized, fixedText?_unparenthesized]
  cases leftShielded : left.bare.isShielded with
  | true =>
    rw [not_environment_of_shielded leftShielded, fixedText?_of_shielded leftShielded]
    simp
  | false =>
    cases rightShielded : right.bare.isShielded with
    | true =>
      rw [not_environment_of_shielded rightShielded, fixedText?_of_shielded rightShielded]
      simp
    | false => simp

theorem condition_binary (env : String) {test : Node} {op : BinaryOp} {notes : List Comment}
    {left right : Node} (outside : test.bare = ⟨.binary op, notes, [left, right]⟩) :
    condition env test = (comparison? op).bind fun isNegated =>
      (comparedText? left.bare right.bare).map fun t => (t == env) != isNegated := by
  unfold condition
  rw [outside]
  dsimp only
  cases comparison? op <;> rfl

theorem condition_other (env : String) {test : Node}
    (other : ∀ op notes left right, test.bare ≠ ⟨.binary op, notes, [left, right]⟩) :
    condition env test = none := by
  unfold condition
  split
  · exact absurd ‹_› (other _ _ _ _)
  · rfl

/-- A test is decided as if it had no parentheses, unless it has some around `process` alone: then it
is not decided at all. -/
theorem condition_parentheses (env : String) (test : Node) :
    condition env test = if test.shields then none else condition env test.unparenthesized := by
  by_cases compares : ∃ op notes left right, test.bare = ⟨.binary op, notes, [left, right]⟩
  · obtain ⟨op, notes, left, right, outside⟩ := compares
    have outside' : test.unparenthesized.bare =
        ⟨.binary op, notes, [left.unparenthesized, right.unparenthesized]⟩ := by
      rw [bare_unparenthesized, outside]
      exact unparenthesized_of_other (by rintro _ _ ⟨⟩)
    rw [condition_binary env outside, condition_binary env outside', shields, outside,
      comparedText?_unparenthesized, bare_unparenthesized, bare_unparenthesized]
    split
    · exact Option.bind_fun_none _
    · rfl
  · have other := fun op notes left right whole => compares ⟨op, notes, left, right, whole⟩
    rw [condition_other env other, condition_other env]
    · split <;> rfl
    · intro op notes left right whole
      rw [bare_unparenthesized, unparenthesized_bare] at whole
      rcases bared : test.bare with ⟨form, ownNotes, parts⟩
      rw [bared] at whole
      obtain ⟨rfl, rfl, below⟩ := Node.mk.inj whole
      obtain ⟨l, r, rfl, -, -⟩ : ∃ l r, parts = [l, r] ∧ l.unparenthesized = left ∧
          r.unparenthesized = right := by
        rcases parts with _ | ⟨l, _ | ⟨r, _ | ⟨third, more⟩⟩⟩ <;> simp_all
      exact other _ _ _ _ bared

namespace Shielded

/-- `(process).env.NODE_ENV === "production"` -/
def test : Node :=
  .of (.binary .identical)
    [.of (.member "NODE_ENV" false)
      [.of (.member "env" false) [.of .paren [.leaf (.identifier "process")]]],
      .leaf (.string "production" false)]

end Shielded

/-- Parentheses around `process` leave a test undecided that is decided without them. -/
theorem not_condition_unparenthesized : ¬ ∀ (env : String) (test : Node),
    condition env test = condition env test.unparenthesized := by
  intro ignored
  have undecided : condition "production" Shielded.test = none := by decide
  have decided : condition "production" Shielded.test.unparenthesized = some true := by decide
  rw [ignored, decided] at undecided
  cases undecided

end Bundler.Script.Node
