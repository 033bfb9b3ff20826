import Bundler.Proofs.Dropped
import Bundler.Script.Parse

/-! Chains of guards as they run. A guard compares `process.env.NODE_ENV` with a literal, and where
that variable has the text of an environment, a chain of guards comes down to the statement that it
is settled to. The one exception are literals with lone surrogates: such a text is recorded in
characters, and an environment of just those characters is taken for it. -/

namespace Bundler.Script

def Quasi.hasLoneSurrogate (q : Quasi) : Bool :=
  match Token.readTemplate (q.raw.length + 2) (q.raw.toList ++ ['\x60']) with
  | some (some units, _, _) => Token.hasLone (Token.joinPairs units)
  | _ => false

structure Recorded where
  text : String
  hasLoneSurrogate : Bool
  deriving DecidableEq

/-- What four characters after U+FFFD announce: a lone surrogate, or U+FFFD itself. -/
def announced? (a b c d : Char) : Option Token.Unit := do
  let a ← digitValue? 16 a
  let b ← digitValue? 16 b
  let c ← digitValue? 16 c
  let d ← digitValue? 16 d
  let code := ((a * 16 + b) * 16 + c) * 16 + d
  if 0xd800 ≤ code ∧ code < 0xe000 then some (.surrogate code)
  else if code = 0xfffd then some (.char '\ufffd')
  else none

def announcedUnits : List Char → List Token.Unit
  | u :: a :: b :: c :: d :: rest =>
    match u == '\ufffd', announced? a b c d with
    | true, some unit => unit :: announcedUnits rest
    | _, _ => .char u :: announcedUnits (a :: b :: c :: d :: rest)
  | u :: rest => .char u :: announcedUnits rest
  | [] => []

/-- The text that a recorded text stands for. -/
def Recorded.units (r : Recorded) : List Token.Unit :=
  if r.hasLoneSurrogate then announcedUnits r.text.toList else r.text.toList.map .char

theorem announced?_ne_char {a b c d u : Char} (h : announced? a b c d = some (.char u)) :
    u = '\ufffd' := by
  simp only [announced?, bind, Option.bind_eq_some_iff] at h
  obtain ⟨_, _, _, _, _, _, _, _, h⟩ := h
  split at h
  · cases h
  · split at h
    · cases h
      rfl
    · cases h

theorem char_cons_eq_iff {chars rest : List Char} {u : Char} {units : List Token.Unit}
    (h : '\ufffd' ∉ chars)
    (later : ∀ {chars : List Char}, '\ufffd' ∉ chars → (units = chars.map .char ↔ rest = chars)) :
    Token.Unit.char u :: units = chars.map .char ↔ u :: rest = chars := by
  cases chars with
  | nil => simp
  | cons c chars =>
    rw [List.map_cons, List.cons_eq_cons, List.cons_eq_cons, Token.Unit.char.injEq,
      later (List.not_mem_of_not_mem_cons h)]

theorem announcedUnits_eq_iff {recorded chars : List Char} (h : '\ufffd' ∉ chars) :
    announcedUnits recorded = chars.map .char ↔ recorded = chars := by
  -- An announced unit is either no character or U+FFFD, and only U+FFFD announces one.
  fun_induction announcedUnits recorded generalizing chars with
  | case1 u a b c d rest unit announced isMark ih =>
    constructor
    · intro same
      obtain ⟨x, _, rfl, first, -⟩ := List.map_eq_cons_iff.mp same.symm
      rw [← first] at announced
      exact (h (announced?_ne_char announced ▸ List.mem_cons_self)).elim
    · rintro rfl
      exact (h (beq_iff_eq.mp isMark ▸ List.mem_cons_self)).elim
  | case2 u a b c d rest other ih => exact char_cons_eq_iff h ih
  | case3 u rest other ih => exact char_cons_eq_iff h ih
  | case4 => simp [eq_comm]

/-- A recorded text agrees with an environment just where the text that it stands for does, unless
both the literal has a lone surrogate and the environment has U+FFFD. -/
theorem Recorded.units_eq_iff {r : Recorded} {env : String}
    (clear : '\ufffd' ∈ env.toList → r.hasLoneSurrogate = false) :
    r.units = env.toList.map .char ↔ r.text = env := by
  have injective : Function.Injective Token.Unit.char := fun _ _ same => Token.Unit.char.inj same
  unfold Recorded.units
  split
  · rename_i lone
    have plain : '\ufffd' ∉ env.toList := fun mem => by simp [clear mem] at lone
    rw [announcedUnits_eq_iff plain, String.toList_inj]
  · rw [List.map_inj_right fun _ _ same => injective same, String.toList_inj]

namespace Node

def recorded? : Node → Option Recorded
  | ⟨.string value lone, _, _⟩ => some ⟨value, lone⟩
  | ⟨.template [quasi], _, []⟩ => quasi.cooked.map (⟨·, quasi.hasLoneSurrogate⟩)
  | _ => none

inductive Value where
  | process
  | environment
  | text (units : List Token.Unit)
  | truth (holds : Bool)
  deriving DecidableEq

/-- The member of a value, where `process.env.NODE_ENV` has the text of an environment. -/
def Value.member? (env : String) : Value → String → Option Value
  | process, "env" => some environment
  | environment, "NODE_ENV" => some (text (env.toList.map .char))
  | _, _ => none

def Value.compare? : BinaryOp → Value → Value → Option Value
  | .equal, text a, text b | .identical, text a, text b => some (truth (a == b))
  | .notEqual, text a, text b | .notIdentical, text a, text b => some (truth (a != b))
  | _, _, _ => none

/-- The value of an expression that consists of members of `process`, literals and comparisons. -/
def value? (env : String) : Node → Option Value
  | ⟨.paren, _, [inner]⟩ => value? env inner
  | ⟨.identifier "process", _, _⟩ => some .process
  | ⟨.member name false, _, [object]⟩ => (value? env object).bind (·.member? env name)
  | ⟨.binary op, _, [left, right]⟩ =>
    (value? env left).bind fun l => (value? env right).bind fun r => l.compare? op r
  | n => n.recorded?.map fun r => .text r.units

/-- `process.env.NODE_ENV`, where parentheses may stand around `process.env`. -/
inductive Access : Node → Prop where
  | mk {object : Node} {notes innerNotes processNotes : List Comment} {parts : List Node}
      (inside : object.bare =
        ⟨.member "env" false, innerNotes, [⟨.identifier "process", processNotes, parts⟩]⟩) :
      Access ⟨.member "NODE_ENV" false, notes, [object]⟩

/-- The operators that compare texts, and whether they ask for a difference. -/
inductive Equality : BinaryOp → Bool → Prop where
  | equal : Equality .equal false
  | identical : Equality .identical false
  | notEqual : Equality .notEqual true
  | notIdentical : Equality .notIdentical true

/-- A test for equality or difference between `process.env.NODE_ENV` and a literal, in either order;
parentheses around the test or around an operand do not count. -/
inductive Compares : Node → Bool → Recorded → Prop where
  | left {test access literal : Node} {op : BinaryOp} {isNegated : Bool} {notes : List Comment}
      {r : Recorded} (outside : test.bare = ⟨.binary op, notes, [access, literal]⟩)
      (equality : Equality op isNegated) (accesses : Access access.bare)
      (records : literal.bare.recorded? = some r) : Compares test isNegated r
  | right {test access literal : Node} {op : BinaryOp} {isNegated : Bool} {notes : List Comment}
      {r : Recorded} (outside : test.bare = ⟨.binary op, notes, [literal, access]⟩)
      (equality : Equality op isNegated) (accesses : Access access.bare)
      (records : literal.bare.recorded? = some r) : Compares test isNegated r

inductive IsGuard : Node → Prop where
  | mk {notes : List Comment} {test consequent alternate : Node} {isNegated : Bool} {r : Recorded}
      (compares : Compares test isNegated r) : IsGuard ⟨.ifElse, notes, [test, consequent, alternate]⟩

/-- To follow a chain of guards as it runs: into the branch that the test of a guard chooses, up to
the first statement that is no guard, or to nothing where there is no branch. -/
inductive Follows (env : String) : Node → Option Node → Prop where
  | stops {n : Node} (other : ¬ n.IsGuard) : Follows env n (some n)
  | holds {notes : List Comment} {test consequent alternate : Node} {result : Option Node}
      {isNegated : Bool} {r : Recorded} (compares : Compares test isNegated r)
      (chosen : value? env test = some (.truth true)) (rest : Follows env consequent result) :
      Follows env ⟨.ifElse, notes, [test, consequent, alternate]⟩ result
  | fails {notes : List Comment} {test consequent alternate : Node} {result : Option Node}
      {isNegated : Bool} {r : Recorded} (compares : Compares test isNegated r)
      (chosen : value? env test = some (.truth false)) (present : alternate.isAbsent = false)
      (rest : Follows env alternate result) :
      Follows env ⟨.ifElse, notes, [test, consequent, alternate]⟩ result
  | runsOut {notes : List Comment} {test consequent alternate : Node} {isNegated : Bool} {r : Recorded}
      (compares : Compares test isNegated r) (chosen : value? env test = some (.truth false))
      (gone : alternate.isAbsent) :
      Follows env ⟨.ifElse, notes, [test, consequent, alternate]⟩ none

/-- A literal that some guard of a chain is compared with. -/
inductive Mentions : Node → Recorded → Prop where
  | test {notes : List Comment} {test consequent alternate : Node} {isNegated : Bool} {r : Recorded}
      (compares : Compares test isNegated r) : Mentions ⟨.ifElse, notes, [test, consequent, alternate]⟩ r
  | consequent {notes : List Comment} {test consequent alternate : Node} {r : Recorded}
      (below : Mentions consequent r) : Mentions ⟨.ifElse, notes, [test, consequent, alternate]⟩ r
  | alternate {notes : List Comment} {test consequent alternate : Node} {r : Recorded}
      (below : Mentions alternate r) : Mentions ⟨.ifElse, notes, [test, consequent, alternate]⟩ r

theorem value?_bare (env : String) (n : Node) : value? env n.bare = value? env n := by
  fun_induction bare n with
  | case1 notes inner ih => rw [ih, value?]
  | case2 => rfl

theorem value?_of_recorded {env : String} {n : Node} {r : Recorded} (h : n.recorded? = some r) :
    value? env n = some (.text r.units) := by
  unfold recorded? at h
  split at h
  · cases h
    rfl
  · obtain ⟨text, cooked, rfl⟩ := Option.map_eq_some_iff.mp h
    simp [value?, recorded?, cooked]
  · cases h

theorem Access.value? {env : String} {n : Node} (h : Access n) :
    n.value? env = some (.text (env.toList.map .char)) := by
  obtain ⟨inside⟩ := h
  rw [Node.value?, ← value?_bare, inside]
  rfl

theorem access_iff {n : Node} : n.isEnvironment ↔ Access n := by
  rw [isEnvironment_iff]
  constructor
  · rintro ⟨notes, object, innerNotes, processNotes, parts, rfl, inside⟩
    exact .mk inside
  · rintro ⟨inside⟩
    exact ⟨_, _, _, _, _, rfl, inside⟩

theorem fixedText?_eq (n : Node) : n.fixedText? = n.recorded?.map (·.text) := by
  fun_cases fixedText? n with
  | case1 => rfl
  | case2 quasi notes =>
    rw [recorded?]
    cases quasi.cooked <;> rfl
  | case3 n noString noTemplate =>
    rw [recorded?.eq_3 n noString noTemplate]
    rfl

theorem not_access_of_recorded {n : Node} {r : Recorded} (h : n.recorded? = some r) :
    n.isEnvironment = false := by
  refine Bool.eq_false_iff.mpr fun accesses => ?_
  obtain ⟨inside⟩ := access_iff.mp accesses
  cases h

section

variable {env : String} {test : Node} {op : BinaryOp} {isNegated : Bool} {r : Recorded}

theorem equality_iff : comparison? op = some isNegated ↔ Equality op isNegated := by
  constructor
  · intro h
    unfold comparison? at h
    split at h <;> cases h <;> constructor
  · rintro (_ | _ | _ | _) <;> rfl

theorem Equality.compare? (h : Equality op isNegated) (a b : List Token.Unit) :
    (Value.text a).compare? op (.text b) = some (.truth ((a == b) != isNegated)) := by
  cases h <;> cases same : a == b <;> simp [Value.compare?, bne, same]

theorem Compares.condition_eq (h : Compares test isNegated r) :
    condition env test = some ((r.text == env) != isNegated) := by
  cases h with
  | left outside equality accesses records =>
    simp [condition, outside, equality_iff.mpr equality, access_iff.mpr accesses, fixedText?_eq,
      records]
  | right outside equality accesses records =>
    simp [condition, outside, equality_iff.mpr equality, access_iff.mpr accesses,
      not_access_of_recorded records, fixedText?_eq, records]

theorem compares_of_condition {holds : Bool} (h : condition env test = some holds) :
    ∃ isNegated r, Compares test isNegated r := by
  unfold condition at h
  split at h
  · rename_i op notes left right outside
    cases equality : comparison? op with
    | none =>
      rw [equality] at h
      cases h
    | some isNegated =>
      rw [equality] at h
      dsimp only at h
      obtain ⟨text, compared, -⟩ := Option.map_eq_some_iff.mp h
      simp only [fixedText?_eq] at compared
      split at compared
      · obtain ⟨r, records, -⟩ := Option.map_eq_some_iff.mp compared
        exact ⟨isNegated, r, .left outside (equality_iff.mp equality) (access_iff.mp ‹_›) records⟩
      · split at compared
        · obtain ⟨r, records, -⟩ := Option.map_eq_some_iff.mp compared
          exact ⟨isNegated, r, .right outside (equality_iff.mp equality) (access_iff.mp ‹_›) records⟩
        · cases compared
  · cases h

theorem Compares.value?_eq (h : Compares test isNegated r) :
    value? env test = some (.truth ((r.units == env.toList.map .char) != isNegated)) := by
  have swap (a b : List Token.Unit) : (a == b) = (b == a) := by
    rw [Bool.eq_iff_iff, beq_iff_eq, beq_iff_eq, eq_comm]
  cases h with
  | left outside equality accesses records =>
    rw [← value?_bare, outside, Node.value?, ← value?_bare, accesses.value?, Option.bind_some,
      ← value?_bare, value?_of_recorded records, Option.bind_some, equality.compare?, swap]
  | right outside equality accesses records =>
    rw [← value?_bare, outside, Node.value?, ← value?_bare, value?_of_recorded records,
      Option.bind_some, ← value?_bare, accesses.value?, Option.bind_some, equality.compare?]

theorem Compares.value?_condition (h : Compares test isNegated r)
    (clear : '\ufffd' ∈ env.toList → r.hasLoneSurrogate = false) :
    value? env test = (condition env test).map .truth := by
  have same : (r.units == env.toList.map .char) = (r.text == env) := by
    rw [Bool.eq_iff_iff, beq_iff_eq, beq_iff_eq, Recorded.units_eq_iff clear]
  rw [h.value?_eq, h.condition_eq, same, Option.map_some]

end

theorem not_isGuard_of_settled {env : String} {n kept : Node} (h : settle env n = some kept) :
    ¬ kept.IsGuard := by
  rintro ⟨compares⟩
  have undecided := condition_of_settled h
  rw [compares.condition_eq] at undecided
  cases undecided

section

variable {env : String} {n : Node}

theorem follows_settle
    (clear : '\ufffd' ∈ env.toList → ∀ r, n.Mentions r → r.hasLoneSurrogate = false) :
    Follows env n (settle env n) := by
  -- The literals of a branch are mentioned in the whole chain, so `clear` goes along.
  fun_induction settle env n with
  | case1 notes test consequent alternate decided ih =>
    obtain ⟨_, r, compares⟩ := compares_of_condition decided
    have value := compares.value?_condition fun mark => clear mark r (.test compares)
    rw [decided] at value
    exact .holds compares value (ih fun mark r below => clear mark r (.consequent below))
  | case2 notes test consequent alternate decided gone =>
    obtain ⟨_, r, compares⟩ := compares_of_condition decided
    have value := compares.value?_condition fun mark => clear mark r (.test compares)
    rw [decided] at value
    exact .runsOut compares value gone
  | case3 notes test consequent alternate decided present ih =>
    obtain ⟨_, r, compares⟩ := compares_of_condition decided
    have value := compares.value?_condition fun mark => clear mark r (.test compares)
    rw [decided] at value
    exact .fails compares value (Bool.eq_false_iff.mpr present)
      (ih fun mark r below => clear mark r (.alternate below))
  | case4 notes test consequent alternate undecided =>
    refine .stops ?_
    rintro ⟨compares⟩
    rw [compares.condition_eq] at undecided
    cases undecided
  | case5 n other =>
    refine .stops ?_
    rintro ⟨compares⟩
    exact other _ _ _ _ rfl

theorem Follows.unique {first second : Option Node} (h : Follows env n first)
    (h' : Follows env n second) : first = second := by
  induction h with
  | stops other =>
    cases h' with
    | stops => rfl
    | holds compares | fails compares | runsOut compares => exact (other (.mk compares)).elim
  | holds compares chosen _ ih =>
    cases h' with
    | stops other => exact (other (.mk compares)).elim
    | holds _ _ rest => exact ih rest
    | fails _ chosen' | runsOut _ chosen' => cases chosen.symm.trans chosen'
  | fails compares chosen present _ ih =>
    cases h' with
    | stops other => exact (other (.mk compares)).elim
    | holds _ chosen' => cases chosen.symm.trans chosen'
    | fails _ _ _ rest => exact ih rest
    | runsOut _ _ gone => cases present.symm.trans gone
  | runsOut compares chosen gone =>
    cases h' with
    | stops other => exact (other (.mk compares)).elim
    | holds _ chosen' => cases chosen.symm.trans chosen'
    | fails _ _ present => cases present.symm.trans gone
    | runsOut => rfl

end

/-- A statement is settled to what its chain of guards comes to when it runs where the environment is
the value of `process.env.NODE_ENV`, unless that value has U+FFFD and some literal of the chain a lone
surrogate. What is left is no guard, and to settle it again changes nothing. -/
theorem settle_follows (env : String) (n : Node) :
    (('\ufffd' ∈ env.toList → ∀ r, n.Mentions r → r.hasLoneSurrogate = false) →
      ∀ result, settle env n = result ↔ Follows env n result) ∧
    ∀ kept, settle env n = some kept → ¬ kept.IsGuard ∧ settle env kept = some kept := by
  refine ⟨fun clear result => ?_, fun kept settled =>
    ⟨not_isGuard_of_settled settled, settle_settled settled⟩⟩
  have follows := follows_settle clear
  constructor
  · rintro rfl
    exact follows
  · exact follows.unique

theorem settle_follows_production :
    ('\ufffd' ∈ "production".toList → ∀ r, (Polling.guarded "test" (.leaf .debugger)
      (Polling.guarded "production" (Polling.required "fs") (.leaf .empty))).Mentions r →
        r.hasLoneSurrogate = false) ∧
    Follows "production" (Polling.guarded "test" (.leaf .debugger)
      (Polling.guarded "production" (Polling.required "fs") (.leaf .empty)))
      (some (Polling.required "fs")) := by
  have clear : '\ufffd' ∉ "production".toList := by decide
  exact ⟨fun mark => (clear mark).elim,
    ((settle_follows _ _).1 (fun mark => (clear mark).elim) _).mp rfl⟩

namespace Lone

def source : String := "if (process.env.NODE_ENV === '\\ud800') a(); else b();"

def env : String := "\ufffdd800"

def calls (name : String) (n : Node) : Bool := n.any fun part => part.form == .identifier name

def differs : Node → Bool
  | ⟨.ifElse, _, [test, consequent, alternate]⟩ =>
    (condition env test == some true && value? env test == some (.truth false)) &&
      (consequent.form == .evaluate && alternate.form == .evaluate) &&
      (calls "a" consequent && calls "b" alternate && !calls "b" consequent)
  | _ => false

theorem differs_spec {statement : Node} (h : differs statement) : ∃ kept ran,
    settle env statement = some kept ∧ calls "a" kept ∧ Follows env statement (some ran) ∧
      calls "b" ran ∧ kept ≠ ran := by
  unfold differs at h
  split at h
  · rename_i notes test consequent alternate
    simp only [Bool.and_eq_true, beq_iff_eq, Bool.not_eq_true'] at h
    obtain ⟨⟨⟨decided, runs⟩, keptForm, ranForm⟩, ⟨kept, ran⟩, other⟩ := h
    obtain ⟨_, _, compares⟩ := compares_of_condition decided
    have plain {n : Node} (form : n.form = .evaluate) : ¬ n.IsGuard := by
      rintro ⟨-⟩
      cases form
    refine ⟨consequent, alternate, ?_, kept, ?_, ran, ?_⟩
    · rw [settle, decided]
      exact settle.eq_2 env consequent fun notes test _ _ same => by rw [same] at keptForm; cases keptForm
    · refine .fails compares runs ?_ (.stops (plain ranForm))
      rw [isAbsent, ranForm]
      rfl
    · rintro rfl
      rw [ran] at other
      cases other
  · cases h

end Lone

set_option maxRecDepth 100000 in
/-- An environment of the characters that a lone surrogate is recorded in is taken for it, and the
branch is kept that does not run. -/
theorem not_settle_follows : ∃ program statement kept ran,
    Script.parse true Lone.source = .ok program ∧ program.parts = [statement] ∧
    settle Lone.env statement = some kept ∧ Lone.calls "a" kept ∧
    Follows Lone.env statement (some ran) ∧ Lone.calls "b" ran ∧ kept ≠ ran := by
  have read : ((Script.parse true Lone.source).toOption.any fun program =>
      program.parts.length == 1 && program.parts.all Lone.differs) = true := by decide +kernel
  cases parses : Script.parse true Lone.source with
  | error e =>
    rw [parses] at read
    cases read
  | ok program =>
    rw [parses] at read
    obtain ⟨one, all⟩ := Bool.and_eq_true_iff.mp read
    obtain ⟨statement, parts⟩ := List.length_eq_one_iff.mp (beq_iff_eq.mp one)
    rw [parts, List.all_cons, List.all_nil, Bool.and_true] at all
    obtain ⟨kept, ran, settled, keptCalls, follows, ranCalls, apart⟩ := Lone.differs_spec all
    exact ⟨program, statement, kept, ran, rfl, parts, settled, keptCalls, follows, ranCalls, apart⟩

end Node

end Bundler.Script
