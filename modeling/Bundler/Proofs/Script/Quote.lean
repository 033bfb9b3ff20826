import Bundler.Json
import Bundler.Script.Token

/-! Strings in double quotes. What may stand between the quotes and what it says is described apart from
any reader, and all of it is read as described. A text that is quoted as in JSON is such a string, so it
is read as one string of a script, and its value is the text. -/

namespace Bundler.Script.Token

theorem joinPairs_chars (cs : List Char) : joinPairs (cs.map Unit.char) = cs.map Unit.char := by
  induction cs with
  | nil => rfl
  | cons c cs ih => rw [List.map_cons, joinPairs, List.foldr_cons, ← joinPairs, ih]; rfl

theorem hasLone_chars (cs : List Char) : hasLone (cs.map Unit.char) = false := by
  simp [hasLone]

theorem textOfUnits_chars (cs : List Char) : textOfUnits (cs.map Unit.char) = String.ofList cs := by
  rw [textOfUnits, hasLone_chars, if_neg Bool.false_ne_true, List.flatMap_map, List.flatMap_singleton']

def shortEscapes : List (Char × Char) :=
  [('"', '"'), ('\\', '\\'), ('b', '\x08'), ('f', '\x0c'), ('n', '\n'), ('r', '\r'), ('t', '\t')]

inductive FourDigits : List Char → Nat → Prop where
  | mk {a b c d : Char} {w x y z : Nat} (first : digitValue? 16 a = some w)
      (second : digitValue? 16 b = some x) (third : digitValue? 16 c = some y)
      (fourth : digitValue? 16 d = some z) :
      FourDigits [a, b, c, d] (((w * 16 + x) * 16 + y) * 16 + z)

/-- The inside of a string in double quotes, and its value. A quote stands there only behind a
backslash, and a line break does not stand there at all. -/
inductive Inside : List Char → List Char → Prop where
  | done : Inside [] []
  | plain {c : Char} {inside value : List Char} (ordinary : c ∉ ['"', '\\', '\n', '\r'])
      (more : Inside inside value) : Inside (c :: inside) (c :: value)
  | short {letter c : Char} {inside value : List Char} (known : (letter, c) ∈ shortEscapes)
      (more : Inside inside value) : Inside ('\\' :: letter :: inside) (c :: value)
  | code {digits : List Char} {c : Char} {inside value : List Char}
      (point : FourDigits digits c.toNat) (more : Inside inside value) :
      Inside ('\\' :: 'u' :: (digits ++ inside)) (c :: value)

theorem readEscape_short {letter c : Char} (known : (letter, c) ∈ shortEscapes) (rest : List Char) :
    readEscape (letter :: rest) = (.units [.char c], rest) := by
  simp only [shortEscapes, List.mem_cons, Prod.mk.injEq, List.not_mem_nil, or_false] at known
  rcases known with ⟨rfl, rfl⟩ | ⟨rfl, rfl⟩ | ⟨rfl, rfl⟩ | ⟨rfl, rfl⟩ | ⟨rfl, rfl⟩ | ⟨rfl, rfl⟩ |
    ⟨rfl, rfl⟩ <;> rfl

theorem readCodePoint_fourDigits {digits : List Char} {code : Nat} (h : FourDigits digits code)
    (rest : List Char) : readCodePoint (digits ++ rest) = some (code, rest) := by
  obtain ⟨first, second, third, fourth⟩ := h
  simp only [List.cons_append, List.nil_append]
  rw [readCodePoint.eq_2, first, second, third, fourth]
  · rfl
  · rintro rfl
    cases first

theorem readEscape_code {digits : List Char} {c : Char} (point : FourDigits digits c.toNat)
    (rest : List Char) : readEscape ('u' :: (digits ++ rest)) = (.units [.char c], rest) := by
  have whole : ¬ (0xd800 ≤ c.toNat ∧ c.toNat < 0xe000) := by
    rintro ⟨above, below⟩
    rcases c.valid with low | ⟨high, -⟩
    · exact Nat.not_lt.mpr above low
    · exact Nat.not_lt.mpr (Nat.le_of_lt_succ below) high
  have read : readEscape ('u' :: (digits ++ rest)) = readPointEscape (digits ++ rest) := rfl
  rw [read, readPointEscape, readCodePoint_fourDigits point]
  simp only [Unit.ofCode, if_neg whole, Char.ofNat_toNat]

theorem FourDigits.oneLine {digits : List Char} {code : Nat} (h : FourDigits digits code) :
    ∀ c ∈ digits, c ≠ '\n' ∧ c ≠ '\r' := by
  have digit {c : Char} {n : Nat} (is : digitValue? 16 c = some n) : c ≠ '\n' ∧ c ≠ '\r' := by
    constructor <;> (rintro rfl; cases is)
  obtain ⟨first, second, third, fourth⟩ := h
  simp only [List.forall_mem_cons, List.not_mem_nil, false_imp_iff, implies_true, and_true]
  exact ⟨digit first, digit second, digit third, digit fourth⟩

namespace Inside

variable {inside value : List Char}

theorem reads (h : Inside inside value) (more : List Char) {rounds : Nat}
    (enough : value.length < rounds) :
    Token.readString '"' rounds (inside ++ '"' :: more) = some (value.map .char, more) := by
  induction h generalizing rounds with
  | done =>
    obtain ⟨rounds, rfl⟩ : ∃ n, rounds = n + 1 := ⟨rounds - 1, by omega⟩
    rfl
  | plain ordinary _ ih =>
    obtain ⟨rounds, rfl⟩ : ∃ n, rounds = n + 1 := ⟨rounds - 1, by omega⟩
    simp only [List.mem_cons, List.not_mem_nil, or_false, not_or] at ordinary
    obtain ⟨unquoted, plain, inLine⟩ := ordinary
    rw [List.cons_append, readString.eq_4 _ _ _ _ plain, if_neg (by simpa using unquoted),
      if_neg (by simpa using inLine), ih (Nat.lt_of_succ_lt_succ enough)]
    rfl
  | short known _ ih =>
    obtain ⟨rounds, rfl⟩ : ∃ n, rounds = n + 1 := ⟨rounds - 1, by omega⟩
    rw [List.cons_append, List.cons_append, Token.readString, readEscape_short known]
    dsimp only
    rw [ih (Nat.lt_of_succ_lt_succ enough)]
    rfl
  | code point _ ih =>
    obtain ⟨rounds, rfl⟩ : ∃ n, rounds = n + 1 := ⟨rounds - 1, by omega⟩
    rw [List.cons_append, List.cons_append, List.append_assoc, readString, readEscape_code point]
    dsimp only
    rw [ih (Nat.lt_of_succ_lt_succ enough)]
    rfl

theorem length_le (h : Inside inside value) : value.length ≤ inside.length := by
  induction h <;> simp only [List.length_nil, List.length_cons, List.length_append] <;> omega

theorem oneLine (h : Inside inside value) : ∀ c ∈ inside, c ≠ '\n' ∧ c ≠ '\r' := by
  have backslash : '\\' ≠ '\n' ∧ '\\' ≠ '\r' := by decide
  induction h with
  | done => nofun
  | plain ordinary _ ih =>
    simp only [List.mem_cons, List.not_mem_nil, or_false, not_or] at ordinary
    exact List.forall_mem_cons.mpr ⟨ordinary.2.2, ih⟩
  | short known _ ih =>
    have letters : ∀ pair ∈ shortEscapes, pair.1 ≠ '\n' ∧ pair.1 ≠ '\r' := by decide
    exact List.forall_mem_cons.mpr ⟨backslash, List.forall_mem_cons.mpr ⟨letters _ known, ih⟩⟩
  | code point _ ih =>
    exact List.forall_mem_cons.mpr ⟨backslash, List.forall_mem_cons.mpr ⟨by decide,
      List.forall_mem_append.mpr ⟨point.oneLine, ih⟩⟩⟩

end Inside

theorem inside_quoteChar (c : Char) {inside value : List Char} (h : Inside inside value) :
    Inside (Json.quoteChar c ++ inside) (c :: value) := by
  by_cases short : c ∈ shortEscapes.map Prod.snd
  · simp only [shortEscapes, List.map_cons, List.map_nil, List.mem_cons, List.not_mem_nil,
      or_false] at short
    rcases short with rfl | rfl | rfl | rfl | rfl | rfl | rfl
    all_goals exact .short (by decide) h
  · simp only [shortEscapes, List.map_cons, List.map_nil, List.mem_cons, List.not_mem_nil,
      or_false, not_or] at short
    obtain ⟨quote, backslash, backspace, formFeed, newline, return_, tab⟩ := short
    rw [Json.quoteChar, if_neg quote, if_neg backslash, if_neg backspace, if_neg formFeed,
      if_neg newline, if_neg return_, if_neg tab]
    split
    · rename_i control
      have digits : ∀ n < 32, digitValue? 16 (Nat.digitChar (n / 16)) = some (n / 16) ∧
          digitValue? 16 (Nat.digitChar (n % 16)) = some (n % 16) := by decide
      obtain ⟨high, low⟩ := digits c.toNat control
      have zero : digitValue? 16 '0' = some 0 := rfl
      have point := FourDigits.mk zero zero high low
      rw [show ((0 * 16 + 0) * 16 + c.toNat / 16) * 16 + c.toNat % 16 = c.toNat by omega] at point
      exact .code point h
    · exact .plain (by simp [quote, backslash, newline, return_]) h

theorem inside_quoted (cs : List Char) : Inside (cs.flatMap Json.quoteChar) cs := by
  induction cs with
  | nil => exact .done
  | cons c cs ih => exact inside_quoteChar c ih

theorem span_append (text more : List Char) (c : Char) : span (text ++ c :: more) more 1 = text := by
  rw [span, List.length_append, List.length_cons,
    show text.length + (more.length + 1) - more.length - 1 = text.length by omega, List.take_left]

theorem Inside.read {inside value : List Char} (h : Inside inside value) (more : List Char) :
    Token.read ('"' :: (inside ++ '"' :: more)) =
      some (.string (String.ofList value) (String.ofList inside) false, more) := by
  have long := h.length_le
  have text : readString '"' ((inside ++ '"' :: more).length + 1) (inside ++ '"' :: more) =
      some (value.map .char, more) := by
    refine h.reads more ?_
    rw [List.length_append]
    omega
  rw [Token.read, if_pos (by rfl), text, Option.map_some]
  dsimp only
  rw [joinPairs_chars, textOfUnits_chars, hasLone_chars, span_append]

/-- A quoted text is one string, whose value is the text. -/
theorem read_quote (text : String) (more : List Char) :
    read ((Json.quote text).toList ++ more) =
      some (.string text (String.ofList (text.toList.flatMap Json.quoteChar)) false, more) := by
  rw [Json.quote, String.toList_ofList, List.cons_append, List.append_assoc, List.singleton_append,
    (inside_quoted text.toList).read, String.ofList_toList]

end Bundler.Script.Token
