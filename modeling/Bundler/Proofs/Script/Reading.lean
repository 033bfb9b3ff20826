import Mathlib.Tactic.SplitIfs
import Bundler.Script.Cursor

/-! The lexer on a text and on the same text with a line end and more behind it. Where the longer
text leaves nothing open, each scanner reads the same in both; a scanner that reaches the end of
the shorter text stops at the line end of the longer one. -/

namespace Bundler.Script

/-- Text in which nothing ends that has been left open before it: no quote, no comment and no escape. -/
def Quiet (more : List Char) : Prop := ∀ c ∈ ['"', '\x27', '\x60', '\\', '$', '*'], c ∉ more

theorem Quiet.nil : Quiet [] := fun _ _ => List.not_mem_nil

theorem Quiet.of_all {more : List Char}
    (h : ['"', '\x27', '\x60', '\\', '$', '*'].all fun c => !more.contains c) : Quiet more := by
  intro c mem inside
  have outside := List.all_eq_true.mp h c mem
  rw [List.contains_iff_mem.mpr inside] at outside
  cases outside

theorem Quiet.of_cons {c : Char} {more : List Char} (h : Quiet (c :: more)) : Quiet more :=
  fun d mem inside => h d mem (List.mem_cons_of_mem c inside)

theorem Quiet.drop {more : List Char} (h : Quiet more) (n : Nat) : Quiet (more.drop n) :=
  fun d mem inside => h d mem (List.mem_of_mem_drop inside)

theorem Quiet.head_ne {c d : Char} {more : List Char} (h : Quiet (c :: more))
    (mem : d ∈ ['"', '\x27', '\x60', '\\', '$', '*'] := by decide) : c ≠ d := by
  rintro rfl
  exact h c mem List.mem_cons_self

variable {more : List Char}

theorem takeWhile_line {p : Char → Bool} (h : p '\n' = false) (text : List Char) :
    (text ++ '\n' :: more).takeWhile p = text.takeWhile p := by
  induction text with
  | nil => simp [h]
  | cons c rest ih => simp [List.takeWhile_cons, ih]

theorem drop_takeWhile_line (p : Char → Bool) (text more : List Char) :
    (text ++ more).drop (text.takeWhile p).length =
      text.drop (text.takeWhile p).length ++ more :=
  List.drop_append_of_le_length (List.takeWhile_prefix p).length_le

/-- What is read from a text that goes on in a new line, given what is read from the text alone. -/
def further (more : List Char) {α : Type} (read : α × List Char) : α × List Char :=
  (read.1, read.2 ++ '\n' :: more)

namespace Token

theorem digitValue?_line {base : Nat} (h : base ≤ 16) : digitValue? base '\n' = none := by
  simp [digitValue?, h]

theorem readCodePoint_bad {text : List Char} {c : Char} (brace : text.head? ≠ some '{')
    (mem : c ∈ text.take 4) (bad : digitValue? 16 c = none) : readCodePoint text = none := by
  unfold readCodePoint
  split
  · exact (brace rfl).elim
  · simp only [List.take_succ_cons, List.take_zero, List.mem_cons, List.not_mem_nil, or_false]
      at mem
    rcases mem with rfl | rfl | rfl | rfl <;> simp [bad]
  · rfl

theorem readCodePoint_line (text : List Char) :
    readCodePoint (text ++ '\n' :: more) = (readCodePoint text).map (further more) := by
  have line := digitValue?_line (Nat.le_refl 16)
  by_cases brace : text.head? = some '{'
  · -- any number of digits, which the line end stops
    obtain ⟨rest, rfl⟩ := List.head?_eq_some_iff.mp brace
    have stops : (digitValue? 16 '\n').isSome = false := by rw [line]; rfl
    simp only [List.cons_append, readCodePoint, drop_takeWhile_line,
      takeWhile_line (p := fun c => (digitValue? 16 c).isSome) stops]
    generalize rest.takeWhile _ = digits
    rcases digits with _ | ⟨d, ds⟩
    · rfl
    rcases rest.drop _ with _ | ⟨c, left⟩
    · rfl
    by_cases close : c = '}'
    · subst close
      simp only [List.cons_append]
      split <;> rfl
    · simp [close]
  by_cases short : text.length < 4
  · -- the line end is one of the four characters that have to be digits
    have alone : readCodePoint text = none := by
      rcases text with _ | ⟨a, _ | ⟨b, _ | ⟨c, _ | ⟨d, rest⟩⟩⟩⟩
      case cons.cons.cons.cons =>
        simp only [List.length_cons] at short
        omega
      all_goals exact readCodePoint.eq_3 _ (fun rest same => brace (by rw [same]; rfl)) nofun
    have inside : '\n' ∈ (text ++ '\n' :: more).take 4 := by
      have room : 4 - text.length = 3 - text.length + 1 := by omega
      rw [List.take_append, room]
      exact List.mem_append_right _ List.mem_cons_self
    have first : (text ++ '\n' :: more).head? ≠ some '{' := by
      cases text with
      | nil => simp
      | cons a rest => exact brace
    rw [alone, readCodePoint_bad first inside line]
    rfl
  · rcases text with _ | ⟨a, _ | ⟨b, _ | ⟨c, _ | ⟨d, rest⟩⟩⟩⟩
    case cons.cons.cons.cons =>
      have other : a ≠ '{' := by simpa using brace
      simp only [List.cons_append]
      rw [readCodePoint.eq_2 _ _ _ _ _ (by simpa using other),
        readCodePoint.eq_2 _ _ _ _ _ (by simpa using other)]
      cases digitValue? 16 a <;> cases digitValue? 16 b <;> cases digitValue? 16 c <;>
        cases digitValue? 16 d <;> rfl
    all_goals simp at short

theorem readCodePoint_length {text rest : List Char} {code : Nat}
    (h : readCodePoint text = some (code, rest)) : rest.length < text.length := by
  unfold readCodePoint at h
  split at h
  · rename_i tail
    dsimp only at h
    split at h
    · rename_i close
      split at h
      · cases h
        have := congrArg List.length close
        simp only [List.length_drop, List.length_cons] at this ⊢
        omega
      · cases h
    · cases h
  · simp only [Option.bind_eq_bind, Option.bind_eq_some_iff] at h
    obtain ⟨_, -, _, -, _, -, _, -, same⟩ := h
    cases same
    simp only [List.length_cons]
    omega
  · cases h

theorem readName_line {accepts : Char → Bool} (line : accepts '\n' = false) {rounds rounds' : Nat}
    {text : List Char} (enough : text.length < rounds) (enough' : text.length < rounds') :
    readName accepts rounds' (text ++ '\n' :: more) =
      (readName accepts rounds text).map fun (cs, escaped, rest) =>
        (cs, escaped, rest ++ '\n' :: more) := by
  induction rounds generalizing text rounds' accepts with
  | zero => omega
  | succ rounds ih =>
    obtain ⟨rounds', rfl⟩ : ∃ n, rounds' = n + 1 := ⟨rounds' - 1, by omega⟩
    have continues : continuesName '\n' = false := by decide
    rcases text with _ | ⟨c, rest⟩
    · simp [readName, line]
    rw [List.length_cons] at enough enough'
    by_cases slash : c = '\\'
    · subst slash
      rcases rest with _ | ⟨d, rest⟩
      · simp [readName]
      by_cases unicode : d = 'u'
      · subst unicode
        simp only [List.cons_append, readName, readCodePoint_line]
        cases point : readCodePoint rest with
        | none => rfl
        | some read =>
          have shorter := readCodePoint_length point
          rw [List.length_cons] at enough enough'
          simp only [Option.map_some, further]
          split
          · rw [ih continues (by omega) (by omega), Option.map_map, Option.map_map]
            rfl
          · rfl
      · simp [readName, unicode]
    · rw [List.cons_append, readName.eq_4 _ _ _ _ (fun _ same _ => slash same) slash,
        readName.eq_4 _ _ _ _ (fun _ same _ => slash same) slash]
      split
      · rw [ih continues (by omega) (by omega), Option.map_map, Option.map_map]
        rfl
      · rfl

theorem readDigits_line {base : Nat} (h : base ≤ 16) (afterDigit : Bool) (text : List Char) :
    readDigits base afterDigit (text ++ '\n' :: more) =
      (readDigits base afterDigit text).map (further more) := by
  have line := digitValue?_line h
  induction text generalizing afterDigit with
  | nil => simp [readDigits, line, further]
  | cons c rest ih =>
    by_cases underscore : c = '_'
    · subst underscore
      have head : (rest ++ '\n' :: more).head?.any (fun c => (digitValue? base c).isSome) =
          rest.head?.any fun c => (digitValue? base c).isSome := by
        cases rest with
        | nil => simp [line]
        | cons d rest => rfl
      rw [List.cons_append, readDigits, readDigits, head, ih]
      split <;> rfl
    · rw [List.cons_append, readDigits.eq_3 _ _ _ _ underscore,
        readDigits.eq_3 _ _ _ _ underscore]
      cases digitValue? base c with
      | none => rfl
      | some d =>
        dsimp only
        rw [ih, Option.map_map, Option.map_map]
        rfl

theorem endsNumber_line (token : Token) (rest : List Char) :
    endsNumber token (rest ++ '\n' :: more) = (endsNumber token rest).map (further more) := by
  cases rest with
  | nil => rfl
  | cons c rest =>
    simp only [List.cons_append, endsNumber]
    split <;> rfl

theorem readRadix_line {base : Nat} (h : base ≤ 16) (text : List Char) :
    readRadix base (text ++ '\n' :: more) = (readRadix base text).map (further more) := by
  rw [readRadix, readRadix, readDigits_line h]
  cases readDigits base false text with
  | none => rfl
  | some read =>
    obtain ⟨digits, rest⟩ := read
    simp only [Option.map_some, Option.bind_eq_bind, Option.bind_some, further]
    split
    · rfl
    rcases rest with _ | ⟨c, rest⟩
    · rfl
    by_cases big : c = 'n'
    · subst big
      exact endsNumber_line _ rest
    · simpa [big] using endsNumber_line (number (.ofDecimal (natOfDigits base digits) 0)) (c :: rest)

theorem readPower_line (text : List Char) :
    readPower (text ++ '\n' :: more) = (readPower text).map (further more) := by
  rw [readPower, readPower, readDigits_line (by decide)]
  cases readDigits 10 false text with
  | none => rfl
  | some read =>
    simp only [Option.map_some, Option.bind_eq_bind, Option.bind_some, further]
    split <;> rfl

theorem readSignedPower_line (text : List Char) :
    readSignedPower (text ++ '\n' :: more) = (readSignedPower text).map (further more) := by
  rcases text with _ | ⟨c, rest⟩
  · exact readPower_line []
  by_cases plus : c = '+'
  · subst plus
    exact readPower_line rest
  by_cases minus : c = '-'
  · subst minus
    simp only [List.cons_append, readSignedPower, readPower_line, Option.map_map]
    rfl
  · simpa [readSignedPower, plus, minus] using readPower_line (c :: rest)

theorem readExponent_line (text : List Char) :
    readExponent (text ++ '\n' :: more) = (readExponent text).map (further more) := by
  rcases text with _ | ⟨c, rest⟩
  · rfl
  simp only [List.cons_append, readExponent]
  split
  · exact readSignedPower_line rest
  · rfl

theorem readFraction_line (text : List Char) :
    readFraction (text ++ '\n' :: more) = (readFraction text).map (further more) := by
  rcases text with _ | ⟨c, rest⟩
  · rfl
  by_cases point : c = '.'
  · subst point
    exact readDigits_line (by decide) false rest
  · simp [readFraction, point, further]

theorem readDecimal_line (text : List Char) :
    readDecimal (text ++ '\n' :: more) = (readDecimal text).map (further more) := by
  rw [readDecimal, readDecimal, readDigits_line (by decide)]
  cases readDigits 10 false text with
  | none => rfl
  | some read =>
    obtain ⟨whole, rest⟩ := read
    have fractional (rest : List Char) :
        ((readFraction (rest ++ '\n' :: more)).bind fun read => (readExponent read.2).bind fun power =>
          if whole = [] ∧ read.1 = [] then none
          else endsNumber (number (.ofDecimal (natOfDigits 10 (whole ++ read.1))
            (power.1 - read.1.length))) power.2) =
          ((readFraction rest).bind fun read => (readExponent read.2).bind fun power =>
            if whole = [] ∧ read.1 = [] then none
            else endsNumber (number (.ofDecimal (natOfDigits 10 (whole ++ read.1))
              (power.1 - read.1.length))) power.2).map (further more) := by
      rw [readFraction_line]
      cases readFraction rest with
      | none => rfl
      | some read =>
        simp only [Option.map_some, Option.bind_some, further, readExponent_line]
        cases readExponent read.2 with
        | none => rfl
        | some power =>
          simp only [Option.map_some, Option.bind_some, further]
          split
          · rfl
          · exact endsNumber_line _ _
    simp only [Option.map_some, Option.bind_eq_bind, Option.bind_some, further]
    rcases rest with _ | ⟨c, rest⟩
    · exact fractional []
    by_cases big : c = 'n'
    · subst big
      simp only [List.cons_append]
      split
      · rfl
      · exact endsNumber_line _ rest
    · simpa [big] using fractional (c :: rest)

theorem readLegacy_line (text : List Char) :
    readLegacy (text ++ '\n' :: more) = (readLegacy text).map (further more) := by
  simp only [readLegacy, takeWhile_line (p := Char.isDigit) (by decide), drop_takeWhile_line]
  split
  · exact endsNumber_line _ _
  · exact readDecimal_line text

theorem readNumber_line (text : List Char) :
    readNumber (text ++ '\n' :: more) = (readNumber text).map (further more) := by
  have decimal : readDecimal (text ++ '\n' :: more) = _ := readDecimal_line text
  rcases text with _ | ⟨a, rest⟩
  · exact decimal
  by_cases zero : a = '0'
  · subst zero
    rcases rest with _ | ⟨c, rest⟩
    · exact decimal
    simp only [List.cons_append, readNumber] at decimal ⊢
    split
    · exact readRadix_line (by decide) rest
    split
    · exact readRadix_line (by decide) rest
    split
    · exact readRadix_line (by decide) rest
    split
    · exact readLegacy_line ('0' :: c :: rest)
    split
    · rfl
    · exact decimal
  · simpa [readNumber, zero] using decimal

theorem after?_line {mark : List Char} (h : '\n' ∉ mark) (text : List Char) :
    after? mark (text ++ '\n' :: more) = (after? mark text).map (· ++ '\n' :: more) := by
  induction mark generalizing text with
  | nil => rfl
  | cons c mark ih =>
    obtain ⟨other, inside⟩ := not_or.mp (mt List.mem_cons.mpr h)
    rcases text with _ | ⟨d, text⟩
    · simp [after?, Ne.symm other]
    · simp only [List.cons_append, after?]
      split
      · exact ih inside text
      · rfl

theorem firstMark_line (more text : List Char) (ms : List (List Char)) (free : ∀ m ∈ ms, '\n' ∉ m) :
    (ms.findSome? fun m => (after? m (text ++ '\n' :: more)).map fun rest =>
        (mark (String.ofList m), rest)) =
      (ms.findSome? fun m => (after? m text).map fun rest =>
        (mark (String.ofList m), rest)).map (further more) := by
  induction ms with
  | nil => rfl
  | cons m ms ih =>
    obtain ⟨first, later⟩ := List.forall_mem_cons.mp free
    rw [List.findSome?_cons, List.findSome?_cons, after?_line first, ih later]
    cases after? m text <;> rfl

theorem readMark_line {text : List Char} (h : text ≠ []) :
    readMark (text ++ '\n' :: more) = (readMark text).map (further more) := by
  have marked := firstMark_line more text marks (by decide)
  -- whether `?.` is one mark depends on the character behind it
  by_cases optional : ∃ d rest, text = '?' :: '.' :: d :: rest
  · obtain ⟨d, rest, rfl⟩ := optional
    simp only [List.cons_append, readMark]
    split <;> rfl
  rw [readMark.eq_2 text fun d rest same => optional ⟨d, rest, same⟩]
  by_cases short : text = ['?', '.']
  · subst short
    rfl
  · rw [readMark.eq_2, marked]
    intro d rest same
    rcases text with _ | ⟨a, _ | ⟨b, _ | ⟨c, rest⟩⟩⟩
    · exact h rfl
    · simp at same
    · simp_all
    · simp at same
      exact optional ⟨c, rest, by simp [same]⟩

theorem readHexEscape_line (text : List Char) :
    readHexEscape (text ++ '\n' :: more) = further more (readHexEscape text) := by
  have line := digitValue?_line (Nat.le_refl 16)
  rcases text with _ | ⟨a, _ | ⟨b, rest⟩⟩
  · rcases more with _ | ⟨b, more⟩
    · rfl
    · simp [readHexEscape, line, further]
  · simp [readHexEscape, line, further]
  · simp only [List.cons_append, readHexEscape]
    cases digitValue? 16 a <;> cases digitValue? 16 b <;> rfl

theorem readPointEscape_line (text : List Char) :
    readPointEscape (text ++ '\n' :: more) = further more (readPointEscape text) := by
  rw [readPointEscape, readPointEscape, readCodePoint_line]
  cases readCodePoint text <;> rfl

theorem octalDigits_line (c : Char) (rest : List Char) :
    octalDigits c (rest ++ '\n' :: more) = octalDigits c rest := by
  have stops : (digitValue? 8 '\n').isSome = false := by decide
  simp only [octalDigits]
  generalize (if c ≤ '3' then 3 else 2) = most
  rw [← List.cons_append, List.take_append]
  cases most - (c :: rest).length with
  | zero => rw [List.take_zero, List.append_nil]
  | succ n => exact takeWhile_line (p := fun c => (digitValue? 8 c).isSome) stops _

theorem octalDigits_length (c : Char) (rest : List Char) :
    (octalDigits c rest).length ≤ rest.length + 1 :=
  Nat.le_trans (List.takeWhile_prefix _).length_le (List.length_take_le' _ _)

theorem readOctalEscape_line (c : Char) (rest : List Char) :
    readOctalEscape c (rest ++ '\n' :: more) = further more (readOctalEscape c rest) := by
  have dropped : (c :: rest ++ '\n' :: more).drop (octalDigits c rest).length =
      (c :: rest).drop (octalDigits c rest).length ++ '\n' :: more :=
    List.drop_append_of_le_length (octalDigits_length c rest)
  rw [List.cons_append] at dropped
  simp only [readOctalEscape, octalDigits_line, dropped]
  rfl

theorem readPlainEscape_line (c : Char) (rest : List Char) :
    readPlainEscape c (rest ++ '\n' :: more) = further more (readPlainEscape c rest) := by
  have head : (rest ++ '\n' :: more).head?.any Char.isDigit = rest.head?.any Char.isDigit := by
    cases rest <;> rfl
  rw [readPlainEscape, readPlainEscape, head, readOctalEscape_line]
  split
  · rfl
  cases controlLetters.lookup c with
  | some control => rfl
  | none =>
    dsimp only
    split
    · rfl
    split
    · rfl
    split <;> rfl

theorem readEscape_line {text : List Char} (h : text ≠ []) (h' : text ≠ ['\r']) :
    readEscape (text ++ '\n' :: more) = further more (readEscape text) := by
  obtain ⟨c, rest, rfl⟩ := List.exists_cons_of_ne_nil h
  have head : (c == '\r') = true ∧ (rest ++ '\n' :: more).head? = some '\n' ↔
      (c == '\r') = true ∧ rest.head? = some '\n' := by
    cases rest with
    | nil =>
      have other : (c == '\r') = false := by simpa using h'
      simp [other]
    | cons d rest => rfl
  simp only [List.cons_append, readEscape, head]
  split_ifs with hex point line
  · exact readHexEscape_line rest
  · exact readPointEscape_line rest
  · obtain ⟨tail, rfl⟩ := List.head?_eq_some_iff.mp line.2
    rfl
  · exact readPlainEscape_line c rest

theorem readEscape_last (more : List Char) {text : List Char} (last : text = [] ∨ text = ['\r']) :
    (readEscape text).2 = [] ∧ readEscape (text ++ '\n' :: more) = (.units [], more) := by
  rcases last with rfl | rfl <;> exact ⟨rfl, rfl⟩

theorem readHexEscape_length (text : List Char) :
    (readHexEscape text).2.length ≤ text.length := by
  unfold readHexEscape
  split
  · split
    · simp only [List.length_cons]
      omega
    · exact Nat.le_refl _
  · exact Nat.le_refl _

theorem readPointEscape_length (text : List Char) :
    (readPointEscape text).2.length ≤ text.length := by
  unfold readPointEscape
  split
  · exact Nat.le_of_lt (readCodePoint_length ‹_›)
  · exact Nat.le_refl _

theorem readPlainEscape_length (c : Char) (rest : List Char) :
    (readPlainEscape c rest).2.length ≤ rest.length + 1 := by
  have dropped : (readOctalEscape c rest).2.length ≤ rest.length + 1 :=
    (List.drop_sublist ..).length_le
  rw [readPlainEscape]
  split
  · exact Nat.le_succ _
  cases controlLetters.lookup c with
  | some control => exact Nat.le_succ _
  | none =>
    dsimp only
    split
    · exact Nat.le_succ _
    split
    · exact dropped
    split <;> exact Nat.le_succ _

theorem readEscape_length (text : List Char) : (readEscape text).2.length ≤ text.length := by
  cases text with
  | nil => exact Nat.le_refl _
  | cons c rest =>
    rw [readEscape, List.length_cons]
    split_ifs
    · exact Nat.le_succ_of_le (readHexEscape_length rest)
    · exact Nat.le_succ_of_le (readPointEscape_length rest)
    · exact Nat.le_succ_of_le (List.drop_sublist ..).length_le
    · exact readPlainEscape_length c rest

theorem readString_quiet {quote : Char} (isQuote : quote = '"' ∨ quote = '\x27') (rounds : Nat)
    (quiet : Quiet more) : readString quote rounds more = none := by
  induction rounds generalizing more with
  | zero => rfl
  | succ rounds ih =>
    rcases more with _ | ⟨c, more⟩
    · rfl
    have unquoted : c ≠ quote := by rcases isQuote with rfl | rfl <;> exact quiet.head_ne
    rw [readString.eq_4 _ _ _ _ quiet.head_ne, if_neg (by simpa using unquoted), ih quiet.of_cons]
    split <;> rfl

theorem readString_line {quote : Char} (isQuote : quote = '"' ∨ quote = '\x27')
    (quiet : Quiet more) {rounds rounds' : Nat} {text : List Char} (enough : text.length < rounds)
    (enough' : text.length < rounds') :
    readString quote rounds' (text ++ '\n' :: more) =
      (readString quote rounds text).map (further more) := by
  induction rounds generalizing text rounds' with
  | zero => omega
  | succ rounds ih =>
    obtain ⟨rounds', rfl⟩ : ∃ n, rounds' = n + 1 := ⟨rounds' - 1, by omega⟩
    rcases text with _ | ⟨c, rest⟩
    · rcases isQuote with rfl | rfl <;> rfl
    rw [List.length_cons] at enough enough'
    by_cases slash : c = '\\'
    · subst slash
      rw [List.cons_append, readString, readString]
      by_cases last : rest = [] ∨ rest = ['\r']
      · -- the escape takes the line end, and the string is not closed behind it
        obtain ⟨alone, taken⟩ := readEscape_last more last
        rw [taken]
        dsimp only
        rw [readString_quiet isQuote rounds' quiet]
        generalize readEscape rest = escape at alone ⊢
        obtain ⟨value, left⟩ := escape
        obtain rfl : left = [] := alone
        cases value with
        | broken => rfl
        | units us | legacy us =>
          dsimp only
          rw [readString_quiet isQuote rounds .nil]
          rfl
      · obtain ⟨notEmpty, notReturn⟩ := not_or.mp last
        have shorter := readEscape_length rest
        rw [readEscape_line notEmpty notReturn]
        generalize readEscape rest = escape at shorter ⊢
        rcases escape with ⟨us | us | _, left⟩
        case broken => rfl
        all_goals
          dsimp only [further] at shorter ⊢
          rw [ih (by omega) (by omega), Option.map_map, Option.map_map]
          rfl
    · rw [List.cons_append, readString.eq_4 _ _ _ _ slash, readString.eq_4 _ _ _ _ slash]
      split
      · rfl
      split
      · rfl
      · rw [ih (by omega) (by omega), Option.map_map, Option.map_map]
        rfl

theorem readTemplate_quiet (rounds : Nat) (quiet : Quiet more) :
    readTemplate rounds more = none := by
  induction rounds generalizing more with
  | zero => rfl
  | succ rounds ih =>
    rcases more with _ | ⟨c, more⟩
    · rfl
    have backtick : (c == '\x60') = false := by simpa using quiet.head_ne
    have dollar : (c == '$') = false := by simpa using quiet.head_ne
    have slash : (c == '\\') = false := by simpa using quiet.head_ne
    have tail : Quiet (if more.head? = some '\n' then more.drop 1 else more) := by
      split
      · exact quiet.of_cons.drop 1
      · exact quiet.of_cons
    rw [readTemplate]
    dsimp only
    rw [if_neg (by simp [backtick]), if_neg (by simp [dollar]), ih tail, ih quiet.of_cons, slash]
    split <;> rfl

theorem readTemplate_line (quiet : Quiet more) {rounds rounds' : Nat} {text : List Char}
    (enough : text.length < rounds) (enough' : text.length < rounds') :
    readTemplate rounds' (text ++ '\n' :: more) =
      (readTemplate rounds text).map fun (cooked, isLast, rest) =>
        (cooked, isLast, rest ++ '\n' :: more) := by
  induction rounds generalizing text rounds' with
  | zero => omega
  | succ rounds ih =>
    obtain ⟨rounds', rfl⟩ : ∃ n, rounds' = n + 1 := ⟨rounds' - 1, by omega⟩
    rcases text with _ | ⟨c, rest⟩
    · simp [readTemplate, readTemplate_quiet rounds' quiet]
    rw [List.length_cons] at enough enough'
    have brace : (rest ++ '\n' :: more).head? = some '\x7b' ↔ rest.head? = some '\x7b' := by
      cases rest <;> simp
    rw [List.cons_append, readTemplate, readTemplate]
    simp only [brace]
    split
    · rfl
    split
    · rename_i substitution
      obtain ⟨tail, rfl⟩ := List.head?_eq_some_iff.mp substitution.2
      rfl
    split
    · -- a carriage return takes a line feed behind it
      rcases rest with _ | ⟨d, tail⟩
      · simp [readTemplate_quiet rounds' quiet, readTemplate_quiet rounds .nil]
      · rw [List.length_cons] at enough enough'
        simp only [List.cons_append, List.head?_cons, List.drop_succ_cons, List.drop_zero]
        split
        · rw [ih (by omega) (by omega), Option.map_map, Option.map_map]
          rfl
        · have next : readTemplate rounds' (d :: tail ++ '\n' :: more) = _ :=
            ih (by rw [List.length_cons]; omega) (by rw [List.length_cons]; omega)
          rw [List.cons_append] at next
          rw [next, Option.map_map, Option.map_map]
          rfl
    split
    · by_cases last : rest = [] ∨ rest = ['\r']
      · -- the escape takes the line end, and the template is not closed behind it
        obtain ⟨alone, taken⟩ := readEscape_last more last
        rw [taken]
        dsimp only
        rw [readTemplate_quiet rounds' quiet]
        generalize readEscape rest = escape at alone ⊢
        obtain ⟨value, left⟩ := escape
        obtain rfl : left = [] := alone
        cases value <;> dsimp only <;> rw [readTemplate_quiet rounds .nil] <;> rfl
      · obtain ⟨notEmpty, notReturn⟩ := not_or.mp last
        have shorter := readEscape_length rest
        rw [readEscape_line notEmpty notReturn]
        generalize readEscape rest = escape at shorter ⊢
        rcases escape with ⟨us | us | _, left⟩
        all_goals
          dsimp only [further] at shorter ⊢
          rw [ih (by omega) (by omega), Option.map_map, Option.map_map]
          rfl
    · rw [ih (by omega) (by omega), Option.map_map, Option.map_map]
      rfl

theorem span_line (text rest : List Char) (closing : Nat) :
    span (text ++ '\n' :: more) (rest ++ '\n' :: more) closing = span text rest closing := by
  have same : (text ++ '\n' :: more).length - (rest ++ '\n' :: more).length - closing =
      text.length - rest.length - closing := by
    simp only [List.length_append]
    omega
  rw [span, span, same]
  exact List.take_append_of_le_length (by omega)

theorem templateFrom_line (quiet : Quiet more) (text : List Char) :
    templateFrom (text ++ '\n' :: more) = (templateFrom text).map (further more) := by
  have longer : text.length < (text ++ '\n' :: more).length + 1 := by
    rw [List.length_append]
    omega
  rw [templateFrom, templateFrom, readTemplate_line quiet (Nat.lt_succ_self _) longer,
    Option.map_map, Option.map_map]
  refine congrArg (Option.map · _) (funext fun _ => ?_)
  simp only [Function.comp_apply, span_line]
  rfl

theorem read_line (quiet : Quiet more) {text : List Char} (h : text ≠ []) :
    read (text ++ '\n' :: more) = (read text).map (further more) := by
  obtain ⟨c, rest, rfl⟩ := List.exists_cons_of_ne_nil h
  have longer : rest.length < (rest ++ '\n' :: more).length + 1 := by
    rw [List.length_append]
    omega
  have digit : (rest ++ '\n' :: more).head?.any Char.isDigit = rest.head?.any Char.isDigit := by
    cases rest <;> rfl
  have number : readNumber (c :: rest ++ '\n' :: more) = _ := readNumber_line (c :: rest)
  have starts : startsName '\n' = false := by decide
  rw [List.cons_append] at number ⊢
  simp only [read, digit]
  split
  · rename_i quote
    have isQuote : c = '"' ∨ c = '\x27' := by simpa using quote
    rw [readString_line isQuote quiet (Nat.lt_succ_self _) longer, Option.map_map, Option.map_map]
    refine congrArg (Option.map · _) (funext fun _ => ?_)
    simp only [Function.comp_apply, further, span_line]
  split
  · exact templateFrom_line quiet rest
  split
  · exact number
  split
  · exact number
  split
  · rw [readName_line starts (Nat.lt_succ_self _) longer]
    rcases readName startsName (rest.length + 1) rest with _ | ⟨_ | ⟨d, ds⟩, escaped, left⟩ <;> rfl
  split
  · have named : readName startsName ((c :: (rest ++ '\n' :: more)).length + 1)
        (c :: rest ++ '\n' :: more) = _ :=
      readName_line starts (Nat.lt_succ_self (c :: rest).length) (Nat.succ_lt_succ longer)
    rw [List.cons_append] at named
    rw [named]
    rcases readName startsName ((c :: rest).length + 1) (c :: rest) with
      _ | ⟨_ | ⟨d, ds⟩, escaped, left⟩ <;> rfl
  · exact readMark_line h

theorem readRegexBody_line {rounds rounds' : Nat} {inClass : Bool} {text : List Char}
    (enough : text.length < rounds) (enough' : text.length < rounds') :
    readRegexBody rounds' inClass (text ++ '\n' :: more) =
      (readRegexBody rounds inClass text).map (further more) := by
  induction rounds generalizing text rounds' inClass with
  | zero => omega
  | succ rounds ih =>
    obtain ⟨rounds', rfl⟩ : ∃ n, rounds' = n + 1 := ⟨rounds' - 1, by omega⟩
    rcases text with _ | ⟨c, rest⟩
    · rfl
    rw [List.length_cons] at enough enough'
    by_cases escaped : c = '\\' ∧ rest ≠ []
    · obtain ⟨rfl, notEmpty⟩ := escaped
      obtain ⟨d, tail, rfl⟩ := List.exists_cons_of_ne_nil notEmpty
      rw [List.length_cons] at enough enough'
      simp only [List.cons_append, readRegexBody]
      split
      · rfl
      · rw [ih (by omega) (by omega), Option.map_map, Option.map_map]
        rfl
    by_cases slash : c = '\\'
    · -- a backslash at the end escapes the line end, which no expression goes over
      have last : rest = [] := Decidable.byContradiction fun some => escaped ⟨slash, some⟩
      subst slash last
      cases rounds <;> rfl
    · rw [List.cons_append, readRegexBody.eq_4 _ _ _ _ fun _ _ same _ => slash same,
        readRegexBody.eq_4 _ _ _ _ fun _ _ same _ => slash same]
      split
      · rfl
      split
      · rfl
      · dsimp only
        rw [ih (by omega) (by omega), Option.map_map, Option.map_map]
        rfl

theorem readRegex_line {text rest : List Char} {body flags : String}
    (h : readRegex text = some (body, flags, rest)) :
    readRegex (text ++ '\n' :: more) = some (body, flags, rest ++ '\n' :: more) := by
  have longer : text.length < (text ++ '\n' :: more).length + 1 := by
    rw [List.length_append]
    omega
  rw [readRegex] at h ⊢
  rw [readRegexBody_line (Nat.lt_succ_self _) longer]
  cases found : readRegexBody (text.length + 1) false text with
  | none =>
    rw [found] at h
    cases h
  | some read =>
    rw [found] at h
    have stops : continuesName '\n' = false := by decide
    simp only [Option.map_some, further, takeWhile_line stops, drop_takeWhile_line] at h ⊢
    generalize read.2.drop _ = left at h ⊢
    have head : (left ++ '\n' :: more).head? = some '\\' ↔ left.head? = some '\\' := by
      cases left <;> simp
    simp only [head]
    split at h
    · cases h
    · rename_i plain
      rw [if_neg plain]
      obtain ⟨ordered, known, same⟩ := Option.map_eq_some_iff.mp h
      cases same
      rw [known]
      rfl

end Token

theorem readBlockComment_quiet (quiet : Quiet more) : readBlockComment more = none := by
  induction more with
  | nil => rfl
  | cons c more ih =>
    rw [readBlockComment.eq_3 _ _ fun _ same _ => absurd same quiet.head_ne, ih quiet.of_cons]
    rfl

theorem readBlockComment_line (quiet : Quiet more) (text : List Char) :
    readBlockComment (text ++ '\n' :: more) = (readBlockComment text).map (further more) := by
  induction text with
  | nil =>
    rw [List.nil_append, readBlockComment.eq_3 _ _ (by simp), readBlockComment_quiet quiet]
    rfl
  | cons c rest ih =>
    by_cases closed : c = '*' ∧ rest.head? = some '/'
    · obtain ⟨rfl, slash⟩ := closed
      obtain ⟨tail, rfl⟩ := List.head?_eq_some_iff.mp slash
      rfl
    · have alone (tail : List Char) (star : c = '*') (slash : rest = '/' :: tail) : False :=
        closed ⟨star, by rw [slash]; rfl⟩
      have goesOn (tail : List Char) (star : c = '*') (slash : rest ++ '\n' :: more = '/' :: tail) :
          False := by
        refine closed ⟨star, ?_⟩
        rcases rest with _ | ⟨d, rest⟩
        · simp at slash
        · exact congrArg List.head? slash
      rw [List.cons_append, readBlockComment.eq_3 _ _ goesOn, readBlockComment.eq_3 _ _ alone, ih,
        Option.map_map, Option.map_map]
      rfl

theorem readBlockComment_length {text inside rest : List Char}
    (h : readBlockComment text = some (inside, rest)) : rest.length ≤ text.length := by
  induction text generalizing inside with
  | nil => cases h
  | cons c tail ih =>
    unfold readBlockComment at h
    split at h
    · cases h
    · rename_i same
      cases h
      rw [same]
      simp only [List.length_cons]
      omega
    · rename_i same
      cases same
      obtain ⟨read, found, same⟩ := Option.map_eq_some_iff.mp h
      cases same
      exact Nat.le_succ_of_le (ih found)

theorem startsComment_line (startsLine : Bool) (text : List Char) :
    startsComment startsLine (text ++ '\n' :: more) = startsComment startsLine text := by
  have slashes : '\n' ∉ ['/', '/'] := by decide
  have less : '\n' ∉ ['<', '!', '-', '-'] := by decide
  have arrow : '\n' ∉ ['-', '-', '>'] := by decide
  simp only [startsComment, Token.after?_line slashes, Token.after?_line less,
    Token.after?_line arrow, Option.isSome_map]

theorem startsComment_cons {startsLine : Bool} {c : Char} {rest : List Char}
    (h : startsComment startsLine (c :: rest) = true) : isLineEnd c = false := by
  have first : c = '/' ∨ c = '<' ∨ c = '-' := by
    refine Decidable.byContradiction fun other => ?_
    obtain ⟨slash, less, minus⟩ : c ≠ '/' ∧ c ≠ '<' ∧ c ≠ '-' := by simpa only [not_or] using other
    simp [startsComment, Token.after?, Ne.symm slash, Ne.symm less, Ne.symm minus] at h
  rcases first with rfl | rfl | rfl <;> decide

theorem after?_length {mark text rest : List Char} (h : Token.after? mark text = some rest) :
    text.length = mark.length + rest.length := by
  induction mark generalizing text with
  | nil =>
    cases h
    simp
  | cons c mark ih =>
    rcases text with _ | ⟨d, text⟩
    · cases h
    · rw [Token.after?] at h
      split at h
      · have := ih h
        simp only [List.length_cons]
        omega
      · cases h

/-- Where the gap after a text ends if the text goes on: in the next line, if there is no token. -/
def furtherGap (more : List Char) : Gap × List Char → Gap × List Char
  | (gap, []) => (gap.newline, more)
  | (gap, rest) => (gap, rest ++ '\n' :: more)

theorem skipGap_brace (opened : Bool) (rounds : Nat) (gap : Gap) (more : List Char) :
    skipGap opened rounds gap ('\x7d' :: more) = some (gap, '\x7d' :: more) := by
  cases rounds with
  | zero => rfl
  | succ rounds =>
    have noComment : startsComment gap.startsLine ('\x7d' :: more) = false := by
      simp [startsComment, Token.after?]
    rw [skipGap, noComment]
    rfl

theorem skipGap_line {opened : Bool} {later : List Char} (quiet : Quiet ('\x7d' :: later))
    {rounds rounds' : Nat} {gap : Gap} {text : List Char} (enough : text.length < rounds)
    (enough' : text.length < rounds') :
    skipGap opened rounds' gap (text ++ '\n' :: '\x7d' :: later) =
      (skipGap opened rounds gap text).map (furtherGap ('\x7d' :: later)) := by
  induction rounds generalizing rounds' gap text with
  | zero => omega
  | succ rounds ih =>
    obtain ⟨rounds', rfl⟩ : ∃ n, rounds' = n + 1 := ⟨rounds' - 1, by omega⟩
    rcases text with _ | ⟨c, rest⟩
    · -- the line end is one more gap, which the brace behind it ends
      have alone : skipGap opened (rounds + 1) gap [] = some (gap, []) := by
        simp [skipGap, startsComment, Token.after?]
      have noComment : startsComment gap.startsLine ('\n' :: '\x7d' :: later) = false := by
        simp [startsComment, Token.after?]
      rw [List.nil_append, alone, skipGap, noComment]
      exact skipGap_brace opened rounds' gap.newline later
    have commented : startsComment gap.startsLine (c :: rest ++ '\n' :: '\x7d' :: later) = _ :=
      startsComment_line gap.startsLine (c :: rest)
    have blockMark : '\n' ∉ ['/', '*'] := by decide
    have marked : Token.after? ['/', '*'] (c :: rest ++ '\n' :: '\x7d' :: later) = _ :=
      Token.after?_line blockMark (c :: rest)
    rw [List.length_cons] at enough enough'
    rw [List.cons_append] at commented marked ⊢
    rw [skipGap, skipGap, commented, marked]
    split
    · -- a comment ends with its line, so it does not take the line end of the longer text
      rename_i isComment
      have outside : (!isLineEnd '\n') = false := by decide
      have taken : ((c :: rest).takeWhile fun c => !isLineEnd c).length =
          (rest.takeWhile fun c => !isLineEnd c).length + 1 := by
        simp [startsComment_cons isComment]
      dsimp only
      rw [← List.cons_append, takeWhile_line (p := fun c => !isLineEnd c) outside,
        drop_takeWhile_line]
      exact ih (by simp only [List.length_drop, List.length_cons, taken]; omega)
        (by simp only [List.length_drop, List.length_cons, taken]; omega)
    cases block : Token.after? ['/', '*'] (c :: rest) with
    | some inside =>
      have shorter : rest.length + 1 = 2 + inside.length := after?_length block
      simp only [Option.map_some]
      rw [readBlockComment_line quiet]
      cases read : readBlockComment inside with
      | none => rfl
      | some found =>
        have := readBlockComment_length read
        exact ih (by omega) (by omega)
    | none =>
      dsimp only [Option.map_none]
      split
      · exact ih (by omega) (by omega)
      split
      · exact ih (by omega) (by omega)
      · rfl

namespace Token

theorem endsNumber_token {token t : Token} {rest left : List Char}
    (h : endsNumber token rest = some (t, left)) : t = token := by
  unfold endsNumber at h
  split at h
  · split at h <;> cases h
    rfl
  · cases h
    rfl

theorem readRadix_ne_ending {base : Nat} {text rest : List Char} {t : Token}
    (h : readRadix base text = some (t, rest)) : t ≠ .ending := by
  obtain ⟨read, -, h⟩ := Option.bind_eq_some_iff.mp h
  dsimp only at h
  split at h
  · cases h
  split at h <;> (rw [endsNumber_token h]; nofun)

theorem readDecimal_ne_ending {text rest : List Char} {t : Token}
    (h : readDecimal text = some (t, rest)) : t ≠ .ending := by
  obtain ⟨read, -, h⟩ := Option.bind_eq_some_iff.mp h
  dsimp only at h
  split at h
  · split at h
    · cases h
    · rw [endsNumber_token h]
      nofun
  · obtain ⟨fraction, -, h⟩ := Option.bind_eq_some_iff.mp h
    obtain ⟨power, -, h⟩ := Option.bind_eq_some_iff.mp h
    split at h
    · cases h
    · rw [endsNumber_token h]
      nofun

theorem readLegacy_ne_ending {text rest : List Char} {t : Token}
    (h : readLegacy text = some (t, rest)) : t ≠ .ending := by
  unfold readLegacy at h
  dsimp only at h
  split at h
  · rw [endsNumber_token h]
    nofun
  · exact readDecimal_ne_ending h

theorem readNumber_ne_ending {text rest : List Char} {t : Token}
    (h : readNumber text = some (t, rest)) : t ≠ .ending := by
  unfold readNumber at h
  split at h
  · split at h
    · exact readRadix_ne_ending h
    split at h
    · exact readRadix_ne_ending h
    split at h
    · exact readRadix_ne_ending h
    split at h
    · exact readLegacy_ne_ending h
    split at h
    · cases h
    · exact readDecimal_ne_ending h
  · exact readDecimal_ne_ending h

theorem readMark_ne_ending {text rest : List Char} {t : Token}
    (h : readMark text = some (t, rest)) : t ≠ .ending := by
  unfold readMark at h
  split at h
  · split at h <;> cases h <;> nofun
  · obtain ⟨m, -, h⟩ := List.exists_of_findSome?_eq_some h
    obtain ⟨left, -, h⟩ := Option.map_eq_some_iff.mp h
    cases h
    nofun

theorem templateFrom_ne_ending {text rest : List Char} {t : Token}
    (h : templateFrom text = some (t, rest)) : t ≠ .ending := by
  obtain ⟨read, -, h⟩ := Option.map_eq_some_iff.mp h
  cases h
  nofun

theorem read_ne_ending {c : Char} {text rest : List Char} {t : Token}
    (h : read (c :: text) = some (t, rest)) : t ≠ .ending := by
  simp only [read] at h
  split at h
  · obtain ⟨read, -, h⟩ := Option.map_eq_some_iff.mp h
    cases h
    nofun
  split at h
  · exact templateFrom_ne_ending h
  split at h
  · exact readNumber_ne_ending h
  split at h
  · exact readNumber_ne_ending h
  split at h
  · split at h <;> cases h
    nofun
  split at h
  · split at h <;> cases h
    nofun
  · exact readMark_ne_ending h

end Token

end Bundler.Script
