import Bundler.Proofs.Script.Reading
import Bundler.Script.Parse.Goal

/-! A reader of scripts in a text and in the same text with a line end, a closing brace and more
behind it. What it reads in the first it also reads in the second, up to the brace. Two cursors run
side by side, and the rules for them follow the operations of a reader. -/

namespace Bundler.Script

/-- Two cursors on the same token, one in a text and one in the same text with more behind it. -/
structure Cursor.Inside (later : List Char) (c c' : Cursor) : Prop where
  more : c.here ≠ []
  token : c.token ≠ .ending
  same : c' = ⟨c.here ++ '\n' :: '\x7d' :: later, c.rest ++ '\n' :: '\x7d' :: later, c.token,
    c.afterBreak, c.notes⟩

/-- A cursor at the end of a text and one on the brace that follows it. -/
structure Cursor.AtEnd (later : List Char) (c c' : Cursor) : Prop where
  here : c.here = []
  rest : c.rest = []
  token : c.token = .ending
  brace : ∃ notes, c' = ⟨'\x7d' :: later, later, .mark "\x7d", true, notes⟩

theorem Cursor.Inside.drop_one {later : List Char} {c c' : Cursor} (h : c.Inside later c') :
    c'.here.drop 1 = c.here.drop 1 ++ '\n' :: '\x7d' :: later := by
  obtain ⟨first, rest, here⟩ := List.exists_cons_of_ne_nil h.more
  rw [h.same, here]
  rfl

theorem Cursor.Inside.token_eq {later : List Char} {c c' : Cursor} (h : c.Inside later c') :
    c'.token = c.token := by
  rw [h.same]

def Cursor.Meets (later : List Char) (c c' : Cursor) : Prop := c.Inside later c' ∨ c.AtEnd later c'

theorem Cursor.Meets.length_le {later : List Char} {c c' : Cursor} (h : c.Meets later c') :
    c.here.length ≤ c'.here.length := by
  rcases h with ⟨more, token, rfl⟩ | ⟨here, rest, token, notes, rfl⟩
  · simp only [List.length_append]
    omega
  · rw [here]
    exact Nat.zero_le _

namespace Cursor

variable {later : List Char}

theorem newline_startsLine (gap : Gap) : gap.newline.startsLine = true := by
  unfold Gap.newline
  split
  · rfl
  · split <;> rfl

theorem after_meets (quiet : Quiet ('\x7d' :: later)) (opened : Bool) (gap : Gap)
    (text : List Char) :
    match after opened gap text with
    | .error _ => after opened gap (text ++ '\n' :: '\x7d' :: later) = .error .unexpected
    | .ok c => ∃ c', after opened gap (text ++ '\n' :: '\x7d' :: later) = .ok c' ∧
        c.Meets later c' := by
  have longer : text.length < (text ++ '\n' :: '\x7d' :: later).length + 1 := by
    rw [List.length_append]
    omega
  rw [after, after, skipGap_line quiet (Nat.lt_succ_self _) longer]
  cases skipGap opened (text.length + 1) gap text with
  | none => rfl
  | some skipped =>
    obtain ⟨gap', here⟩ := skipped
    rcases here with _ | ⟨c, here⟩
    · -- the shorter text is at its end, and the longer one at the brace
      have brace : Token.read ('\x7d' :: later) = some (.mark "\x7d", later) := rfl
      have last : Token.read [] = some (.ending, []) := rfl
      simp only [Option.map_some, furtherGap, last]
      rw [brace, newline_startsLine]
      exact ⟨_, rfl, .inr ⟨rfl, rfl, rfl, _, rfl⟩⟩
    · have read : Token.read (c :: here ++ '\n' :: '\x7d' :: later) = _ :=
        Token.read_line quiet (List.cons_ne_nil c here)
      simp only [Option.map_some, furtherGap, read]
      cases found : Token.read (c :: here) with
      | none => rfl
      | some token =>
        exact ⟨_, rfl, .inl ⟨List.cons_ne_nil c here, Token.read_ne_ending found, rfl⟩⟩

end Cursor

namespace Parser

/-- Where two cursors that meet may be: inside the shorter text, at its end, or either. -/
inductive Meeting where
  | inside | atEnd | either

def Meeting.Holds (later : List Char) : Meeting → Cursor → Cursor → Prop
  | inside => Cursor.Inside later
  | atEnd => Cursor.AtEnd later
  | either => Cursor.Meets later

variable {α β : Type} {later : List Char} {p : Meeting} {x y : Parser α}
  {f g : α → Parser β}

theorem Meeting.meets {c c' : Cursor} : ∀ {p : Meeting}, p.Holds later c c' → c.Meets later c'
  | inside, h => .inl h
  | atEnd, h => .inr h
  | either, h => h

/-- What is read in a text is also read in the text that goes on behind it. -/
def Embeds (p : Meeting) (later : List Char) (x y : Parser α) : Prop :=
  ∀ c c', p.Holds later c c' → ∀ a next, x.run c = .ok (a, next) →
    ∃ next', y.run c' = .ok (a, next') ∧ next.Meets later next'

/-- What two cursors inside a text see behind their token. -/
inductive Ahead : Token × Bool → Token × Bool → Prop where
  | same (next : Token × Bool) : Ahead next next
  | last (lineBreak : Bool) : Ahead (.ending, lineBreak) (.mark "\x7d", true)

namespace Ahead

variable {next next' : Token × Bool}

theorem token_eq (h : Ahead next next') (token : Token) (ending : .ending ≠ token)
    (brace : .mark "\x7d" ≠ token) :
    (next.1 == token) = (next'.1 == token) := by
  cases h with
  | same => rfl
  | last => rw [beq_false_of_ne ending, beq_false_of_ne brace]

theorem onLine_eq (h : Ahead next next') (token : Token) (ending : .ending ≠ token)
    (brace : .mark "\x7d" ≠ token) :
    (next.1 == token && !next.2) = (next'.1 == token && !next'.2) := by
  cases h with
  | same => rfl
  | last => rw [beq_false_of_ne ending, beq_false_of_ne brace]; rfl

end Ahead

/-- Nothing is read at the end, nor where a block ends. -/
def Stops (x : Parser α) : Prop :=
  ∀ c : Cursor, c.token = .ending ∨ c.token = .mark "\x7d" → ∀ r, x.run c ≠ .ok r

/-- At the end, and where a block ends, nothing is taken and this is what comes out. -/
def Skips (x : Parser α) (a : α) : Prop :=
  ∀ c : Cursor, c.token = .ending ∨ c.token = .mark "\x7d" → x.run c = .ok (a, c)

theorem run_bind_ok {f : α → Parser β} {c last : Cursor} {b : β}
    (h : (x >>= f).run c = .ok (b, last)) :
    ∃ a next, x.run c = .ok (a, next) ∧ (f a).run next = .ok (b, last) := by
  rw [StateT.run_bind] at h
  cases ran : x.run c with
  | error e =>
    rw [ran] at h
    cases h
  | ok result =>
    rw [ran] at h
    exact ⟨result.1, result.2, rfl, h⟩

namespace Embeds

theorem either (inner : Embeds .inside later x y) (last : Embeds .atEnd later x y) :
    Embeds .either later x y := by
  rintro c c' (inside | atEnd)
  · exact inner c c' inside
  · exact last c c' atEnd

theorem at_ (h : Embeds .either later x y) : Embeds p later x y :=
  fun c c' there => h c c' (p.meets there)

theorem of_stops (h : Stops x) : Embeds .atEnd later x y :=
  fun c _ atEnd a next ran => (h c (.inl atEnd.token) (a, next) ran).elim

theorem pure (a : α) : Embeds p later (Pure.pure a : Parser α) (Pure.pure a) := by
  intro c c' there b next ran
  cases ran
  exact ⟨c', rfl, p.meets there⟩

theorem throw (fault : SyntaxFault) : Embeds p later (throw fault : Parser α) y := by
  intro c c' there b next ran
  cases ran

theorem fail : Embeds p later (fail : Parser α) y := .throw _

theorem fail_bind {z : Parser β} : Embeds p later (Parser.fail >>= f) z := by
  intro c c' there b next ran
  cases ran

theorem bind (first : Embeds p later x y) (rest : ∀ a, Embeds .either later (f a) (g a)) :
    Embeds p later (x >>= f) (y >>= g) := by
  intro c c' there b last ran
  obtain ⟨a, next, ran, ended⟩ := run_bind_ok ran
  obtain ⟨next', ran', meets⟩ := first c c' there a next ran
  obtain ⟨last', ended', meets⟩ := rest a next next' meets b last ended
  refine ⟨last', ?_, meets⟩
  rw [StateT.run_bind, ran']
  exact ended'

theorem ite {condition : Prop} [Decidable condition] {z w : Parser α}
    (yes : Embeds p later x y) (no : Embeds p later z w) :
    Embeds p later (if condition then x else z) (if condition then y else w) := by
  split
  · exact yes
  · exact no

theorem ite_of {c c' : Bool} {z w : Parser α} (same : c = c')
    (yes : Embeds p later x y) (no : Embeds p later z w) :
    Embeds p later (if c then x else z) (if c' then y else w) := by
  subst same
  exact .ite yes no

theorem join {condition : Prop} [Decidable condition] {z w : Parser α}
    (yes : Embeds p later x y) (no : Embeds p later z w)
    (rest : ∀ a, Embeds .either later (f a) (g a)) :
    Embeds p later (if condition then x >>= f else z >>= f)
      (if condition then y >>= g else w >>= g) :=
  .ite (yes.bind rest) (no.bind rest)

theorem token_inside {f g : Token → Parser β}
    (h : ∀ t, t ≠ .ending → Embeds .inside later (f t) (g t)) :
    Embeds .inside later (token >>= f) (token >>= g) := by
  rintro c _ ⟨more, token, rfl⟩ b next ran
  exact h c.token token c _ ⟨more, token, rfl⟩ b next ran

theorem token_atEnd {f g : Token → Parser β}
    (h : Embeds .atEnd later (f .ending) (g (.mark "\x7d"))) :
    Embeds .atEnd later (token >>= f) (token >>= g) := by
  rintro c _ ⟨here, rest, token, notes, rfl⟩ b next ran
  refine h c _ ⟨here, rest, token, notes, rfl⟩ b next ?_
  rw [← token]
  exact ran

theorem token {f g : Token → Parser β} (h : ∀ t, t ≠ .ending → Embeds .inside later (f t) (g t))
    (last : Embeds .atEnd later (f .ending) (g (.mark "\x7d"))) :
    Embeds .either later (token >>= f) (token >>= g) :=
  (token_inside h).either (token_atEnd last)

theorem cursor_inside {f g : Cursor → Parser β}
    (h : ∀ c c', c.Inside later c' → Embeds .inside later (f c) (g c')) :
    Embeds .inside later (get >>= f) (get >>= g) :=
  fun c c' inside b next ran => h c c' inside c c' inside b next ran

theorem notes_inside {f g : List Comment → Parser β}
    (h : ∀ notes, Embeds .inside later (f notes) (g notes)) :
    Embeds .inside later (notes >>= f) (notes >>= g) := by
  rintro c _ ⟨more, token, rfl⟩ b next ran
  exact h c.notes c _ ⟨more, token, rfl⟩ b next ran

theorem afterBreak_inside {f g : Bool → Parser β}
    (h : ∀ afterBreak, Embeds .inside later (f afterBreak) (g afterBreak)) :
    Embeds .inside later (afterBreak >>= f) (afterBreak >>= g) := by
  rintro c _ ⟨more, token, rfl⟩ b next ran
  exact h c.afterBreak c _ ⟨more, token, rfl⟩ b next ran

theorem afterBreak_atEnd {f g : Bool → Parser β}
    (h : ∀ afterBreak, Embeds .atEnd later (f afterBreak) (g true)) :
    Embeds .atEnd later (afterBreak >>= f) (afterBreak >>= g) := by
  rintro c _ ⟨here, rest, token, notes, rfl⟩ b next ran
  exact h c.afterBreak c _ ⟨here, rest, token, notes, rfl⟩ b next ran

theorem roundsLeft {f g : Nat → Parser β}
    (h : ∀ rounds rounds', rounds ≤ rounds' → Embeds p later (f rounds) (g rounds')) :
    Embeds p later (roundsLeft >>= f) (roundsLeft >>= g) := by
  intro c c' there b next ran
  exact h _ _ (Nat.succ_le_succ (p.meets there).length_le) c c' there b next ran

theorem atMark_inside (text : String) {f g : Bool → Parser β}
    (h : ∀ there, Embeds .inside later (f there) (g there)) :
    Embeds .inside later (atMark text >>= f) (atMark text >>= g) := by
  rintro c _ ⟨more, token, rfl⟩ b next ran
  exact h (c.token == .mark text) c _ ⟨more, token, rfl⟩ b next ran

theorem atMark_atEnd (text : String) {f g : Bool → Parser β}
    (h : Embeds .atEnd later (f false) (g (text == "\x7d"))) :
    Embeds .atEnd later (atMark text >>= f) (atMark text >>= g) := by
  rintro c _ ⟨here, rest, token, notes, rfl⟩ b next ran
  have unmarked : (c.token == .mark text) = false := by
    rw [token]
    rfl
  have marked : (Token.mark "\x7d" == .mark text) = (text == "\x7d") := by
    by_cases same : text = "\x7d"
    · subst same
      rfl
    · rw [beq_false_of_ne same, beq_false_of_ne fun h => same (Token.mark.inj h).symm]
  obtain ⟨next', ran', meets⟩ := h c _ ⟨here, rest, token, notes, rfl⟩ b next (by
    rw [← unmarked]
    exact ran)
  refine ⟨next', ?_, meets⟩
  rw [← marked] at ran'
  exact ran'

theorem atWord_inside (text : String) {f g : Bool → Parser β}
    (h : ∀ there, Embeds .inside later (f there) (g there)) :
    Embeds .inside later (atWord text >>= f) (atWord text >>= g) := by
  rintro c _ ⟨more, token, rfl⟩ b next ran
  exact h (c.token == .name text false) c _ ⟨more, token, rfl⟩ b next ran

theorem atWord_atEnd (text : String) {f g : Bool → Parser β}
    (h : Embeds .atEnd later (f false) (g false)) :
    Embeds .atEnd later (atWord text >>= f) (atWord text >>= g) := by
  rintro c _ ⟨here, rest, token, notes, rfl⟩ b next ran
  have other : (c.token == .name text false) = false := by
    rw [token]
    rfl
  refine h c _ ⟨here, rest, token, notes, rfl⟩ b next ?_
  rw [← other]
  exact ran

theorem atWord (text : String) : Embeds p later (Parser.atWord text) (Parser.atWord text) :=
  at_ (.token (fun _ _ => .pure _) (.pure false))

theorem moveTo (quiet : Quiet ('\x7d' :: later)) (left : Token) (rest : List Char) :
    Embeds p later (moveTo left rest) (moveTo left (rest ++ '\n' :: '\x7d' :: later)) := by
  intro c c' there b next ran
  have meets := Cursor.after_meets quiet (Cursor.opens left) ⟨[], false, false⟩ rest
  unfold Parser.moveTo Cursor.next at ran ⊢
  cases moved : Cursor.after (Cursor.opens left) ⟨[], false, false⟩ rest with
  | error e =>
    rw [moved] at ran
    cases ran
  | ok cursor =>
    rw [moved] at ran meets
    obtain ⟨cursor', moved', meets⟩ := meets
    rw [moved']
    cases ran
    exact ⟨cursor', rfl, meets⟩

theorem advance (quiet : Quiet ('\x7d' :: later)) :
    Embeds .inside later advance advance := by
  rintro c _ ⟨more, token, rfl⟩ b next ran
  exact moveTo (p := .inside) quiet c.token c.rest c _ ⟨more, token, rfl⟩ b next ran

theorem moved (quiet : Quiet ('\x7d' :: later)) {x y : Parser β} (h : Embeds .either later x y) :
    Embeds .inside later (do Parser.advance; x) (do Parser.advance; y) :=
  (advance quiet).bind fun _ => h

theorem peek_inside (quiet : Quiet ('\x7d' :: later)) {f g : Token × Bool → Parser β}
    (h : ∀ next next', Ahead next next' → Embeds .inside later (f next) (g next')) :
    Embeds .inside later (peek >>= f) (peek >>= g) := by
  rintro c _ ⟨more, token, rfl⟩ b next ran
  have inside : (Meeting.inside).Holds later c _ := ⟨more, token, rfl⟩
  have meets := Cursor.after_meets quiet (Cursor.opens c.token) ⟨[], false, false⟩ c.rest
  rw [StateT.run_bind] at ran ⊢
  simp only [peek, Cursor.next, StateT.run_bind, StateT.run_get, pure_bind] at ran ⊢
  cases moved : Cursor.after (Cursor.opens c.token) ⟨[], false, false⟩ c.rest with
  | error e =>
    rw [moved] at ran meets
    rw [meets]
    exact h _ _ (.same (.ending, false)) c _ inside b next ran
  | ok cursor =>
    rw [moved] at ran meets
    obtain ⟨cursor', moved', ⟨-, -, rfl⟩ | ⟨-, -, ending, notes, rfl⟩⟩ := meets
    · rw [moved']
      exact h _ _ (.same (cursor.token, cursor.afterBreak)) c _ inside b next ran
    · rw [moved']
      dsimp only at ran
      rw [ending] at ran
      exact h _ _ (.last cursor.afterBreak) c _ inside b next ran

theorem takeMark_inside (quiet : Quiet ('\x7d' :: later)) (text : String) :
    Embeds .inside later (takeMark text) (takeMark text) :=
  atMark_inside text fun _ => .ite ((advance quiet).bind fun _ => .pure true) (.pure false)

theorem takeMark (quiet : Quiet ('\x7d' :: later)) {text : String} (h : text ≠ "\x7d") :
    Embeds p later (takeMark text) (takeMark text) := by
  refine at_ ((takeMark_inside quiet text).either (atMark_atEnd text ?_))
  rw [beq_false_of_ne h]
  exact .pure false

theorem takeWord (quiet : Quiet ('\x7d' :: later)) (text : String) :
    Embeds p later (takeWord text) (takeWord text) :=
  at_ ((atWord_inside text fun _ => .ite ((advance quiet).bind fun _ => .pure true)
    (.pure false)).either (atWord_atEnd text (.pure false)))

theorem expectMark (quiet : Quiet ('\x7d' :: later)) (text : String) :
    Embeds p later (expectMark text) (expectMark text) := by
  refine at_ (.either ?_ ?_)
  · exact (takeMark_inside quiet text).bind fun _ => .ite (.pure _) .fail
  · rintro ⟨here, rest, token, afterBreak, notes⟩ _ ⟨-, -, ending, -⟩ b next ran
    cases ending
    cases ran

theorem closing (quiet : Quiet ('\x7d' :: later)) (text : String) {f g : List Comment → Parser β}
    (h : ∀ notes, Embeds .either later (f notes) (g notes)) :
    Embeds p later (do let closing ← Parser.notes; Parser.expectMark text; f closing)
      (do let closing ← Parser.notes; Parser.expectMark text; g closing) := by
  refine at_ (.either (notes_inside fun notes => (expectMark quiet text).bind fun _ => h notes) ?_)
  rintro ⟨here, rest, token, afterBreak, notes⟩ _ ⟨-, -, ending, -⟩ b next ran
  cases ending
  cases ran

theorem expectWord (quiet : Quiet ('\x7d' :: later)) (text : String) :
    Embeds p later (expectWord text) (expectWord text) :=
  (takeWord quiet text).bind fun _ => .ite (.pure _) .fail

theorem atMark {text : String} (other : text ≠ "\x7d") {f g : Bool → Parser β}
    (h : ∀ there, Embeds .either later (f there) (g there)) :
    Embeds p later (atMark text >>= f) (atMark text >>= g) := by
  refine at_ ((atMark_inside text fun there => (h there).at_).either (atMark_atEnd text ?_))
  rw [beq_false_of_ne other]
  exact (h false).at_

theorem needMark {text : String} {f g : Bool → Parser β} (missing : ∀ y, Embeds .atEnd later (f false) y)
    (h : ∀ there, Embeds .either later (f there) (g there)) :
    Embeds p later (Parser.atMark text >>= f) (Parser.atMark text >>= g) :=
  at_ ((atMark_inside text fun there => (h there).at_).either (atMark_atEnd text (missing _)))

theorem endStatement (quiet : Quiet ('\x7d' :: later)) :
    Embeds p later endStatement endStatement := by
  refine (takeMark quiet (by decide)).bind fun closed => .ite (.pure _) (.either ?_ ?_)
  · refine atMark_inside _ fun brace => token_inside fun t _ => afterBreak_inside fun broken => ?_
    exact .ite (.pure _) .fail
  · refine atMark_atEnd _ (token_atEnd (afterBreak_atEnd fun broken => ?_))
    exact .pure _

end Embeds

namespace Stops

theorem fail : Stops (fail : Parser α) := fun _ _ _ => nofun

theorem bind (h : Stops x) : Stops (x >>= f) := by
  intro c closes r ran
  obtain ⟨a, next, ran, -⟩ := run_bind_ok ran
  exact h c closes _ ran

theorem token {f : Token → Parser β} (ending : Stops (f .ending))
    (brace : Stops (f (.mark "\x7d"))) : Stops (token >>= f) := by
  intro c closes r ran
  rcases closes with closes | closes
  · refine ending c (.inl closes) r ?_
    rw [← closes]
    exact ran
  · refine brace c (.inr closes) r ?_
    rw [← closes]
    exact ran

theorem notes {f : List Comment → Parser β} (h : ∀ notes, Stops (f notes)) :
    Stops (notes >>= f) :=
  fun c closes r ran => h c.notes c closes r ran

theorem afterBreak {f : Bool → Parser β} (h : ∀ broken, Stops (f broken)) :
    Stops (afterBreak >>= f) :=
  fun c closes r ran => h c.afterBreak c closes r ran

theorem peek {f : Token × Bool → Parser β} (h : ∀ next, Stops (f next)) : Stops (peek >>= f) := by
  intro c closes r ran
  simp only [Parser.peek, StateT.run_bind, StateT.run_get, pure_bind] at ran
  split at ran
  · exact h _ c closes r ran
  · exact h _ c closes r ran

theorem behind {a : α} (skips : Skips x a) (h : Stops (f a)) : Stops (x >>= f) := by
  intro c closes r ran
  refine h c closes r ?_
  rw [StateT.run_bind, skips c closes] at ran
  exact ran

end Stops

namespace Skips

theorem pure (a : α) : Skips (Pure.pure a : Parser α) a := fun _ _ => rfl

theorem bind {a : α} {b : β} (first : Skips x a) (rest : Skips (f a) b) : Skips (x >>= f) b := by
  intro c closes
  rw [StateT.run_bind, first c closes]
  exact rest c closes

theorem atMark {text : String} (other : text ≠ "\x7d") : Skips (Parser.atMark text) false := by
  intro c closes
  have no : (c.token == .mark text) = false := by
    rcases closes with closes | closes <;> rw [closes]
    · rfl
    · exact beq_false_of_ne fun h => other (Token.mark.inj h).symm
  exact congrArg (fun b => Except.ok (b, c)) no

theorem atWord (text : String) : Skips (Parser.atWord text) false := by
  intro c closes
  have no : (c.token == .name text false) = false := by
    rcases closes with closes | closes <;> rw [closes] <;> rfl
  exact congrArg (fun b => Except.ok (b, c)) no

theorem takeMark {text : String} (other : text ≠ "\x7d") : Skips (Parser.takeMark text) false :=
  (atMark other).bind (pure false)

theorem takeWord (text : String) : Skips (Parser.takeWord text) false :=
  (atWord text).bind (pure false)

end Skips

namespace Embeds

theorem behind {a : α} {z : Parser β} (skips : Skips x a) (h : Embeds .atEnd later (f a) z) :
    Embeds .atEnd later (x >>= f) z := by
  intro c c' atEnd b next ran
  refine h c c' atEnd b next ?_
  rw [StateT.run_bind, skips c (.inl atEnd.token)] at ran
  exact ran

theorem advance_atEnd {f : PUnit → Parser β} {z : Parser β} (h : Stops (f ⟨⟩)) :
    Embeds .atEnd later (Parser.advance >>= f) z := by
  rintro ⟨here, rest, token, afterBreak, notes⟩ _ ⟨rfl, rfl, rfl, -⟩ b next ran
  exact (h ⟨[], [], .ending, false, []⟩ (.inl rfl) (b, next) ran).elim

theorem ending {f : Token → Parser β} {z : Parser β} (h : Embeds .atEnd later (f .ending) z) :
    Embeds .atEnd later (Parser.token >>= f) z := by
  intro c c' atEnd b next ran
  refine h c c' atEnd b next ?_
  rw [← atEnd.token]
  exact ran

end Embeds

theorem Stops.expectMark {text : String} (other : text ≠ "\x7d") : Stops (expectMark text) :=
  .behind (.takeMark other) .fail

theorem Stops.expectWord (text : String) : Stops (expectWord text) := .behind (.takeWord text) .fail

def turn (test : Parser Bool) (item : Parser α) : Parser (Option α) := do
  if ← test then
    let a ← item
    return some a
  else return none

theorem repeatWhile_succ (test : Parser Bool) (item : Parser α) (rounds : Nat) :
    repeatWhile test item (rounds + 1) = do
      match ← turn test item with
      | some a =>
        let as ← repeatWhile test item rounds
        return a :: as
      | none => return [] := by
  rw [repeatWhile, turn, bind_assoc]
  refine bind_congr fun there => ?_
  cases there <;> simp

namespace Embeds

variable {test test' : Parser Bool} {item item' : Parser α}

theorem repeatWhile (h : Embeds .either later (turn test item) (turn test' item'))
    {rounds rounds' : Nat} (enough : rounds ≤ rounds') :
    Embeds p later (repeatWhile test item rounds) (repeatWhile test' item' rounds') := by
  induction rounds generalizing rounds' p with
  | zero => exact .throw _
  | succ rounds ih =>
    obtain ⟨rounds', rfl⟩ : ∃ n, rounds' = n + 1 := ⟨rounds' - 1, by omega⟩
    rw [repeatWhile_succ, repeatWhile_succ]
    refine at_ (h.bind fun found => ?_)
    cases found with
    | none => exact .pure []
    | some a => exact (ih (Nat.le_of_succ_le_succ enough)).bind fun as => .pure (a :: as)

theorem many (h : Embeds .either later (turn test item) (turn test' item')) :
    Embeds p later (many test item) (many test' item') :=
  roundsLeft fun _ _ enough => repeatWhile h enough

theorem until_ (h : Embeds .either later item item') (stops : Stops item) (closing : String) :
    Embeds p later (Parser.many (return !(← Parser.atMark closing)) item)
      (Parser.many (return !(← Parser.atMark closing)) item') := by
  refine many (.either ?_ ?_)
  · simp only [turn, bind_assoc, pure_bind]
    exact atMark_inside closing fun there => .ite (h.at_.bind fun a => .pure _) (.pure _)
  · simp only [turn, bind_assoc, pure_bind]
    exact atMark_atEnd closing (of_stops stops.bind)

theorem commas (quiet : Quiet ('\x7d' :: later)) (h : Embeds .either later item item') :
    Embeds p later (Parser.many (Parser.takeMark ",") item)
      (Parser.many (Parser.takeMark ",") item') :=
  many ((takeMark quiet (by decide)).bind fun _ => .ite (h.bind fun _ => .pure _) (.pure _))

theorem semicolons (quiet : Quiet ('\x7d' :: later)) :
    Embeds p later (Parser.many (Parser.atMark ";") Parser.advance)
      (Parser.many (Parser.atMark ";") Parser.advance) := by
  refine many (.either ?_ ?_)
  · exact atMark_inside ";" fun there => .ite ((advance quiet).bind fun _ => .pure _) (.pure _)
  · exact atMark_atEnd ";" (.pure _)

theorem commaList (quiet : Quiet ('\x7d' :: later)) (h : Embeds .either later item item')
    (stops : Stops item) (closing : String) :
    Embeds p later (Parser.commaList closing item) (Parser.commaList closing item') := by
  refine (until_ (.bind h fun a => (takeMark quiet (by decide)).bind fun comma => ?_) stops.bind
    closing).bind fun items => .pure _
  refine .either (atMark_inside closing fun there => .ite (.pure _) .fail_bind)
    (atMark_atEnd closing ?_)
  cases comma with
  | true => exact .pure _
  | false => exact .fail_bind

end Embeds

theorem Embeds.lift {β : Type} {f g : Node → Parser β} (n : Option Node)
    (h : ∀ n, Embeds p later (f n) (g n)) :
    Embeds p later (Parser.lift n >>= f) (Parser.lift n >>= g) := by
  cases n with
  | none => exact .fail_bind
  | some n => exact h n

theorem Embeds.atIdentifier (scope : Scope) :
    Embeds p later (atIdentifier scope) (atIdentifier scope) := by
  refine at_ (.token (fun t _ => ?_) (.pure false))
  cases t <;> exact .pure _

theorem Embeds.atIdentifier_atEnd {β : Type} {f g : Bool → Parser β} (scope : Scope)
    (h : Embeds .atEnd later (f false) (g false)) :
    Embeds .atEnd later (Parser.atIdentifier scope >>= f) (Parser.atIdentifier scope >>= g) := by
  rw [Parser.atIdentifier, bind_assoc, bind_assoc]
  exact .token_atEnd h

theorem Skips.atIdentifier (scope : Scope) : Skips (atIdentifier scope) false := by
  intro c closes
  simp only [Parser.atIdentifier, Parser.token, StateT.run_bind, StateT.run_get, pure_bind]
  rcases closes with closes | closes <;> rw [closes] <;> rfl

theorem Stops.identifierName (scope : Scope) : Stops (identifierName scope) := .token .fail .fail

theorem Embeds.identifierName (quiet : Quiet ('\x7d' :: later)) (scope : Scope) :
    Embeds p later (identifierName scope) (identifierName scope) := by
  refine at_ (.either (.token_inside fun t _ => ?_) (.of_stops (Stops.identifierName scope)))
  cases t with
  | name text hasEscape => exact .ite ((Embeds.advance quiet).bind fun _ => .pure _) .fail_bind
  | _ => exact .fail

theorem Embeds.identifier (quiet : Quiet ('\x7d' :: later)) (scope : Scope) :
    Embeds p later (identifier scope) (identifier scope) :=
  (identifierName quiet scope).bind fun _ => .pure _

theorem Stops.identifier (scope : Scope) : Stops (identifier scope) :=
  (identifierName scope).bind

end Parser

end Bundler.Script
