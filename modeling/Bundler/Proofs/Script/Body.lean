import Bundler.Proofs.Script.Reads
import Bundler.Script.Parse

/-! A whole script, read as the body of a function. -/

namespace Bundler.Script

open Parser Grammar

variable {later : List Char}

namespace Parser

variable {α : Type} {item item' : Parser α}

theorem turn_open {test : Parser Bool} {c : Cursor} (h : Reads test c true c) :
    (turn test item).run c = (do return some (← item) : Parser (Option α)).run c := by
  rw [turn, StateT.run_bind, h]
  rfl

theorem Embeds.turnUntilEnd (h : Embeds .either later item item') (stops : Stops item) :
    Embeds .either later (turn (do return (← Parser.token) != .ending) item)
      (turn (do return !(← Parser.atMark "\x7d")) item') := by
  refine .either ?_ ?_
  · intro c c' inside a next ran
    have test : Reads (do return (← Parser.token) != .ending) c true c :=
      congrArg (fun b => Except.ok (b, c)) (bne_iff_ne.mpr inside.token)
    rw [turn_open test] at ran
    have other : (c'.token == .mark "\x7d") = false := by
      refine beq_false_of_ne fun brace => ?_
      rw [inside.token_eq] at brace
      obtain ⟨a, next, ran, -⟩ := run_bind_ok ran
      exact stops c (.inr brace) _ ran
    have test' : Reads (do return !(← Parser.atMark "\x7d")) c' true c' :=
      congrArg (fun b => Except.ok (!b, c')) other
    rw [turn_open test']
    exact h.bind (fun a => .pure (some a)) c c' (.inl inside) a next ran
  · rintro ⟨here, rest, token, afterBreak, notes⟩ _ ⟨rfl, rfl, rfl, notes', rfl⟩ a next ran
    cases ran
    exact ⟨_, rfl, .inr ⟨rfl, rfl, rfl, notes', rfl⟩⟩

theorem many_ending {as : List α} {c d : Cursor}
    (h : Reads (many (do return (← token) != .ending) item) c as d) : d.token = .ending := by
  have ends {rounds : Nat} : ∀ {c : Cursor} {as : List α},
      Reads (repeatWhile (do return (← token) != .ending) item rounds) c as d → d.token = .ending := by
    induction rounds with
    | zero => nofun
    | succ rounds ih =>
      intro c as h
      obtain ⟨there, next, test, h⟩ := run_bind_ok h
      cases test
      cases ending : (c.token != .ending) with
      | true =>
        rw [ending] at h
        obtain ⟨a, next, -, h⟩ := run_bind_ok h
        obtain ⟨as, last, h, same⟩ := run_bind_ok h
        cases same
        exact ih h
      | false =>
        rw [ending] at h
        cases h
        simpa using ending
  exact ends h

end Parser

namespace Grammar

theorem found_embedded (quiet : Quiet ('\x7d' :: ')' :: later)) {depth depth' : Nat}
    (deeper : depth ≤ depth') {c c' last : Cursor} {found : List (Token × Node)}
    (meets : c.Meets (')' :: later) c')
    (h : Reads (many (do return (← token) != .ending) (do
      let first ← token
      let statement ← deep depth plain (.statement false)
      return (first, statement))) c found last)
    {rounds : Nat} (enough : c.here.length + 1 ≤ rounds) :
    ∃ last', Reads (repeatWhile (do return !(← atMark "\x7d")) (do
      let first ← token
      let statement ← deep depth' plain (.statement false)
      return (first, statement)) rounds) c' found last' ∧ last.AtEnd (')' :: later) last' := by
  have carries := deep_carries quiet deeper
  have turns := Embeds.turnUntilEnd (carries.bodyItem plain) (carries.bodyItem_stops plain)
  obtain ⟨last', ran', met⟩ := turns.repeatWhile (p := .either) enough c c' meets found last h
  exact ⟨last', ran', met.resolve_left fun inside => inside.token (many_ending h)⟩

theorem bodyItems_embedded (quiet : Quiet ('\x7d' :: ')' :: later)) {depth depth' : Nat}
    (deeper : depth ≤ depth') {c c' last : Cursor} {items : List Node}
    (meets : c.Meets (')' :: later) c')
    (h : Reads (bodyItems (deep depth) plain (do return (← token) != .ending)) c items last) :
    ∃ last', Reads (bodyItems (deep depth') plain (do return !(← atMark "\x7d"))) c' items last' ∧
      last.AtEnd (')' :: later) last' := by
  obtain ⟨found, next, ran, same⟩ := run_bind_ok h
  cases same
  obtain ⟨last', ran', atEnd⟩ := found_embedded quiet deeper meets ran
    (Nat.succ_le_succ meets.length_le)
  exact ⟨last', Reads.bind ran' rfl, atEnd⟩

end Grammar

namespace Cursor

theorem next_line {token : Token} (h : opens token = false) (text : List Char) :
    next token ('\n' :: text) = after false ⟨[], true, true⟩ text := by
  rw [next, h]
  rfl

theorem after_line (text : List Char) :
    after false ⟨[], true, true⟩ ('\n' :: text) = after false ⟨[], true, true⟩ text := rfl

end Cursor

theorem parseChars_ok {text : List Char} {program : Node} (h : parseChars true text = .ok program) :
    ∃ c items last, firstCursor (splitHashbang text).1 (splitHashbang text).2 = .ok c ∧
      Reads (bodyItems (deep (depthFor (splitHashbang text).2.length)) plain
        (do return (← token) != .ending)) c items last ∧
      program = .of (.program (splitHashbang text).1 last.notes) items ∧
      program.isUnfinished = false := by
  unfold parseChars at h
  dsimp only at h
  cases starts : firstCursor (splitHashbang text).1 (splitHashbang text).2 with
  | error e =>
    rw [starts] at h
    cases h
  | ok c =>
    rw [starts] at h
    dsimp only [bind, Except.bind] at h
    cases ran : (programItems (deep (depthFor (splitHashbang text).2.length)) plain).run c with
    | error e =>
      change StateT.run (programItems _ plain) c >>= _ = _ at h
      rw [ran] at h
      cases h
    | ok result =>
      obtain ⟨⟨items, closing⟩, last⟩ := result
      change StateT.run (programItems _ plain) c >>= _ = _ at h
      rw [ran] at h
      obtain ⟨found, next, read, same⟩ := run_bind_ok ran
      cases same
      change (if _ then _ else _) = _ at h
      split at h
      · cases h
      · rename_i finished
        cases h
        exact ⟨c, items, last, rfl, read, rfl, Bool.eq_false_iff.mpr finished⟩

end Bundler.Script
