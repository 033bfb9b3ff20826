import Bundler.Proofs.Containment
import Bundler.Proofs.ProcessShim
import Bundler.Proofs.Script.Prologue

/-! The text of a bundle as a script. All of it is one function that is called at once. Texts that are
read as statements wherever they stand on lines of their own are its first statements, and those that
the entry has alone follow them. Directives of the entry are directives of the function only if nothing
stands before them. -/

namespace Bundler.Emit

open Script Script.Parser Script.Grammar

def artifact (hashbang : Option String) (notes : List Comment) (body : Node) : Node :=
  .of (.program hashbang notes)
    [.of .evaluate [.of (.call false []) [.of .paren [Wrapper.function [] body]]]]

theorem exists_of_mem_right {α β : Type} {R : α → β → Prop} {as : List α} {bs : List β}
    (h : List.Forall₂ R as bs) {b : β} (mem : b ∈ bs) : ∃ a ∈ as, R a b := by
  induction h with
  | nil => cases mem
  | @cons a _ _ _ same _ ih =>
    rcases List.mem_cons.mp mem with rfl | later
    · exact ⟨a, List.mem_cons_self, same⟩
    · obtain ⟨a, there, related⟩ := ih later
      exact ⟨a, List.mem_cons_of_mem _ there, related⟩

section

variable {later text : List Char} {texts : List (List Char)} {ns items : List Node} {k : Nat}

/-- How a body is read that is texts in a row before a script. -/
structure Assembled (k : Nat) (ns items : List Node) (later text : List Char) (inner last : Cursor)
    (statements : List Node) : Prop where
  starts : Cursor.start text = .ok inner
  reads : Reads (bodyItems (deep k) plain (return !(← atMark "\x7d"))) inner (ns ++ statements) last
  brace : last.token = .mark "\x7d"
  after : last.rest = ')' :: later
  demoted : List.Forall₂ Node.Demoted items statements
  alone : ns = [] → statements = items
  behind : ns ≠ [] → ∀ n ∈ statements, n.directive? = none

theorem markDirectives_of_none {found : List (Token × Node)} (h : ∀ item ∈ found.head?,
    asDirective item.1 item.2 = none) : markDirectives found = found.map (·.2) := by
  cases found with
  | nil => rfl
  | cons item rest =>
    rw [markDirectives, h item rfl]
    rfl

theorem asDirective_of_form {first : Token} {n : Node} (h : n.form ≠ .evaluate) :
    asDirective first n = none := by
  unfold asDirective
  split
  · exact (h rfl).elim
  · rfl

theorem assembled (quiet : Quiet ('\x7d' :: ')' :: later)) (stand : List.Forall₂ Stands texts ns)
    (plainly : ∀ n ∈ ns, n.form ≠ .evaluate) {closing : List Comment}
    (parses : parseChars true text = .ok (.of (.program none closing) items))
    (enough : ∀ t ∈ text :: texts, depthFor t.length ≤ k) :
    ∃ inner last statements, Assembled k ns items later
      (onLines texts (text ++ '\n' :: '\x7d' :: ')' :: later)) inner last statements := by
  obtain ⟨own, others⟩ := List.forall_mem_cons.mp enough
  obtain ⟨c, _, last, starts, read, same, -⟩ := parseChars_ok parses
  obtain ⟨isProgram, -, rfl⟩ := Node.mk.inj same
  obtain ⟨unhashed, -⟩ := Form.program.inj isProgram
  rw [(Wrapper.splitHashbang_of_none unhashed.symm).1] at starts read
  obtain ⟨found, _, listed, marked⟩ := run_bind_ok read
  obtain ⟨rfl, rfl⟩ := Prod.mk.inj (Except.ok.inj marked)
  have undirected := Parser.yields_iff.mp
    (undirected_found (undirects_deep _) _ _) c found _ listed
  -- the entry is read in its place as it is alone, up to the brace behind it
  obtain ⟨c', starts', meets⟩ := Wrapper.start_meets quiet starts
  rw [Cursor.next_line rfl] at starts'
  obtain ⟨inner, before, whole, statements, nodes, long⟩ := reads_lines stand starts' others
  have shorter := meets.length_le
  obtain ⟨rounds, total⟩ : ∃ n, inner.here.length + 1 = n + before.length :=
    ⟨inner.here.length + 1 - before.length, by omega⟩
  have room : c.here.length + 1 ≤ rounds := by omega
  obtain ⟨last', read', atEnd⟩ := found_embedded quiet own meets listed room
  have all := statements.reads_append rounds read'
  rw [← total] at all
  obtain ⟨notes, same⟩ := atEnd.brace
  have demoted := Node.forall₂_demoted undirected
  have body : Reads (bodyItems (deep k) plain (return !(← atMark "\x7d"))) inner
      (markDirectives (before ++ found)) last' := Reads.bind (Reads.bind rfl all) rfl
  -- directives are marked up to the first statement that is none, wherever it comes from
  cases before with
  | nil =>
    cases nodes
    exact ⟨inner, last', markDirectives found, whole, body, by rw [same], by rw [same],
      List.forall₂_same.mpr fun n _ => .same n, fun _ => rfl, fun none => (none rfl).elim⟩
  | cons first rest =>
    have other : asDirective first.1 first.2 = none :=
      asDirective_of_form (plainly _ (by rw [← nodes]; exact List.mem_cons_self))
    have plain_ : markDirectives (first :: rest ++ found) = ns ++ found.map (·.2) := by
      rw [markDirectives_of_none (by simpa using other), List.map_append, nodes]
    rw [plain_] at body
    refine ⟨inner, last', found.map (·.2), whole, body, by rw [same], by rw [same], demoted, ?_, ?_⟩
    · rintro rfl
      cases nodes
    · intro _
      exact List.forall_mem_map.mpr fun item mem => (undirected item mem).directive?_eq_none

def tail : List Char := "();\n".toList

theorem tail_quiet : Quiet ('\x7d' :: ')' :: tail) := Quiet.of_all (by
  unfold tail
  simp only [String.reduceToList]
  decide)

theorem reads_called {inner last : Cursor} {statements : List Node}
    (h : Assembled k ns items tail text inner last statements) : ∃ e, e.token = .ending ∧
      Reads (deep (k + 10) plain (.statement false))
        (.onMark "(" ("function".toList ++ (" () \x7b\n".toList ++ text)) true)
        (.of .evaluate [.of (.call false [])
          [.of .paren [Wrapper.function [] (.of (.body last.notes) (ns ++ statements))]]]) e := by
  have moves : Cursor.next (.mark "\x7b") ('\n' :: text) = .ok inner := by
    rw [Cursor.next_line rfl]
    exact h.starts
  have closing : Cursor.next last.token last.rest = .ok (.onMark ")" tail false) := by
    rw [h.brace, h.after]
    rfl
  have function : Reads (leftSide (deep k) plain)
      (.onWord "function" (" () \x7b\n".toList ++ text) false)
      (Wrapper.function [] (.of (.body last.notes) (ns ++ statements))) (.onMark ")" tail false) :=
    Wrapper.reads_nullary rfl (Wrapper.next_nullary text) moves h.reads h.brace closing (.inl rfl)
  have paren := Wrapper.reads_enclosed function (Wrapper.next_function _) rfl (.inl rfl) true
  exact ⟨_, rfl, reads_evaluate rfl rfl (reads_leftSide paren rfl rfl) rfl rfl rfl⟩

theorem onLines_eq (texts : List (List Char)) (later : List Char) :
    onLines texts later = texts.flatMap (· ++ ['\n']) ++ later := by
  induction texts with
  | nil => rfl
  | cons first rest ih =>
    change first ++ '\n' :: onLines rest later = _
    rw [ih, List.flatMap_cons, List.append_assoc, List.append_assoc]
    rfl

theorem onLines_append (texts : List (List Char)) (text more : List Char) :
    onLines texts (text ++ more) = onLines texts text ++ more := by
  rw [onLines_eq, onLines_eq, List.append_assoc]

theorem length_le_onLines : ∀ t ∈ text :: texts, t.length ≤ (onLines texts text).length := by
  induction texts with
  | nil => exact List.forall_mem_singleton.mpr (Nat.le_refl _)
  | cons first rest ih =>
    obtain ⟨own, others⟩ := List.forall_mem_cons.mp ih
    have longer : (onLines (first :: rest) text).length =
        first.length + ((onLines rest text).length + 1) := by
      change (first ++ '\n' :: onLines rest text).length = _
      rw [List.length_append, List.length_cons]
    rw [longer]
    refine List.forall_mem_cons.mpr ⟨by omega, List.forall_mem_cons.mpr ⟨by omega, ?_⟩⟩
    intro t mem
    have := others t mem
    omega

theorem starts_code {hashbang : Option String}
    (oneLine : ∀ line ∈ hashbang, ∀ c ∈ line.toList, isLineEnd c = false) (text : List Char) :
    ∃ left, splitHashbang ((hashbangLine hashbang).toList ++ '(' :: text) = (hashbang, left) ∧
      text.length < left.length ∧ firstCursor hashbang left = .ok (.onMark "(" text true) := by
  cases hashbang with
  | none => exact ⟨'(' :: text, rfl, Nat.lt_succ_self _, rfl⟩
  | some line =>
    have spelled : (hashbangLine (some line)).toList ++ '(' :: text =
        '#' :: '!' :: (line.toList ++ '\n' :: '(' :: text) := by
      simp [hashbangLine]
    have taken : (line.toList ++ '\n' :: '(' :: text).takeWhile (fun c => !isLineEnd c) =
        line.toList := by
      rw [List.takeWhile_append_of_pos fun c mem => by rw [oneLine line rfl c mem]; rfl]
      exact List.append_nil _
    refine ⟨'\n' :: '(' :: text, ?_, by simp, rfl⟩
    rw [spelled, splitHashbang, taken, List.drop_left, String.ofList_toList]

theorem enclosed_toList (body : String) : (enclosed body).toList =
    '(' :: ("function".toList ++ (" () \x7b\n".toList ++
      (body.toList ++ '\n' :: '\x7d' :: ')' :: tail))) := by
  unfold enclosed tail
  simp only [String.toList_append, String.reduceToList, List.cons_append, List.nil_append]

theorem finished_of_parse {closing : List Comment}
    (parses : parseChars true text = .ok (.of (.program none closing) items)) :
    ∀ n ∈ items, n.isUnfinished = false := by
  obtain ⟨_, _, _, -, -, -, finished⟩ := parseChars_ok parses
  rw [Node.isUnfinished_of] at finished
  obtain ⟨-, inside⟩ := Bool.or_eq_false_iff.mp finished
  exact fun n mem => Bool.eq_false_iff.mpr (List.any_eq_false.mp inside n mem)

theorem artifact_finished (hashbang : Option String) (notes closing : List Comment)
    {statements : List Node} (finished : ∀ n ∈ statements, n.isUnfinished = false) :
    (artifact hashbang notes (.of (.body closing) statements)).isUnfinished = false := by
  have inside : statements.any Node.isUnfinished = false := by
    rw [List.any_eq_false]
    exact fun n mem => Bool.eq_false_iff.mp (finished n mem)
  simp only [artifact, Wrapper.function, Node.isUnfinished_of, inside, List.any_cons, List.any_nil,
    List.map_nil, Bool.or_false]

/-- A bundle is read as one function with the statements of the texts that precede the entry and then
those of the entry. -/
theorem parse_enclosed {hashbang : Option String}
    (oneLine : ∀ line ∈ hashbang, ∀ c ∈ line.toList, isLineEnd c = false) {body : String}
    (spelled : body.toList = onLines texts text) (stand : List.Forall₂ Stands texts ns)
    (plainly : ∀ n ∈ ns, n.form ≠ .evaluate) {closing : List Comment}
    (parses : parseChars true text = .ok (.of (.program none closing) items)) :
    ∃ notes closing statements, Script.parse true (hashbangLine hashbang ++ enclosed body) =
        .ok (artifact hashbang notes (.of (.body closing) (ns ++ statements))) ∧
      List.Forall₂ Node.Demoted items statements ∧ (ns = [] → statements = items) ∧
      (ns ≠ [] → ∀ n ∈ statements, n.directive? = none) := by
  let around : List Char := "function".toList ++ (" () \x7b\n".toList ++
    (onLines texts (text ++ '\n' :: '\x7d' :: ')' :: tail)))
  obtain ⟨left, split, longer, starts⟩ := starts_code oneLine around
  have whole : (hashbangLine hashbang ++ enclosed body).toList =
      (hashbangLine hashbang).toList ++ '(' :: around := by
    rw [String.toList_append, enclosed_toList, spelled, ← onLines_append]
  have length : (onLines texts text).length + 16 ≤ left.length := by
    simp only [around, onLines_append, String.reduceToList, List.length_append, List.length_cons,
      List.length_nil] at longer
    omega
  -- the depth for the whole is enough for each of the texts in it, and for the rules around them
  obtain ⟨k, depth⟩ : ∃ k, depthFor left.length = k + 10 :=
    ⟨depthFor left.length - 10, by unfold depthFor goalsPerChar; omega⟩
  obtain ⟨inner, last, statements, h⟩ := assembled (k := k) tail_quiet stand plainly parses
    fun t mem => by
      have := length_le_onLines t mem
      unfold depthFor goalsPerChar at depth ⊢
      omega
  obtain ⟨e, ending, read⟩ := reads_called h
  rw [← depth] at read
  have program := Wrapper.reads_program (by simp [Cursor.onMark]) (by simp [Cursor.onMark]) read rfl ending
  refine ⟨e.notes, last.notes, statements, ?_, h.demoted, h.alone, h.behind⟩
  rw [Script.parse_eq, whole]
  refine Wrapper.parseChars_of_reads split starts program (artifact_finished _ _ _ ?_)
  intro n mem
  rcases List.mem_append.mp mem with before | own
  · obtain ⟨_, -, stands⟩ := exists_of_mem_right stand before
    exact stands.finished
  · obtain ⟨item, there, demoted⟩ := exists_of_mem_right h.demoted own
    exact demoted.finished (finished_of_parse parses item there)

def preceding (graph : Graph) (shim : Option String) : List String :=
  (shim.map processShim).toList ++ graph.modules.map (·.program.print)

theorem body_toList (script : EntryScript) (graph : Graph) (shim : Option String) :
    (body script graph shim).toList =
      onLines ((preceding graph shim).map String.toList) script.program.print.toList := by
  cases shim <;>
    simp [body, preceding, onLines_eq, String.toList_join, List.flatMap_map, String.toList_append]

/-- What holds of the definition of `process` and of some statements holds of all that stands before the
entry. -/
theorem forall_mem_opening {P : Node → Prop} (shim : Option String)
    (own : ∀ env, P (shimDeclaration env)) (modules : ∀ n ∈ ns, P n) :
    ∀ n ∈ (shim.map shimDeclaration).toList ++ ns, P n := by
  intro n mem
  rcases List.mem_append.mp mem with before | there
  · cases shim with
    | none => cases before
    | some env =>
      rw [List.mem_singleton.mp before]
      exact own env
  · exact modules n there

/-- The text of a bundle is read as the texts in it are read, provided that each module is a statement
wherever it stands on lines of its own. -/
theorem parse_bundle {script : EntryScript} {graph : Graph} {closing : List Comment}
    (oneLine : ∀ line ∈ script.hashbang, ∀ c ∈ line.toList, isLineEnd c = false)
    (entry : Script.parse true script.program.print = .ok (.of (.program none closing) items))
    (modules : List.Forall₂ (fun m n => Stands m.program.print.toList n) graph.modules ns)
    (plainly : ∀ n ∈ ns, n.form ≠ .evaluate) (shim : Option String) :
    ∃ notes closing statements,
      Script.parse true (hashbangLine script.hashbang ++ enclosed (body script graph shim)) =
        .ok (artifact script.hashbang notes (.of (.body closing)
          ((shim.map shimDeclaration).toList ++ ns ++ statements))) ∧
      List.Forall₂ Node.Demoted items statements ∧
      ((shim.map shimDeclaration).toList ++ ns = [] → statements = items) ∧
      ((shim.map shimDeclaration).toList ++ ns ≠ [] → ∀ n ∈ statements, n.directive? = none) := by
  have first : List.Forall₂ Stands ((shim.map processShim).toList.map String.toList)
      (shim.map shimDeclaration).toList := by
    cases shim with
    | none => exact .nil
    | some env => exact .cons (stands_processShim env) .nil
  have stand : List.Forall₂ Stands ((preceding graph shim).map String.toList)
      ((shim.map shimDeclaration).toList ++ ns) := by
    rw [preceding, List.map_append, List.map_map]
    exact List.rel_append first (List.forall₂_map_left_iff.mpr modules)
  rw [Script.parse_eq] at entry
  refine parse_enclosed oneLine (body_toList script graph shim) stand ?_ entry
  exact forall_mem_opening shim (fun _ => nofun) plainly

end

end Bundler.Emit
