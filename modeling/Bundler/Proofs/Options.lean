import Bundler.CommandLine

/-! What the arguments of a command line give. An option is spelled by its name or by its letter, and its
value follows an equals sign or the letter, or is the next word. Reading keeps what the arguments so far
have given: an option that still waits is the only thing that a further argument can add to. -/

namespace Bundler

/-- An option as it is given, with its value if it takes one. -/
abbrev Given := CommandOption × Option String

namespace Given

def value? (given : List Given) (o : CommandOption) : Option String := (given.lookup o).join

/-- No option is given twice, but for the one that asks for more messages. -/
def Once (given : List Given) : Prop := ∀ o, o ≠ .verbose → (given.map (·.1)).count o ≤ 1

end Given

/-- The settings that options give: a switch can only be turned on, and some settings have no option. -/
def Config.Layer.ofOptions (given : List Given) : Layer where
  root := (Given.value? given .root).map .ofString
  env := Given.value? given .env
  minify := (given.lookup .minify).map fun _ => true
  platform := (Given.value? given .platform).bind Platform.ofName?
  instantiation := (Given.value? given .instantiation).bind Instantiation.ofName?
  processShim := (given.lookup .processShim).map fun _ => true

namespace CommandLine

/-- A word that is no option. -/
def IsWord (word : String) : Prop := ∀ c rest, word.toList ≠ '-' :: c :: rest

/-- Letters of options, what they give, and the option among them that the next word is the value of.
Only the last one may take a value. -/
inductive Letters : List Char → List Given → Option CommandOption → Prop where
  | done : Letters [] [] none
  | switch {o : CommandOption} {c : Char} {rest : List Char} {more : List Given}
      {last : Option CommandOption} (letter : o.letter? = some c) (plain : o.takesValue = false)
      (further : Letters rest more last) : Letters (c :: rest) ((o, none) :: more) last
  | equals {o : CommandOption} {c : Char} {value : List Char} (letter : o.letter? = some c)
      (takes : o.takesValue = true) : Letters (c :: '=' :: value) [(o, some (String.ofList value))] none
  | attached {o : CommandOption} {c d : Char} {value : List Char} (letter : o.letter? = some c)
      (takes : o.takesValue = true) (other : d ≠ '=') :
      Letters (c :: d :: value) [(o, some (String.ofList (d :: value)))] none
  | last {o : CommandOption} {c : Char} (letter : o.letter? = some c) (takes : o.takesValue = true) :
      Letters [c] [] (some o)

/-- The name of an option, what it gives, and the option itself if the next word is its value. -/
inductive Name : List Char → List Given → Option CommandOption → Prop where
  | switch {o : CommandOption} (plain : o.takesValue = false) : Name o.name.toList [(o, none)] none
  | equals {o : CommandOption} {value : List Char} (takes : o.takesValue = true) :
      Name (o.name.toList ++ '=' :: value) [(o, some (String.ofList value))] none
  | last {o : CommandOption} (takes : o.takesValue = true) : Name o.name.toList [] (some o)

inductive Dashed : List Char → List Given → Option CommandOption → Prop where
  | name {text : List Char} {given : List Given} {last : Option CommandOption}
      (name : Name text given last) : Dashed ('-' :: text) given last
  | letters {c : Char} {text : List Char} {given : List Given} {last : Option CommandOption}
      (letters : Letters (c :: text) given last) : Dashed (c :: text) given last

/-- Arguments and the options that they give. Two dashes may end them. -/
inductive Spelled : List String → List Given → Prop where
  | done : Spelled [] []
  | dashes : Spelled ["--"] []
  | whole {argument : String} {text : List Char} {rest : List String} {given more : List Given}
      (starts : argument.toList = '-' :: text) (dashed : Dashed text given none)
      (further : Spelled rest more) : Spelled (argument :: rest) (given ++ more)
  | apart {argument value : String} {text : List Char} {rest : List String}
      {given more : List Given} {o : CommandOption} (starts : argument.toList = '-' :: text)
      (dashed : Dashed text given (some o)) (word : IsWord value) (further : Spelled rest more) :
      Spelled (argument :: value :: rest) (given ++ (o, some value) :: more)

/-- An order to bundle keeps what the options give. -/
structure Keeps (line : CommandLine) (given : List Given) : Prop where
  entry : some line.entry = (Given.value? given .entry).map .ofString
  output : some line.output = (Given.value? given .output).map .ofString
  configFile : line.configFile = (Given.value? given .config).map .ofString
  verbosity : line.verbosity = min verbosityLimit (given.count (.verbose, none))
  layer : line.layer = .ofOptions given
  once : Given.Once given

/-- What the arguments that are left give, together with an option that waits. -/
def Continues (waiting : Option Given) (arguments : List String) (given : List Given) : Prop :=
  match waiting with
  | none => Spelled arguments given
  | some (o, some value) => ∃ more, given = (o, some value) :: more ∧ Spelled arguments more
  | some (o, none) => ∃ value rest more, arguments = value :: rest ∧ IsWord value ∧
      given = (o, some value) :: more ∧ Spelled rest more

theorem bind_ok {α β : Type} {x : Reading α} {f : α → Reading β} {b : β} (h : x >>= f = .ok b) :
    ∃ a, x = .ok a ∧ f a = .ok b := by
  cases x with
  | error refusal => cases h
  | ok a => exact ⟨a, rfl, h⟩

theorem pathValue_ok {value : String} {p : Path} (h : pathValue value = .ok p) :
    p = .ofString value := by
  unfold pathValue at h
  split at h
  · cases h
  · cases h
    rfl

theorem choiceValue_ok {α : Type} {found : Option α} {a : α} (h : choiceValue found = .ok a) :
    found = some a := by
  cases found with
  | none => cases h
  | some b =>
    cases h
    rfl

namespace Draft

/-- A draft keeps what has been given so far. -/
structure Keeps (d : Draft) (given : List Given) : Prop where
  entry : d.entry = (Given.value? given .entry).map .ofString
  output : d.output = (Given.value? given .output).map .ofString
  configFile : d.configFile = (Given.value? given .config).map .ofString
  verbosity : d.verbosity = min verbosityLimit (given.count (.verbose, none))
  layer : d.layer = .ofOptions given
  once : Given.Once given
  noted : ∀ o, o ∉ d.given → o ≠ .verbose → given.lookup o = none
  takes : ∀ o value, d.waiting = some (o, value) → o.takesValue = true

theorem keeps_start : ({} : Draft).Keeps [] :=
  ⟨rfl, rfl, rfl, rfl, rfl, fun _ _ => Nat.zero_le 1, fun _ _ _ => rfl, nofun⟩

section

variable {given : List Given} {o : CommandOption}

theorem lookup_concat_of_ne {k : CommandOption} (v : Option String) (other : k ≠ o) :
    (given ++ [(o, v)]).lookup k = given.lookup k := by
  have apart : (k == o) = false := by simpa using other
  simp [List.lookup_append, List.lookup_cons, apart]

theorem lookup_concat (v : Option String) (new : given.lookup o = none) (k : CommandOption) :
    (given ++ [(o, v)]).lookup k = if k = o then some v else given.lookup k := by
  split
  · rename_i same
    simp [List.lookup_append, same, new]
  · exact lookup_concat_of_ne v ‹_›

theorem value?_concat (v : Option String) (new : given.lookup o = none) (k : CommandOption) :
    Given.value? (given ++ [(o, v)]) k = if k = o then v else Given.value? given k := by
  rw [Given.value?, lookup_concat v new]
  split <;> rfl

theorem count_concat (v : Option String) (k : CommandOption) :
    ((given ++ [(o, v)]).map (·.1)).count k =
      (given.map (·.1)).count k + if o = k then 1 else 0 := by
  rw [List.map_append, List.count_append, List.map_singleton, List.count_singleton]
  simp only [beq_iff_eq]

theorem once_concat (once : Given.Once given) (v : Option String) (new : given.lookup o = none) :
    Given.Once (given ++ [(o, v)]) := by
  intro k other
  rw [count_concat]
  split
  · rename_i same
    subst same
    have absent : (given.map (·.1)).count o = 0 := by
      refine List.count_eq_zero.mpr fun mem => ?_
      obtain ⟨option, there, rfl⟩ := List.mem_map.mp mem
      exact absurd (List.lookup_eq_none_iff.mp new option there) (by simp)
    omega
  · exact once k other

end

variable {d d' : Draft} {given : List Given} {o : CommandOption}

theorem note_ok (h : d.note o = .ok d') : o ∉ d.given ∧ d' = { d with given := o :: d.given } := by
  unfold note at h
  split at h
  · cases h
  · rename_i new
    cases h
    exact ⟨by simpa using new, rfl⟩

/-- What is kept once a further option is given that may not come again. -/
theorem Keeps.concat {v : Option String} (keeps : d.Keeps given) (new : o ∉ d.given)
    (other : o ≠ .verbose) (noting : d'.given = o :: d.given) (waiting : d'.waiting = d.waiting)
    (entry : d'.entry = if .entry = o then v.map .ofString else d.entry)
    (output : d'.output = if .output = o then v.map .ofString else d.output)
    (configFile : d'.configFile = if .config = o then v.map .ofString else d.configFile)
    (verbosity : d'.verbosity = d.verbosity)
    (layer : given.lookup o = none → d'.layer = .ofOptions (given ++ [(o, v)])) :
    d'.Keeps (given ++ [(o, v)]) := by
  have fresh := keeps.noted o new other
  refine ⟨?_, ?_, ?_, ?_, layer fresh, once_concat keeps.once v fresh, ?_, ?_⟩
  · rw [entry, keeps.entry, value?_concat v fresh, apply_ite (Option.map Path.ofString)]
  · rw [output, keeps.output, value?_concat v fresh, apply_ite (Option.map Path.ofString)]
  · rw [configFile, keeps.configFile, value?_concat v fresh, apply_ite (Option.map Path.ofString)]
  · rw [verbosity, keeps.verbosity, List.count_append, List.count_singleton]
    simp [other]
  · intro k out still
    rw [noting, List.mem_cons, not_or] at out
    rw [lookup_concat v fresh, if_neg out.1]
    exact keeps.noted k out.2 still
  · intro k value waits
    exact keeps.takes k value (waiting ▸ waits)

theorem Keeps.take {value : String} (keeps : d.Keeps given) (takes : o.takesValue = true)
    (h : d.take o value = .ok d') :
    d'.Keeps (given ++ [(o, some value)]) ∧ d'.waiting = d.waiting := by
  obtain ⟨noting, noted, h⟩ := bind_ok h
  obtain ⟨new, rfl⟩ := note_ok noted
  have other : o ≠ .verbose := by
    rintro rfl
    cases takes
  cases o with
  | entry | output | config | root =>
    obtain ⟨p, read, done⟩ := bind_ok h
    cases pathValue_ok read
    cases done
    refine ⟨keeps.concat new other rfl rfl rfl rfl rfl rfl fun fresh => ?_, rfl⟩
    simp [value?_concat _ fresh, lookup_concat _ fresh, keeps.layer, Config.Layer.ofOptions]
  | env =>
    cases h
    refine ⟨keeps.concat new other rfl rfl rfl rfl rfl rfl fun fresh => ?_, rfl⟩
    simp [value?_concat _ fresh, lookup_concat _ fresh, keeps.layer, Config.Layer.ofOptions]
  | platform | instantiation =>
    obtain ⟨chosen, read, done⟩ := bind_ok h
    have found := choiceValue_ok read
    cases done
    refine ⟨keeps.concat new other rfl rfl rfl rfl rfl rfl fun fresh => ?_, rfl⟩
    simp [value?_concat _ fresh, lookup_concat _ fresh, found, keeps.layer, Config.Layer.ofOptions]
  | minify | processShim | verbose | help | version => cases takes

theorem settle_of_none (h : d.waiting = none) : d.settle = .ok d := by
  rw [settle, h]

theorem Keeps.settle (keeps : d.Keeps given) (h : d.settle = .ok d') :
    d'.waiting = none ∧ ∃ early, d'.Keeps (given ++ early) ∧
      ∀ {arguments more}, Spelled arguments more →
        Continues d.waiting arguments (early ++ more) := by
  unfold Draft.settle at h
  split at h
  · rename_i nothing
    cases h
    refine ⟨nothing, [], by rwa [List.append_nil], fun spelled => ?_⟩
    rwa [nothing]
  · cases h
  · rename_i o value waits
    have keeps' : Draft.Keeps { d with waiting := none } given := { keeps with takes := nofun }
    obtain ⟨kept, still⟩ := keeps'.take (keeps.takes o _ waits) h
    refine ⟨still, _, kept, fun spelled => ?_⟩
    rw [waits]
    exact ⟨_, rfl, spelled⟩

theorem Keeps.raise (keeps : d.Keeps given) (idle : d.waiting = none) (plain : o.takesValue = false)
    (h : d.raise o = .ok d') : d'.Keeps (given ++ [(o, none)]) ∧ d'.waiting = none := by
  obtain ⟨d, settled, h⟩ := bind_ok h
  cases (settle_of_none idle).symm.trans settled
  cases o with
  | minify | processShim =>
    obtain ⟨noting, noted, h⟩ := bind_ok h
    obtain ⟨new, rfl⟩ := note_ok noted
    cases h
    refine ⟨keeps.concat new nofun rfl rfl rfl rfl rfl rfl fun fresh => ?_, idle⟩
    simp [value?_concat _ fresh, lookup_concat _ fresh, keeps.layer, Config.Layer.ofOptions]
  | verbose =>
    cases h
    have same {k : CommandOption} (other : k ≠ .verbose) :
        (given ++ [(CommandOption.verbose, none)]).lookup k = given.lookup k :=
      lookup_concat_of_ne none other
    have count : (given ++ [(CommandOption.verbose, none)]).count (CommandOption.verbose, none) =
        given.count (CommandOption.verbose, none) + 1 := by simp
    refine ⟨⟨?_, ?_, ?_, ?_, ?_, fun k other => ?_, fun k out other => ?_, keeps.takes⟩, idle⟩
    · simp [Given.value?, same, keeps.entry]
    · simp [Given.value?, same, keeps.output]
    · simp [Given.value?, same, keeps.configFile]
    · show min verbosityLimit (d.verbosity + 1) = _
      rw [keeps.verbosity, count]
      omega
    · simp [Given.value?, same, keeps.layer, Config.Layer.ofOptions]
    · rw [count_concat, if_neg other.symm]
      exact keeps.once k other
    · rw [same other]
      exact keeps.noted k out other
  | help | version => cases h
  | entry | output | root | env | platform | instantiation | config => cases plain

theorem Keeps.begin_ {attached : Option String} (keeps : d.Keeps given) (idle : d.waiting = none)
    (takes : o.takesValue = true) (h : d.begin_ o attached = .ok d') :
    match attached with
    | some value => d'.Keeps (given ++ [(o, some value)]) ∧ d'.waiting = none
    | none => d'.Keeps given ∧ d'.waiting = some (o, none) := by
  obtain ⟨d, settled, h⟩ := bind_ok h
  cases (settle_of_none idle).symm.trans settled
  cases attached with
  | some value =>
    obtain ⟨kept, still⟩ := keeps.take takes h
    exact ⟨kept, still.trans idle⟩
  | none =>
    cases h
    refine ⟨{ keeps with takes := ?_ }, rfl⟩
    rintro _ _ ⟨⟩
    exact takes

theorem letter?_of_ofLetter? {c : Char} (h : CommandOption.ofLetter? c = some o) :
    o.letter? = some c := by
  simpa using List.find?_some h

theorem Keeps.readLetters {text : List Char} (keeps : d.Keeps given) (idle : d.waiting = none)
    (h : d.readLetters text = .ok d') : ∃ own last, Letters text own last ∧
      d'.Keeps (given ++ own) ∧ d'.waiting = last.map (·, none) := by
  induction text generalizing d given with
  | nil =>
    cases h
    exact ⟨[], none, .done, by rwa [List.append_nil], idle⟩
  | cons c rest ih =>
    unfold Draft.readLetters at h
    split at h
    · cases h
    rename_i o found
    have letter := letter?_of_ofLetter? found
    split at h
    · rename_i takes
      split at h
      · exact ⟨[], some o, .last letter takes, by simpa using keeps.begin_ idle takes h⟩
      · exact ⟨_, none, .equals letter takes, keeps.begin_ idle takes h⟩
      · rename_i nonempty other
        obtain ⟨d, value, rfl⟩ := List.exists_cons_of_ne_nil nonempty
        have apart : d ≠ '=' := fun same => other value (same ▸ rfl)
        exact ⟨_, none, .attached letter takes apart, keeps.begin_ idle takes h⟩
    · rename_i plain
      obtain ⟨between, raised, h⟩ := bind_ok h
      obtain ⟨kept, still⟩ := keeps.raise idle (Bool.eq_false_iff.mpr plain) raised
      obtain ⟨own, last, letters, kept, ends⟩ := ih kept still h
      refine ⟨(o, none) :: own, last, .switch letter (Bool.eq_false_iff.mpr plain) letters, ?_, ends⟩
      rwa [List.append_assoc] at kept

theorem name_of_ofName? {name : List Char} (h : CommandOption.ofName? name = some o) :
    name = o.name.toList := by
  have same : o.name = String.ofList name := by simpa using List.find?_some h
  rw [same, String.toList_ofList]

theorem takeWhile_equals (text : List Char) :
    (text.drop (text.takeWhile (· != '=')).length = [] ∧ text.takeWhile (· != '=') = text) ∨
    ∃ value, text.drop (text.takeWhile (· != '=')).length = '=' :: value ∧
      text = text.takeWhile (· != '=') ++ '=' :: value := by
  have whole := List.takeWhile_append_dropWhile (p := (· != '=')) (l := text)
  have rest : text.drop (text.takeWhile (· != '=')).length = text.dropWhile (· != '=') :=
    calc text.drop (text.takeWhile (· != '=')).length
      _ = (text.takeWhile (· != '=') ++ text.dropWhile (· != '=')).drop
            (text.takeWhile (· != '=')).length := by rw [whole]
      _ = text.dropWhile (· != '=') := List.drop_left
  rw [rest]
  cases after : text.dropWhile (· != '=') with
  | nil =>
    rw [after, List.append_nil] at whole
    exact .inl ⟨rfl, whole⟩
  | cons c value =>
    have mark := List.head?_dropWhile_not (· != '=') text
    rw [after] at whole mark
    obtain rfl : c = '=' := by simpa using mark
    exact .inr ⟨value, rfl, whole.symm⟩

theorem Keeps.readName {text : List Char} (keeps : d.Keeps given) (idle : d.waiting = none)
    (h : d.readName text = .ok d') : ∃ own last, Name text own last ∧
      d'.Keeps (given ++ own) ∧ d'.waiting = last.map (·, none) := by
  unfold Draft.readName at h
  dsimp only at h
  split at h
  · cases h
  rename_i o found
  have named := name_of_ofName? found
  obtain ⟨nothing, whole⟩ | ⟨value, after, whole⟩ := takeWhile_equals text
  · rw [nothing] at h
    rw [whole] at named
    subst named
    split at h
    · rename_i takes
      exact ⟨[], some o, .last takes, by simpa using keeps.begin_ idle takes h⟩
    · rename_i plain
      have plain := Bool.eq_false_iff.mpr plain
      exact ⟨_, none, .switch plain, keeps.raise idle plain h⟩
  · rw [after] at h
    rw [named] at whole
    subst whole
    split at h
    · rename_i takes
      exact ⟨_, none, .equals takes, keeps.begin_ idle takes h⟩
    · cases h

/-- A step that settles first does from a settled draft what it does from this one. -/
def Settles (d : Draft) (step : Draft → Reading Draft) : Prop :=
  ∀ d', step d = .ok d' → ∃ s, d.settle = .ok s ∧ step s = .ok d'

theorem Keeps.settles_bind (keeps : d.Keeps given) (f : Draft → Reading Draft) :
    d.Settles fun d => d.settle >>= f := by
  intro d' h
  obtain ⟨s, settled, h⟩ := bind_ok h
  refine ⟨s, settled, ?_⟩
  show s.settle >>= f = _
  rw [settle_of_none (keeps.settle settled).1]
  exact h

theorem Keeps.settles_raise (keeps : d.Keeps given) (o : CommandOption) : d.Settles (·.raise o) :=
  keeps.settles_bind _

theorem Keeps.settles_begin (keeps : d.Keeps given) (o : CommandOption) (attached : Option String) :
    d.Settles (·.begin_ o attached) :=
  keeps.settles_bind _

theorem Keeps.settles_letters (keeps : d.Keeps given) (c : Char) (rest : List Char) :
    d.Settles (·.readLetters (c :: rest)) := by
  intro d' h
  unfold Draft.readLetters at h ⊢
  cases found : CommandOption.ofLetter? c with
  | none =>
    rw [found] at h
    cases h
  | some o =>
    rw [found] at h
    dsimp only at h ⊢
    by_cases takes : o.takesValue = true
    · simp only [if_pos takes] at h ⊢
      split at h <;> exact keeps.settles_begin o _ _ h
    · rw [if_neg takes] at h
      obtain ⟨between, raised, h⟩ := bind_ok h
      obtain ⟨s, settled, raised⟩ := keeps.settles_raise o _ raised
      refine ⟨s, settled, ?_⟩
      rw [if_neg takes, show s.raise o = _ from raised]
      exact h

theorem Keeps.settles_name (keeps : d.Keeps given) (text : List Char) :
    d.Settles (·.readName text) := by
  intro d' h
  unfold Draft.readName at h ⊢
  dsimp only at h ⊢
  cases found : CommandOption.ofName? (text.takeWhile (· != '=')) with
  | none =>
    rw [found] at h
    cases h
  | some o =>
    rw [found] at h
    dsimp only at h ⊢
    by_cases takes : o.takesValue = true
    · simp only [if_pos takes] at h ⊢
      exact keeps.settles_begin o _ _ h
    simp only [if_neg takes] at h ⊢
    obtain ⟨nothing, -⟩ | ⟨value, after, -⟩ := takeWhile_equals text
    · rw [nothing] at h ⊢
      exact keeps.settles_raise o _ h
    · rw [after] at h
      cases h

theorem Keeps.readDashed {argument : String} {text : List Char} (keeps : d.Keeps given)
    (starts : argument.toList = '-' :: text) (nonempty : text ≠ [])
    (h : d.read argument = .ok d') : ∃ s, d.settle = .ok s ∧
      ∀ {earlier}, s.Keeps earlier → ∃ own last, Dashed text own last ∧
        d'.Keeps (earlier ++ own) ∧ d'.waiting = last.map (·, none) := by
  unfold Draft.read at h
  rw [starts] at h
  split at h
  · rename_i same
    cases same
    obtain ⟨s, settled, h⟩ := keeps.settles_name _ _ h
    refine ⟨s, settled, fun keeps' => ?_⟩
    obtain ⟨own, last, name, kept⟩ := keeps'.readName (keeps.settle settled).1 h
    exact ⟨own, last, .name name, kept⟩
  · rename_i same
    cases same
    obtain ⟨s, settled, h⟩ := keeps.settles_letters _ _ _ h
    refine ⟨s, settled, fun keeps' => ?_⟩
    obtain ⟨own, last, letters, kept⟩ := keeps'.readLetters (keeps.settle settled).1 h
    exact ⟨own, last, .letters letters, kept⟩
  · rename_i other
    obtain ⟨c, rest, rfl⟩ := List.exists_cons_of_ne_nil nonempty
    exact (other c rest rfl).elim

theorem isWord_or_dashed (argument : String) :
    IsWord argument ∨ ∃ text, text ≠ [] ∧ argument.toList = '-' :: text := by
  by_cases dashed : ∃ c rest, argument.toList = '-' :: c :: rest
  · obtain ⟨c, rest, starts⟩ := dashed
    exact .inr ⟨c :: rest, List.cons_ne_nil _ _, starts⟩
  · exact .inl fun c rest starts => dashed ⟨c, rest, starts⟩

/-- One argument adds to what has been given, and may leave an option waiting. -/
theorem Keeps.read {argument : String} (keeps : d.Keeps given) (h : d.read argument = .ok d') :
    ∃ own, d'.Keeps (given ++ own) ∧ ∀ rest more, Continues d'.waiting rest more →
      Continues d.waiting (argument :: rest) (own ++ more) := by
  obtain word | ⟨text, nonempty, starts⟩ := isWord_or_dashed argument
  · have read : d.read argument = d.readWord argument := by
      unfold Draft.read
      split
      · exact (word _ _ ‹_›).elim
      · exact (word _ _ ‹_›).elim
      · rfl
    rw [read, readWord] at h
    split at h
    · rename_i o waits
      cases h
      refine ⟨[], ?_, fun rest more => ?_⟩
      · rw [List.append_nil]
        exact { keeps with takes := fun _ _ same => by cases same; exact keeps.takes o none waits }
      · rintro ⟨later, rfl, spelled⟩
        rw [waits]
        exact ⟨argument, rest, later, rfl, word, rfl, spelled⟩
    · cases h
  · obtain ⟨s, settled, reads⟩ := keeps.readDashed starts nonempty h
    obtain ⟨-, early, keeps', continues⟩ := keeps.settle settled
    obtain ⟨own, last, dashed, kept, waits⟩ := reads keeps'
    refine ⟨early ++ own, by rwa [List.append_assoc] at kept, fun rest more left => ?_⟩
    rw [List.append_assoc]
    apply continues
    rw [waits] at left
    cases last with
    | none => exact .whole starts dashed left
    | some o =>
      obtain ⟨value, later, more, rfl, word, rfl, spelled⟩ := left
      exact .apart starts dashed word spelled

/-- The arguments give what is kept in the end. -/
theorem Keeps.readAll {arguments : List String} (keeps : d.Keeps given)
    (h : d.readAll arguments = .ok d') :
    ∃ more, Continues d.waiting arguments more ∧ d'.Keeps (given ++ more) := by
  -- arguments are read from the left, so what has been given varies
  fun_induction Draft.readAll d arguments generalizing given with
  | case1 d =>
    obtain ⟨-, early, kept, continues⟩ := keeps.settle h
    exact ⟨early, by simpa using continues .done, kept⟩
  | case2 d rest last =>
    obtain ⟨-, early, kept, continues⟩ := keeps.settle h
    have nothing : rest = [] := by simpa using last
    subst nothing
    exact ⟨early, by simpa using continues .dashes, kept⟩
  | case3 => cases h
  | case4 d argument rest _ ih =>
    obtain ⟨next, read, h⟩ := bind_ok h
    obtain ⟨own, kept, continues⟩ := keeps.read read
    obtain ⟨more, left, kept⟩ := ih next kept h
    exact ⟨own ++ more, continues rest more left, by rwa [List.append_assoc] at kept⟩

end Draft

/-- An order to bundle keeps what its arguments give. -/
theorem spelled_of_parse {arguments : List String} {line : CommandLine}
    (h : parse arguments = .ok line) : ∃ given, Spelled arguments given ∧ line.Keeps given := by
  obtain ⟨d, read, h⟩ := bind_ok h
  obtain ⟨given, spelled, keeps⟩ := Draft.keeps_start.readAll read
  refine ⟨given, spelled, ?_⟩
  unfold Draft.finish at h
  split at h
  · rename_i entry output
    cases h
    rw [List.nil_append] at keeps
    exact ⟨entry ▸ keeps.entry, output ▸ keeps.output, keeps.configFile, keeps.verbosity,
      keeps.layer, keeps.once⟩
  · cases h

end CommandLine

end Bundler
