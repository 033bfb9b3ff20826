import Bundler.Proofs.Segments

/-! Where a path puts things. A path leads to a location if the directories on the way are there,
whether or not anything is at the location itself, and it leads there in every tree that keeps these
directories. -/

namespace Bundler

namespace FileTree

theorem lookup?_root (t : FileTree) : t.lookup? [] = some .directory := if_pos rfl

theorem lookup?_eq {t : FileTree} {at_ : Location} (h : at_ ≠ []) :
    t.lookup? at_ = (t.entries.find? fun e => e.1 == at_).map (·.2) := if_neg h

theorem lookup?_put_self {t : FileTree} {at_ : Location} (h : at_ ≠ []) (entry : Entry) :
    (t.put at_ entry).lookup? at_ = some entry := by
  rw [lookup?_eq h, put]
  induction t.entries with
  | nil => simp [putIn]
  | cons e rest ih =>
    rw [putIn]
    split
    · simp
    · rename_i other
      rw [List.find?_cons_of_neg (by simpa using other)]
      exact ih

theorem lookup?_put_other {t : FileTree} {at_ other : Location} (h : other ≠ at_) (entry : Entry) :
    (t.put at_ entry).lookup? other = t.lookup? other := by
  by_cases root : other = []
  · rw [root, lookup?_root, lookup?_root]
  rw [lookup?_eq root, lookup?_eq root, put]
  induction t.entries with
  | nil => simp [putIn, Ne.symm h]
  | cons e rest ih =>
    rw [putIn]
    split
    · rename_i same
      rw [List.find?_cons_of_neg (by simpa using Ne.symm h),
        List.find?_cons_of_neg (by simpa [same] using Ne.symm h)]
    · by_cases here : e.1 = other
      · rw [List.find?_cons_of_pos (by simpa using here),
          List.find?_cons_of_pos (by simpa using here)]
      · rw [List.find?_cons_of_neg (by simpa using here),
          List.find?_cons_of_neg (by simpa using here)]
        exact ih

theorem lookup?_remove_below {t : FileTree} {at_ other : Location} (h : at_ <+: other)
    (below : other ≠ []) : (t.remove at_).lookup? other = none := by
  rw [lookup?_eq below, remove]
  refine Option.map_eq_none_iff.mpr (List.find?_eq_none.mpr fun e mem => ?_)
  have kept := (List.mem_filter.mp mem).2
  simp only [beq_iff_eq]
  rintro rfl
  simp [List.isPrefixOf_iff_prefix.mpr h] at kept

theorem lookup?_remove_other {t : FileTree} {at_ other : Location} (h : ¬ at_ <+: other) :
    (t.remove at_).lookup? other = t.lookup? other := by
  by_cases root : other = []
  · rw [root, lookup?_root, lookup?_root]
  rw [lookup?_eq root, lookup?_eq root, remove, List.find?_filter]
  congr 2
  funext e
  by_cases here : e.1 = other
  · have apart : at_.isPrefixOf e.1 = false := by
      rw [here]
      exact Bool.eq_false_iff.mpr fun below => h (List.isPrefixOf_iff_prefix.mp below)
    rw [apart, here]
    simp
  · simp [here]

theorem walk_append {t : FileTree} {spot middle : Spot} {front : List (List Char)}
    (h : t.walk spot front = .ok middle) (rest : List (List Char)) :
    t.walk spot (front ++ rest) = t.walk middle rest := by
  rw [walk, List.foldlM_append]
  change (t.walk spot front).bind _ = _
  rw [h]
  rfl

theorem walk_append_ok {t : FileTree} {spot after : Spot} {front rest : List (List Char)}
    (h : t.walk spot (front ++ rest) = .ok after) :
    ∃ middle, t.walk spot front = .ok middle ∧ t.walk middle rest = .ok after := by
  rw [walk, List.foldlM_append] at h
  change (t.walk spot front).bind _ = _ at h
  cases walked : t.walk spot front with
  | error e =>
    rw [walked] at h
    cases h
  | ok middle =>
    rw [walked] at h
    exact ⟨middle, rfl, h⟩

theorem walk_file_ok {t : FileTree} {at_ : Location} {content : Content} {after : Spot}
    {segments : List (List Char)} (h : t.walk (.at_ at_ (.file content)) segments = .ok after) :
    segments = [] ∧ after = .at_ at_ (.file content) := by
  cases segments with
  | nil =>
    cases h
    exact ⟨rfl, rfl⟩
  | cons segment rest =>
    obtain ⟨_, entered, -⟩ := walk_cons_ok h
    cases entered

theorem enter_idle_ok {t : FileTree} {spot : Spot} {segment : List Char}
    (idle : Path.isIdle segment) (h : ∀ at_ content, spot ≠ .at_ at_ (.file content)) :
    t.enter spot segment = .ok spot := by
  cases spot with
  | above => rw [enter, idle, Bool.true_or, if_pos rfl]
  | at_ location entry =>
    cases entry with
    | directory => rw [enter, if_pos idle]
    | file content => exact (h location content rfl).elim

/-- Where a walk leads without the idle segments, it leads with them, unless they come after a
file. -/
theorem walk_of_filter {t : FileTree} {spot after : Spot} {segments : List (List Char)}
    (h : t.walk spot (segments.filter fun s => !Path.isIdle s) = .ok after) :
    t.walk spot segments = .ok after ∨ t.walk spot segments = .error .notADirectory ∧
      ∃ at_ content, after = .at_ at_ (.file content) := by
  induction segments generalizing spot with
  | nil => exact .inl h
  | cons segment rest ih =>
    by_cases idle : Path.isIdle segment
    · rw [List.filter_cons_of_neg (by simp [idle])] at h
      by_cases isFile : ∃ at_ content, spot = .at_ at_ (.file content)
      · -- the full walk fails here, and the one without idle segments has nothing left to enter
        obtain ⟨at_, content, rfl⟩ := isFile
        exact .inr ⟨rfl, at_, content, (walk_file_ok h).2⟩
      · have stays : t.enter spot segment = .ok spot :=
          enter_idle_ok idle fun at_ content same => isFile ⟨at_, content, same⟩
        rw [walk_cons stays]
        exact ih h
    · rw [List.filter_cons_of_pos (by simp [idle])] at h
      obtain ⟨middle, entered, later⟩ := walk_cons_ok h
      rw [walk_cons entered]
      exact ih later

theorem enter_name {t : FileTree} {location : Location} {name : List Char} {entry : Entry}
    (active : Path.isIdle name = false) (goes : name ≠ ['.', '.'])
    (there : t.lookup? (location ++ [name]) = some entry) :
    t.enter (.at_ location .directory) name = .ok (.at_ (location ++ [name]) entry) := by
  rw [enter, active, if_neg Bool.false_ne_true, if_neg goes, there]

/-- Every directory of one tree is a directory of the other. -/
def Keeps (t t' : FileTree) : Prop :=
  ∀ at_, t.lookup? at_ = some .directory → t'.lookup? at_ = some .directory

variable {t t' : FileTree}

theorem Keeps.enter (keeps : t.Keeps t') {spot middle : Spot} {segment : List Char}
    (entered : t.enter spot segment = .ok middle)
    (isPlace : ∀ at_ content, middle ≠ .at_ at_ (.file content)) :
    t'.enter spot segment = .ok middle := by
  unfold FileTree.enter at entered ⊢
  split at entered
  · exact entered
  · cases entered
  · split at entered
    · rename_i idle
      rw [if_pos idle]
      exact entered
    · rename_i active
      rw [if_neg active]
      split at entered
      · rename_i climbs
        rw [if_pos climbs]
        exact entered
      · rename_i goes
        rw [if_neg goes]
        split at entered
        · rename_i entry found
          cases entered
          cases entry with
          | directory => rw [keeps _ found]
          | file content => exact (isPlace _ _ rfl).elim
        · cases entered

theorem Keeps.walk (keeps : t.Keeps t') {spot : Spot} {location : Location}
    {segments : List (List Char)} (walked : t.walk spot segments = .ok (.at_ location .directory)) :
    t'.walk spot segments = .ok (.at_ location .directory) := by
  induction segments generalizing spot with
  | nil => exact walked
  | cons segment rest ih =>
    obtain ⟨middle, entered, later⟩ := walk_cons_ok walked
    have isPlace (at_ : Location) (content : Content) : middle ≠ .at_ at_ (.file content) := by
      rintro rfl
      cases (walk_file_ok later).2
    rw [walk_cons (keeps.enter entered isPlace)]
    exact ih later

/-- A path leads to a location, whether or not anything is there: its last segment is a name in a
directory that the segments before it lead to. -/
structure Leads (t : FileTree) (cwd : Location) (p : Path) (place : Location) : Prop where
  nonempty : p.isEmpty = false
  clean : p.chars.contains '\x00' = false
  way : ∃ front last location, p.segments = front ++ [last] ∧ Path.isIdle last = false ∧
    last ≠ ['.', '.'] ∧ t.walk (.at_ (base cwd p) .directory) front = .ok (.at_ location .directory) ∧
    place = location ++ [last]

theorem Keeps.follow (keeps : t.Keeps t') {cwd location : Location} {p : Path}
    (h : t.follow cwd p = .ok (.at_ location .directory)) :
    t'.follow cwd p = .ok (.at_ location .directory) := by
  obtain ⟨nonempty, clean, walked⟩ := follow_ok_iff.mp h
  exact follow_ok_iff.mpr ⟨nonempty, clean, keeps.walk walked⟩

theorem Leads.follow {cwd : Location} {p : Path} {place : Location} {entry : Entry}
    (h : t.Leads cwd p place) (keeps : t.Keeps t') (there : t'.lookup? place = some entry) :
    t'.follow cwd p = .ok (.at_ place entry) := by
  obtain ⟨front, last, location, segments, active, goes, walked, rfl⟩ := h.way
  rw [follow_eq h.nonempty h.clean, segments, walk_append (keeps.walk walked),
    walk_cons (enter_name active goes there)]
  rfl

theorem Leads.below {cwd : Location} {p : Path} {place : Location} (h : t.Leads cwd p place) :
    place ≠ [] := by
  obtain ⟨_, last, location, -, -, -, -, rfl⟩ := h.way
  exact List.concat_ne_nil _ _

theorem enter_file {spot : Spot} {segment : List Char} {place : Location} {content : Content}
    (h : t.enter spot segment = .ok (.at_ place (.file content))) :
    ∃ location, spot = .at_ location .directory ∧ Path.isIdle segment = false ∧
      segment ≠ ['.', '.'] ∧ place = location ++ [segment] ∧
      t.lookup? place = some (.file content) := by
  unfold enter at h
  split at h
  · split at h <;> cases h
  · cases h
  · rename_i location
    split at h
    · cases h
    · rename_i active
      split at h
      · split at h <;> cases h
      · rename_i goes
        split at h
        · rename_i entry found
          cases h
          exact ⟨location, rfl, Bool.eq_false_iff.mpr active, goes, rfl, found⟩
        · cases h

theorem follow_file {cwd : Location} {p : Path} {place : Location} {content : Content}
    (h : t.follow cwd p = .ok (.at_ place (.file content))) :
    t.Leads cwd p place ∧ t.lookup? place = some (.file content) := by
  obtain ⟨nonempty, clean, walked⟩ := follow_ok_iff.mp h
  rcases List.eq_nil_or_concat p.segments with none | ⟨front, last, ends⟩
  · exact (Path.splitChars_ne_nil p.chars none).elim
  · rw [List.concat_eq_append] at ends
    rw [ends] at walked
    obtain ⟨middle, before, entered⟩ := walk_append_ok walked
    obtain ⟨after, entered, stays⟩ := walk_cons_ok entered
    cases stays
    obtain ⟨location, rfl, active, goes, same, found⟩ := enter_file entered
    exact ⟨⟨nonempty, clean, front, last, location, ends, active, goes, before, same⟩, found⟩

theorem bind_directory_ok {α : Type} {x : Except IoFault Spot} {f : Location → Except IoFault α}
    {a : α} (h : (x >>= fun spot => spot.directory? >>= f) = .ok a) :
    ∃ location, x = .ok (.at_ location .directory) ∧ f location = .ok a := by
  rcases x with e | (_ | ⟨location, _ | content⟩)
  · cases h
  · cases h
  · exact ⟨location, rfl, h⟩
  · cases h

theorem target?_ok {cwd : Location} {p : Path} {place : Location} (h : t.target? cwd p = .ok place) :
    ∃ front name location, p.names = front ++ [name] ∧ name ≠ ['.', '.'] ∧
      t.walk (.at_ (base cwd p) .directory) front = .ok (.at_ location .directory) ∧
      place = location ++ [name] := by
  unfold target? at h
  split at h
  · rename_i name parent named before
    obtain ⟨front, names, goes⟩ := Path.names_of_fileName named
    obtain ⟨trail, below, rfl, same⟩ := Path.parent_of_names names before
    rw [← same] at names
    dsimp only at h
    cases empty : (p.withTrail trail).isEmpty with
    | true =>
      -- a bare name is placed in the working directory
      rw [empty, if_pos rfl] at h
      obtain ⟨location, led, placed⟩ := bind_directory_ok h
      cases led
      cases placed
      refine ⟨_, name, cwd, names, goes, ?_, rfl⟩
      have noNames : (p.withTrail trail).names = [] := by
        rw [Path.names, Path.segments, List.isEmpty_iff.mp empty]
        rfl
      rw [noNames, base, Path.isAbsolute_of_empty_withTrail empty]
      rfl
    | false =>
      rw [empty, if_neg Bool.false_ne_true] at h
      obtain ⟨location, led, placed⟩ := bind_directory_ok h
      cases placed
      refine ⟨_, name, location, names, goes, ?_, rfl⟩
      have walked := walk_filter (follow_ok_iff.mp led).2.2
      rw [base, Path.isAbsolute_withTrail below empty] at walked
      exact walked
  · cases h

theorem walk_of_missing {cwd : Location} {p : Path}
    (missing : t.follow cwd p = .error .notFound) (named : p.names ≠ []) :
    p.isEmpty = false ∧ p.chars.contains '\x00' = false ∧
      t.walk (.at_ (base cwd p) .directory) p.segments = .error .notFound := by
  have nonempty : p.isEmpty = false := by
    refine Bool.eq_false_iff.mpr fun empty => named ?_
    rw [Path.names, Path.segments, List.isEmpty_iff.mp empty]
    rfl
  have clean : p.chars.contains '\x00' = false := by
    refine Bool.eq_false_iff.mpr fun dirty => ?_
    rw [follow, nonempty, if_neg Bool.false_ne_true, if_pos dirty] at missing
    cases missing
  rw [follow_eq nonempty clean] at missing
  exact ⟨nonempty, clean, missing⟩

theorem lookup?_of_target {cwd : Location} {p : Path} {place : Location}
    (missing : t.follow cwd p = .error .notFound) (h : t.target? cwd p = .ok place) :
    t.lookup? place = none := by
  obtain ⟨front, name, location, names, goes, walked, rfl⟩ := target?_ok h
  obtain ⟨-, -, lost⟩ := walk_of_missing missing (by simp [names])
  cases there : t.lookup? (location ++ [name]) with
  | none => rfl
  | some entry =>
    have active := Path.not_idle_of_mem_names (names ▸ List.mem_concat_self)
    have found : t.walk (.at_ (base cwd p) .directory) p.names =
        .ok (.at_ (location ++ [name]) entry) := by
      rw [names, walk_append walked, walk_cons (enter_name active goes there)]
      rfl
    rcases walk_of_filter found with led | ⟨led, -⟩ <;> cases led.symm.trans lost

theorem leads_of_target {cwd : Location} {p : Path} {place : Location}
    (missing : t.follow cwd p = .error .notFound) (h : t.target? cwd p = .ok place)
    (noDot : p.endsInDot = false) (noSlash : p.chars.getLast? ≠ some '/') : t.Leads cwd p place := by
  obtain ⟨front, name, location, names, goes, walked, rfl⟩ := target?_ok h
  obtain ⟨nonempty, clean, -⟩ := walk_of_missing missing (by simp [names])
  refine ⟨nonempty, clean, ?_⟩
  rcases List.eq_nil_or_concat p.segments with none | ⟨before, last, ends⟩
  · exact (Path.splitChars_ne_nil p.chars none).elim
  · rw [List.concat_eq_append] at ends
    -- the last segment is not idle, so it is the last name
    have active := Path.not_idle_last ends nonempty noDot noSlash
    rw [Path.names, ends, List.filter_append, List.filter_cons_of_pos (by simp [active])] at names
    obtain ⟨fronts, lasts⟩ := List.append_inj' names rfl
    cases lasts
    rw [← fronts] at walked
    rcases walk_of_filter walked with led | ⟨-, at_, content, isFile⟩
    · exact ⟨before, name, location, ends, active, goes, led, rfl⟩
    · cases isFile

end FileTree

end Bundler
