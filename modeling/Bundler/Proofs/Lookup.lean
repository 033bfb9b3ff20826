import Bundler.Cache
import Bundler.Resolver

/-! What a look-up on a disk finds. Two paths whose components agree lead to the same entry where
both lead to one, so a text that is kept for one path is the text of the other. -/

namespace Bundler

namespace Path

theorem segments_filter (p : Path) :
    p.segments.filter (fun s => !isIdle s) = p.trail.filter fun s => !isIdle s := by
  unfold trail
  split
  · rename_i h
    rw [h, List.filter_cons_of_neg (by simp [isIdle])]
  · rename_i h
    rw [h, List.filter_cons_of_neg (by simp [isIdle])]
  · rfl

theorem splitChars_ne_nil (chars : List Char) : splitChars '/' chars ≠ [] := by
  unfold splitChars
  split
  · exact List.cons_ne_nil _ _
  · split
    · exact List.cons_ne_nil _ _
    · split <;> exact List.cons_ne_nil _ _

theorem isAbsolute_iff (p : Path) : p.isAbsolute ↔ p.start = [.root] := by
  obtain ⟨chars⟩ := p
  unfold isAbsolute start segments
  cases chars with
  | nil => simp [splitChars]
  | cons c rest =>
    by_cases slash : c = '/'
    · cases below : splitChars '/' rest with
      | nil => exact (splitChars_ne_nil rest below).elim
      | cons first later => simp [splitChars, slash, below]
    · have other : ∃ segment later, splitChars '/' (c :: rest) = (c :: segment) :: later := by
        rw [splitChars, if_neg slash]
        split <;> exact ⟨_, _, rfl⟩
      obtain ⟨segment, later, same⟩ := other
      rw [same]
      simp only [List.head?_cons, beq_iff_eq, Option.some.injEq, slash, false_iff]
      split <;> simp_all

theorem start_eq (p : Path) : p.start = [] ∨ p.start = [.root] ∨ p.start = [.current] := by
  unfold start
  split <;> simp

theorem ofSegment_injective : Function.Injective Component.ofSegment := by
  intro a b same
  unfold Component.ofSegment at same
  split at same <;> split at same <;> simp_all

theorem ofSegment_ne (segment : List Char) :
    Component.ofSegment segment ≠ .root ∧ Component.ofSegment segment ≠ .current := by
  unfold Component.ofSegment
  split <;> simp

/-- Paths with the same components start in the same place and have the same segments, idle ones
aside. -/
theorem same_iff {p q : Path} : p.same q ↔ p.start = q.start ∧
    p.segments.filter (fun s => !isIdle s) = q.segments.filter fun s => !isIdle s := by
  rw [same, beq_iff_eq, segments_filter, segments_filter, components, components]
  refine ⟨fun h => ?_, fun ⟨starts, trails⟩ => by rw [starts, trails]⟩
  have apart (l : List (List Char)) (c : Component) (rest : List Component)
      (h : l.map Component.ofSegment = c :: rest) : c ≠ .root ∧ c ≠ .current := by
    obtain ⟨segment, _, -, rfl, -⟩ := List.map_eq_cons_iff.mp h
    exact ofSegment_ne segment
  have trails {l l' : List (List Char)}
      (h : l.map Component.ofSegment = l'.map Component.ofSegment) : l = l' :=
    (List.map_inj_right fun _ _ same => ofSegment_injective same).mp h
  rcases start_eq p with hp | hp | hp <;> rcases start_eq q with hq | hq | hq <;>
    rw [hp, hq] at h ⊢
  all_goals simp only [List.nil_append, List.cons_append] at h
  · exact ⟨rfl, trails h⟩
  · exact ((apart _ _ _ h).1 rfl).elim
  · exact ((apart _ _ _ h).2 rfl).elim
  · exact ((apart _ _ _ h.symm).1 rfl).elim
  · exact ⟨rfl, trails (List.cons.inj h).2⟩
  · cases (List.cons.inj h).1
  · exact ((apart _ _ _ h.symm).2 rfl).elim
  · cases (List.cons.inj h).1
  · exact ⟨rfl, trails (List.cons.inj h).2⟩

end Path

namespace FileTree

theorem enter_idle {t : FileTree} {spot after : Spot} {segment : List Char}
    (idle : Path.isIdle segment) (h : t.enter spot segment = .ok after) : after = spot := by
  unfold enter at h
  split at h
  · rw [idle, Bool.true_or, if_pos rfl] at h
    exact (Except.ok.inj h).symm
  · cases h
  · rw [if_pos idle] at h
    exact (Except.ok.inj h).symm

theorem walk_cons_ok {t : FileTree} {spot after : Spot} {segment : List Char}
    {rest : List (List Char)} (h : t.walk spot (segment :: rest) = .ok after) :
    ∃ middle, t.enter spot segment = .ok middle ∧ t.walk middle rest = .ok after := by
  rw [walk, List.foldlM_cons] at h
  cases entered : t.enter spot segment with
  | error e =>
    rw [entered] at h
    cases h
  | ok middle =>
    rw [entered] at h
    exact ⟨middle, rfl, h⟩

theorem walk_cons {t : FileTree} {spot middle : Spot} {segment : List Char}
    (h : t.enter spot segment = .ok middle) (rest : List (List Char)) :
    t.walk spot (segment :: rest) = t.walk middle rest := by
  rw [walk, List.foldlM_cons, h]
  rfl

theorem walk_filter {t : FileTree} {spot after : Spot} {segments : List (List Char)}
    (h : t.walk spot segments = .ok after) :
    t.walk spot (segments.filter fun s => !Path.isIdle s) = .ok after := by
  induction segments generalizing spot with
  | nil => exact h
  | cons segment rest ih =>
    obtain ⟨middle, entered, later⟩ := walk_cons_ok h
    by_cases idle : Path.isIdle segment
    · rw [List.filter_cons_of_neg (by simp [idle]), ← enter_idle idle entered]
      exact ih later
    · rw [List.filter_cons_of_pos (by simp [idle]), walk_cons entered]
      exact ih later

def base (cwd : Location) (p : Path) : Location := if p.isAbsolute then [] else cwd

theorem follow_eq {t : FileTree} {cwd : Location} {p : Path} (nonempty : p.isEmpty = false)
    (clean : p.chars.contains '\x00' = false) :
    t.follow cwd p = t.walk (.at_ (base cwd p) .directory) p.segments := by
  rw [follow, nonempty, if_neg Bool.false_ne_true, clean, if_neg Bool.false_ne_true]
  rfl

theorem follow_ok_iff {t : FileTree} {cwd : Location} {p : Path} {spot : Spot} :
    t.follow cwd p = .ok spot ↔ p.isEmpty = false ∧ p.chars.contains '\x00' = false ∧
      t.walk (.at_ (base cwd p) .directory) p.segments = .ok spot := by
  constructor
  · intro h
    cases empty : p.isEmpty with
    | true =>
      rw [follow, empty, if_pos rfl] at h
      cases h
    | false =>
      cases dirty : p.chars.contains '\x00' with
      | true =>
        rw [follow, empty, if_neg Bool.false_ne_true, dirty, if_pos rfl] at h
        cases h
      | false =>
        rw [follow_eq empty dirty] at h
        exact ⟨rfl, rfl, h⟩
  · rintro ⟨nonempty, clean, walked⟩
    rw [follow_eq nonempty clean, walked]

theorem follow_ok {t : FileTree} {cwd : Location} {p : Path} {spot : Spot}
    (h : t.follow cwd p = .ok spot) :
    t.walk (.at_ (if p.start = [.root] then [] else cwd) .directory)
      (p.segments.filter fun s => !Path.isIdle s) = .ok spot := by
  have walked := walk_filter (follow_ok_iff.mp h).2.2
  simp only [base, Path.isAbsolute_iff] at walked
  exact walked

theorem follow_same {t : FileTree} {cwd : Location} {p q : Path} {atP atQ : Spot} (h : p.same q)
    (hp : t.follow cwd p = .ok atP) (hq : t.follow cwd q = .ok atQ) : atP = atQ := by
  obtain ⟨starts, segments⟩ := Path.same_iff.mp h
  have led := follow_ok hp
  rw [starts, segments, follow_ok hq] at led
  exact (Except.ok.inj led).symm

end FileTree

namespace Disk

theorem file_of_isFile {d : Disk} {p : Path} (h : d.isFile p) :
    ∃ at_ content, d.tree.follow d.cwd p = .ok (.at_ at_ (.file content)) := by
  unfold isFile FileTree.isFile at h
  split at h
  · rename_i led
    exact ⟨_, _, led⟩
  · cases h

theorem follow_of_isFile {d : Disk} {p : Path} (h : d.isFile p) :
    ∃ spot, d.tree.follow d.cwd p = .ok spot := by
  obtain ⟨_, _, led⟩ := file_of_isFile h
  exact ⟨_, led⟩

theorem isFile_of_readText {d : Disk} {p : Path} {text : String} (h : d.readText p = .ok text) :
    d.isFile p := by
  unfold readText FileTree.readText at h
  unfold isFile FileTree.isFile
  split at h
  case h_4 led => rw [led]
  all_goals cases h

theorem readText_same {d : Disk} {p q : Path} {text : String} (h : p.same q)
    (read : d.readText p = .ok text) (isFile : d.isFile q) : d.readText q = .ok text := by
  obtain ⟨atP, ledP⟩ := follow_of_isFile (isFile_of_readText read)
  obtain ⟨atQ, ledQ⟩ := follow_of_isFile isFile
  rw [readText, FileTree.readText, ledP, FileTree.follow_same h ledP ledQ] at read
  rw [readText, FileTree.readText, ledQ]
  exact read

theorem readText_unique {d : Disk} {p q : Path} {text other : String} (h : p.same q)
    (atP : d.readText p = .ok text) (atQ : d.readText q = .ok other) : text = other :=
  Except.ok.inj ((readText_same h atP (isFile_of_readText atQ)).symm.trans atQ)

end Disk

namespace Cache

theorem get?_eq_some {c : Cache} {p : Path} {text : String} (h : c.get? p = some text) :
    ∃ entry ∈ c.texts, entry.1.same p ∧ entry.2 = text := by
  obtain ⟨entry, found, same⟩ := Option.map_eq_some_iff.mp h
  have own := List.find?_some found
  exact ⟨entry, List.mem_of_find?_eq_some found, own, same⟩

theorem get?_same {c : Cache} {p q : Path} (h : p.same q) : c.get? p = c.get? q := by
  have components : p.components = q.components := beq_iff_eq.mp h
  simp only [get?, Path.same, components]

theorem get?_concat (c : Cache) (p q : Path) (text : String) :
    get? ⟨c.texts ++ [(q, text)]⟩ p = (c.get? p).or (if q.same p then some text else none) := by
  rw [get?, get?, List.find?_append, List.find?_singleton]
  cases c.texts.find? fun entry => entry.1.same p with
  | some entry => rfl
  | none => cases q.same p <;> rfl

theorem read_cases {c after : Cache} {d : Disk} {p : Path} {text : String}
    (h : c.read d p = .ok (text, after)) :
    (c.get? p = some text ∧ after = c) ∨
      (c.get? p = none ∧ d.readText p = .ok text ∧ after = ⟨c.texts ++ [(p, text)]⟩) := by
  unfold Cache.read at h
  cases found : c.get? p with
  | some held =>
    rw [found] at h
    cases h
    exact .inl ⟨rfl, rfl⟩
  | none =>
    rw [found] at h
    cases fresh : d.readText p with
    | error e =>
      rw [fresh] at h
      cases h
    | ok value =>
      rw [fresh] at h
      cases h
      exact .inr ⟨rfl, rfl, rfl⟩

theorem read_eq_error {c : Cache} {d : Disk} {p : Path} {e : BundleFault} :
    c.read d p = .error e ↔
      c.get? p = none ∧ ∃ cause, d.readText p = .error cause ∧ e = .io p cause := by
  unfold Cache.read
  cases c.get? p with
  | some held => simp
  | none => cases d.readText p <;> simp [eq_comm]

theorem read_error {c : Cache} {d : Disk} {p : Path} {e : BundleFault}
    (h : c.read d p = .error e) : ∃ cause, e = .io p cause := by
  obtain ⟨-, cause, -, same⟩ := read_eq_error.mp h
  exact ⟨cause, same⟩

/-- Every text that is kept is what the file still holds. -/
def Current (c : Cache) (d : Disk) : Prop := ∀ entry ∈ c.texts, d.readText entry.1 = .ok entry.2

theorem Current.read {c after : Cache} {d : Disk} {p : Path} {text : String} (h : c.Current d)
    (isFile : d.isFile p) (read : c.read d p = .ok (text, after)) :
    d.readText p = .ok text ∧ after.Current d := by
  rcases read_cases read with ⟨held, rfl⟩ | ⟨-, fresh, rfl⟩
  · obtain ⟨entry, mem, same, rfl⟩ := get?_eq_some held
    exact ⟨Disk.readText_same same (h entry mem) isFile, h⟩
  · exact ⟨fresh, List.forall_mem_append.mpr ⟨h, List.forall_mem_singleton.mpr fresh⟩⟩

theorem read_empty {after : Cache} {d : Disk} {p : Path} {text : String}
    (read : empty.read d p = .ok (text, after)) : d.readText p = .ok text ∧ after.Current d := by
  rcases read_cases read with ⟨held, -⟩ | ⟨-, fresh, rfl⟩
  · cases held
  · exact ⟨fresh, List.forall_mem_singleton.mpr fresh⟩

end Cache

namespace Resolver

theorem isFile_of_firstFile {d : Disk} {paths : List Path} {p : Path}
    (h : firstFile d paths = some p) : d.isFile p := by
  have isFile := List.find?_some h
  exact isFile

theorem isFile_of_directoryFile {r : Resolver} {d : Disk} {directory p : Path}
    (h : r.directoryFile d directory = .ok (some p)) : d.isFile p := by
  unfold directoryFile at h
  split at h
  · cases h
  · exact isFile_of_firstFile (Except.ok.inj h)
  · exact isFile_of_firstFile (Except.ok.inj h)

theorem relative?_file {r : Resolver} {d : Disk} {specifier : String} {base : Path}
    {found : Resolved} (h : r.relative? d specifier base = .ok (some found)) :
    ∃ path, d.isFile path ∧ found = .ofFile path .project := by
  unfold relative? at h
  dsimp only at h
  split at h
  · rename_i isFile
    cases h
    exact ⟨_, isFile, rfl⟩
  · split at h
    · cases main : r.directoryFile d (base.join (.ofString specifier)).normalize with
      | error e =>
        rw [main] at h
        cases h
      | ok path =>
        rw [main] at h
        cases path with
        | none => cases h
        | some path =>
          cases h
          exact ⟨path, isFile_of_directoryFile main, rfl⟩
    · cases h

theorem package?_found {r : Resolver} {d : Disk} {specifier : String} {found : Resolved}
    (h : r.package? d specifier = .ok (some found)) :
    (∃ path, d.isFile path ∧ found = .ofFile path .package) ∨ found = .external specifier := by
  unfold package? at h
  dsimp only at h
  split at h
  · cases h
  · rename_i main installed
    cases h
    split at installed
    · exact .inl ⟨main, isFile_of_directoryFile installed, rfl⟩
    · cases installed
  · split at h
    · rename_i file candidate
      cases h
      exact .inl ⟨file, isFile_of_firstFile candidate, rfl⟩
    · unfold hostModule? at h
      split at h
      · cases h
        exact .inr rfl
      · cases h

/-- What is found is a file that is there, with the directory it lies in, or the specifier itself,
left to the host. -/
theorem resolve_ok {r : Resolver} {d : Disk} {specifier : String} {base : Path} {found : Resolved}
    (h : r.resolve d specifier base = .ok found) :
    (∃ path kind, d.isFile path ∧ found = .file path path.directory kind) ∨
      found = .external specifier := by
  unfold resolve at h
  dsimp only at h
  split at h
  · cases h
  · rename_i resolved searched
    cases h
    split at searched
    · obtain ⟨path, isFile, rfl⟩ := relative?_file searched
      exact .inl ⟨path, .project, isFile, rfl⟩
    · refine (package?_found searched).imp_left ?_
      rintro ⟨path, isFile, rfl⟩
      exact ⟨path, .package, isFile, rfl⟩
  · cases h

theorem file_of_resolve {r : Resolver} {d : Disk} {specifier : String} {base path next : Path}
    {kind : ModuleKind} (h : r.resolve d specifier base = .ok (.file path next kind)) :
    d.isFile path ∧ next = path.directory := by
  rcases resolve_ok h with ⟨_, _, isFile, same⟩ | same
  · cases same
    exact ⟨isFile, rfl⟩
  · cases same

theorem left_of_resolve {r : Resolver} {d : Disk} {specifier left : String} {base : Path}
    (h : r.resolve d specifier base = .ok (.external left)) : left = specifier := by
  rcases resolve_ok h with ⟨_, _, _, same⟩ | same
  · cases same
  · cases same
    rfl

theorem directoryFile_error {r : Resolver} {d : Disk} {directory : Path} {e : BundleFault}
    (h : r.directoryFile d directory = .error e) : ∃ path, e = .badManifest path := by
  unfold directoryFile at h
  split at h
  · rename_i unread
    cases h
    unfold manifestOf at unread
    dsimp only at unread
    split at unread
    · cases unread
    · split at unread
      · cases unread
        exact ⟨_, rfl⟩
      · cases unread
  · cases h
  · cases h

theorem resolve_error {r : Resolver} {d : Disk} {specifier : String} {base : Path}
    {e : BundleFault} (h : r.resolve d specifier base = .error e) :
    (∃ path, e = .badManifest path) ∨ e = .unresolved specifier base := by
  unfold resolve at h
  dsimp only at h
  split at h
  · rename_i failed
    cases h
    left
    split at failed
    · unfold relative? at failed
      dsimp only at failed
      split at failed
      · cases failed
      · split at failed
        · cases main : r.directoryFile d (base.join (.ofString specifier)).normalize with
          | error e =>
            rw [main] at failed
            cases failed
            exact directoryFile_error main
          | ok path =>
            rw [main] at failed
            cases failed
        · cases failed
    · unfold package? at failed
      dsimp only at failed
      split at failed
      · rename_i installed
        cases failed
        split at installed
        · exact directoryFile_error installed
        · cases installed
      · cases failed
      · split at failed <;> cases failed
  · cases h
  · cases h
    exact .inr rfl

end Resolver

end Bundler
