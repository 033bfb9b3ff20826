import Bundler.Proofs.Context
import Mathlib.Data.Finset.Card

/-! Texts that are kept while the files become others. What a cache answers for a path is settled by
the first get that succeeds for a path of the same components, on the files as they were at that time.
Before it nothing is kept, and every get reads again. -/

namespace Bundler

namespace Cache

structure Get where
  disk : Disk
  path : Path

def Get.text? (g : Get) : Option String := (g.disk.readText g.path).toOption

inductive Event where
  | get (p : Path)
  | contains (p : Path)
  /-- the files become others -/
  | change (d : Disk)

inductive Answer where
  | text (result : Except BundleFault String)
  | held (there : Bool)
  | changed

structure Store where
  disk : Disk
  cache : Cache

namespace Store

def start (d : Disk) : Store := ⟨d, .empty⟩

def perform (s : Store) : Event → Answer × Store
  | .get p =>
    match s.cache.read s.disk p with
    | .ok (text, cache) => (.text (.ok text), { s with cache := cache })
    | .error e => (.text (.error e), s)
  | .contains p => (.held (s.cache.contains p), s)
  | .change d => (.changed, { s with disk := d })

def after (s : Store) (events : List Event) : Store :=
  events.foldl (fun s event => (s.perform event).2) s

end Store

def gets : Disk → List Event → List Get
  | _, [] => []
  | d, .get p :: rest => ⟨d, p⟩ :: gets d rest
  | d, .contains _ :: rest => gets d rest
  | _, .change d :: rest => gets d rest

/-- The text of the first get that succeeds among those of a path, in whatever spelling. -/
def firstText (made : List Get) (p : Path) : Option String :=
  made.findSome? fun g => if g.path.same p then g.text? else none

def succeeded (made : List Get) : Finset (List Path.Component) :=
  ((made.filter fun g => (firstText made g.path).isSome).map (·.path.components)).toFinset

theorem gets_cons (s : Store) (event : Event) (rest : List Event) :
    gets s.disk (event :: rest) = gets s.disk [event] ++ gets (s.perform event).2.disk rest := by
  cases event with
  | get p =>
    rw [Store.perform]
    cases s.cache.read s.disk p <;> rfl
  | contains p => rfl
  | change d => rfl

theorem components_ne_of_get?_none {c : Cache} {p : Path} (h : c.get? p = none) :
    ∀ entry ∈ c.texts, entry.1.components ≠ p.components := by
  intro entry mem same
  exact List.find?_eq_none.mp (Option.map_eq_none_iff.mp h) entry mem (beq_iff_eq.mpr same)

theorem nodup_concat {c : Cache} {p : Path} (apart : (c.texts.map (·.1.components)).Nodup)
    (new : c.get? p = none) : ((c.texts.map (·.1.components)) ++ [p.components]).Nodup := by
  refine List.nodup_append.mpr ⟨apart, List.nodup_singleton _, ?_⟩
  intro cs old _ last same
  obtain ⟨entry, mem, rfl⟩ := List.mem_map.mp old
  exact components_ne_of_get?_none new entry mem (same.trans (List.mem_singleton.mp last))

theorem firstText_concat (made : List Get) (g : Get) (p : Path) :
    firstText (made ++ [g]) p = (firstText made p).or (if g.path.same p then g.text? else none) := by
  rw [firstText, List.findSome?_append, List.findSome?_singleton]
  rfl

theorem mem_succeeded {made : List Get} {cs : List Path.Component} : cs ∈ succeeded made ↔
    ∃ g ∈ made, (firstText made g.path).isSome ∧ g.path.components = cs := by
  rw [succeeded, List.mem_toFinset, List.mem_map]
  simp only [List.mem_filter, and_assoc]

/-- A cache holds the texts of the first gets that have succeeded, each once. -/
structure Tracks (made : List Get) (c : Cache) : Prop where
  held : ∀ p, c.get? p = firstText made p
  apart : (c.texts.map (·.1.components)).Nodup

namespace Tracks

theorem empty : Tracks [] .empty := ⟨fun _ => rfl, List.nodup_nil⟩

variable {made : List Get} {c after : Cache} {d : Disk} {p : Path} {text : String}

theorem read (h : Tracks made c) (found : c.read d p = .ok (text, after)) :
    Tracks (made ++ [⟨d, p⟩]) after := by
  rcases read_cases found with ⟨held, rfl⟩ | ⟨new, fresh, rfl⟩
  · refine ⟨fun q => ?_, h.apart⟩
    rw [firstText_concat, ← h.held]
    cases same : p.same q with
    | true => rw [← get?_same same, held, Option.some_or]
    | false => rw [if_neg Bool.false_ne_true, Option.or_none]
  · constructor
    · intro q
      rw [get?_concat, firstText_concat, ← h.held, Get.text?, fresh]
      rfl
    · rw [List.map_append]
      exact nodup_concat h.apart new

theorem failed (h : Tracks made c) {e : BundleFault} (lost : c.read d p = .error e) :
    Tracks (made ++ [⟨d, p⟩]) c := by
  obtain ⟨-, cause, unread, -⟩ := read_eq_error.mp lost
  refine ⟨fun q => ?_, h.apart⟩
  rw [firstText_concat, h.held, Get.text?, unread]
  cases p.same q <;> exact Option.or_none.symm

theorem perform {s : Store} (h : Tracks made s.cache) (event : Event) :
    Tracks (made ++ gets s.disk [event]) (s.perform event).2.cache := by
  cases event with
  | get p =>
    rw [Store.perform]
    cases found : s.cache.read s.disk p with
    | error e => exact h.failed found
    | ok result => exact h.read found
  | contains p => exact (List.append_nil made).symm ▸ h
  | change d => exact (List.append_nil made).symm ▸ h

theorem after_events {s : Store} (h : Tracks made s.cache) (events : List Event) :
    Tracks (made ++ gets s.disk events) (s.after events).cache := by
  induction events generalizing s made with
  | nil => exact (List.append_nil made).symm ▸ h
  | cons event rest ih =>
    rw [gets_cons, ← List.append_assoc]
    exact ih (h.perform event)

theorem size (h : Tracks made c) : c.size = (succeeded made).card := by
  have same : (c.texts.map (·.1.components)).toFinset = succeeded made := by
    ext cs
    rw [List.mem_toFinset, List.mem_map, mem_succeeded]
    constructor
    · rintro ⟨entry, mem, rfl⟩
      have kept : (c.get? entry.1).isSome := by
        rw [get?, Option.isSome_map, List.find?_isSome]
        exact ⟨entry, mem, beq_self_eq_true entry.1.components⟩
      rw [h.held] at kept
      obtain ⟨text, first⟩ := Option.isSome_iff_exists.mp kept
      obtain ⟨g, made, found⟩ := List.exists_of_findSome?_eq_some first
      have same : g.path.same entry.1 := by
        by_contra other
        rw [if_neg other] at found
        cases found
      refine ⟨g, made, ?_, beq_iff_eq.mp same⟩
      rw [← h.held, get?_same same, h.held, first]
      rfl
    · rintro ⟨g, mem, held, rfl⟩
      rw [← h.held] at held
      obtain ⟨text, held⟩ := Option.isSome_iff_exists.mp held
      obtain ⟨entry, mem, same, -⟩ := get?_eq_some held
      exact ⟨entry, mem, beq_iff_eq.mp same⟩
  rw [← same, List.toFinset_card_of_nodup h.apart, List.length_map, Cache.size]

end Tracks

/-- The answers of a store when some gets have been made. -/
structure Keeps (made : List Get) (s : Store) : Prop where
  /-- when a get of a path has succeeded, its text is the answer from then on, whatever becomes of the
  file -/
  kept : ∀ p text, firstText made p = some text → s.perform (.get p) = (.text (.ok text), s)
  /-- until then the file is read -/
  fresh : ∀ p text, firstText made p = none → s.disk.readText p = .ok text →
    (s.perform (.get p)).1 = .text (.ok text)
  /-- a read that fails keeps nothing, so that the next get reads again -/
  failed : ∀ p cause, firstText made p = none → s.disk.readText p = .error cause →
    s.perform (.get p) = (.text (.error (.io p cause)), s)
  contains : ∀ p, s.perform (.contains p) = (.held (firstText made p).isSome, s)
  /-- one text is kept for each path that a get has succeeded for -/
  size : s.cache.size = (succeeded made).card

/-- After any gets, looks and changes of the files, a cache answers as the first gets that have
succeeded tell. -/
theorem keeps_first (d : Disk) (events : List Event) :
    Keeps (gets d events) ((Store.start d).after events) := by
  have start : Tracks [] (Store.start d).cache := .empty
  have tracks : Tracks (gets d events) ((Store.start d).after events).cache :=
    start.after_events events
  generalize gets d events = made, (Store.start d).after events = s at tracks
  constructor
  · intro p text first
    have held : s.cache.get? p = some text := (tracks.held p).trans first
    rw [Store.perform, Cache.read, held]
  · intro p text first read
    have held : s.cache.get? p = none := (tracks.held p).trans first
    rw [Store.perform, Cache.read, held]
    dsimp only
    rw [read]
  · intro p cause first unread
    have held : s.cache.get? p = none := (tracks.held p).trans first
    rw [Store.perform, read_eq_error.mpr ⟨held, cause, unread, rfl⟩]
  · intro p
    rw [Store.perform, Cache.contains, tracks.held]
  · exact tracks.size

/-- A file that is not there at first, and is another one later. -/
example :
    let holding (text : String) : Disk := ⟨⟨[(["a".toList], .file (.text text))]⟩, []⟩
    let s := (Store.start ⟨.empty, []⟩).after [.get (.ofString "/a"), .change (holding "1"),
      .get (.ofString "//a"), .change (holding "2"), .get (.ofString "/a")]
    s.cache.get? (.ofString "/./a/") = some "1" ∧ s.cache.size = 1 := by
  decide +kernel

end Cache

end Bundler
