import Bundler.Proofs.Context
import Mathlib.Data.List.Induction
import Mathlib.Data.List.Nodup

/-! Graphs that are filled by inserts. The first insert of an id settles what the graph holds for it
and where that stands; every later one is refused and changes nothing. -/

namespace Bundler

namespace Graph

structure Insertion where
  id : ContentId
  path : Path
  program : Script.Node

def origin (m : Module) : Insertion := ⟨m.id, m.path, m.program⟩

def perform (g : Graph) (i : Insertion) : Bool × Graph := g.insert i.id i.path i.program

def after (made : List Insertion) : Graph := made.foldl (fun g i => (g.perform i).2) .empty

theorem after_concat (made : List Insertion) (i : Insertion) :
    after (made ++ [i]) = ((after made).perform i).2 := by
  rw [after, List.foldl_append, ← after]
  rfl

theorem mem_ids {g : Graph} {id : ContentId} : id ∈ g.ids ↔ g.contains id := by
  rw [contains_iff, ids, List.mem_map]

variable {g : Graph} {i : Insertion}

theorem perform_known (known : g.contains i.id) : g.perform i = (false, g) := if_pos known

theorem perform_new (new : ¬ g.contains i.id) :
    g.perform i = (true, ⟨g.modules ++ [⟨i.id, i.path, i.program, g.size⟩]⟩) := if_neg new

theorem perform_added : (g.perform i).1 = true ↔ ¬ g.contains i.id := by
  by_cases known : g.contains i.id
  · simp [perform_known known, known]
  · simp [perform_new known, known]

theorem ids_perform (i : Insertion) :
    (g.perform i).2.ids = if i.id ∈ g.ids then g.ids else g.ids ++ [i.id] := by
  by_cases known : g.contains i.id
  · rw [perform_known known, if_pos (mem_ids.mpr known)]
  · rw [perform_new known, if_neg (known ∘ mem_ids.mp), ids, List.map_append]
    rfl

theorem get?_perform (i : Insertion) (id : ContentId) : ((g.perform i).2.get? id).map origin =
    ((g.get? id).map origin).or (if i.id == id then some i else none) := by
  by_cases known : g.contains i.id
  · obtain ⟨m, there, same⟩ := contains_iff.mp known
    rw [perform_known known]
    split
    · rename_i own
      have held : (g.get? id).isSome :=
        List.find?_isSome.mpr ⟨m, there, beq_iff_eq.mpr (same.trans (beq_iff_eq.mp own))⟩
      obtain ⟨m, held⟩ := Option.isSome_iff_exists.mp held
      rw [held]
      rfl
    · exact Option.or_none.symm
  · rw [perform_new known, get?, List.find?_append, Option.map_or, List.find?_singleton, ← get?]
    dsimp only
    split <;> rfl

theorem orders_perform (numbered : g.modules.map (·.order) = List.range g.size) (i : Insertion) :
    (g.perform i).2.modules.map (·.order) = List.range (g.perform i).2.size := by
  by_cases known : g.contains i.id
  · rw [perform_known known]
    exact numbered
  · have longer : (g.perform i).2.size = g.size + 1 := by
      rw [perform_new known, size, List.length_append]
      rfl
    rw [longer, List.range_succ, ← numbered, perform_new known, List.map_append]
    rfl

/-- A graph holds the first insert of each id, in the order of these, and numbers them. -/
structure Tracks (made : List Insertion) (g : Graph) : Prop where
  ids : g.ids = (made.map (·.id)).eraseDups
  held : ∀ id, (g.get? id).map origin = made.find? (·.id == id)
  numbered : g.modules.map (·.order) = List.range g.size
  distinct : g.ids.Nodup

namespace Tracks

variable {made : List Insertion}

theorem empty : Tracks [] .empty := ⟨rfl, fun _ => rfl, rfl, List.nodup_nil⟩

theorem contains (h : Tracks made g) (id : ContentId) : g.contains id ↔ ∃ i ∈ made, i.id = id := by
  rw [← mem_ids, h.ids, List.mem_eraseDups, List.mem_map]

theorem perform (h : Tracks made g) (i : Insertion) : Tracks (made ++ [i]) (g.perform i).2 := by
  refine ⟨?_, fun id => ?_, orders_perform h.numbered i, nodup_insert i.path i.program h.distinct⟩
  · rw [ids_perform, List.map_append, List.map_singleton, eraseDups_concat, h.ids]
    simp only [List.mem_eraseDups]
  · rw [get?_perform, h.held, List.find?_append, List.find?_singleton]

theorem after (made : List Insertion) : Tracks made (after made) := by
  induction made using List.reverseRecOn with
  | nil => exact .empty
  | append_singleton made i ih =>
    rw [after_concat]
    exact ih.perform i

end Tracks

theorem get?_eq_some_iff (distinct : g.ids.Nodup) {id : ContentId} {m : Module} :
    g.get? id = some m ↔ m ∈ g.modules ∧ m.id = id := by
  have own {m : Module} (found : g.get? id = some m) : m ∈ g.modules ∧ m.id = id :=
    ⟨List.mem_of_find?_eq_some found, by simpa using List.find?_some found⟩
  refine ⟨own, ?_⟩
  rintro ⟨there, rfl⟩
  have held : (g.get? m.id).isSome := List.find?_isSome.mpr ⟨m, there, beq_self_eq_true m.id⟩
  obtain ⟨other, found⟩ := Option.isSome_iff_exists.mp held
  obtain ⟨listed, same⟩ := own found
  rw [found, List.inj_on_of_nodup_map distinct listed there same]

/-- The answers of a graph that some inserts have filled. -/
structure FirstWins (made : List Insertion) (g : Graph) : Prop where
  /-- a further insert is the first of its id, or it is refused -/
  added : ∀ i, (g.perform i).1 = true ↔ ∀ earlier ∈ made, earlier.id ≠ i.id
  /-- an insert that is refused changes nothing -/
  refused : ∀ i, (g.perform i).1 = false → (g.perform i).2 = g
  /-- the ids are in the order in which they were first inserted -/
  ids : g.ids = (made.map (·.id)).eraseDups
  distinct : g.ids.Nodup
  /-- path and program are those of the first insert -/
  held : ∀ id, (g.get? id).map origin = made.find? (·.id == id)
  /-- each module knows its place -/
  numbered : ∀ n (m : Module), g.modules[n]? = some m → m.order = n
  listed : g.modules.map (·.id) = g.ids
  size : g.size = g.ids.length
  contains : ∀ id, g.contains id ↔ id ∈ g.ids
  get : ∀ id m, g.get? id = some m ↔ m ∈ g.modules ∧ m.id = id

/-- Whatever is inserted and however often, the first insert of each id is the one that counts. -/
theorem first_insert_wins (made : List Insertion) : FirstWins made (after made) := by
  have tracks : Tracks made (after made) := .after made
  generalize after made = g at tracks
  constructor
  · intro i
    rw [perform_added, tracks.contains]
    push Not
    rfl
  · intro i rejected
    have known : g.contains i.id := by
      by_contra new
      rw [perform_added.mpr new] at rejected
      cases rejected
    rw [perform_known known]
  · exact tracks.ids
  · exact tracks.distinct
  · exact tracks.held
  · intro n m there
    have own : (g.modules.map (·.order))[n]? = some m.order := by
      rw [List.getElem?_map, there]
      rfl
    rw [tracks.numbered] at own
    obtain ⟨_, same⟩ := List.getElem?_eq_some_iff.mp own
    rw [← same, List.getElem_range]
  · rfl
  · rw [Graph.ids, List.length_map, Graph.size]
  · exact fun id => mem_ids.symm
  · exact fun id m => get?_eq_some_iff tracks.distinct

end Graph

end Bundler
