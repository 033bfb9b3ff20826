import Bundler.Build
import Bundler.Proofs.Lookup

/-! What each step on a context does to its graph, to the modules being walked and to those that
calls are bound to. -/

namespace Bundler

theorem eraseDups_concat {α : Type} [DecidableEq α] (l : List α) (a : α) :
    (l ++ [a]).eraseDups = if a ∈ l then l.eraseDups else l.eraseDups ++ [a] := by
  rw [List.eraseDups_append]
  split
  · rename_i there
    simp [List.removeAll, there]
  · rename_i new
    simp [List.removeAll, new, List.eraseDups_cons]

namespace Graph

theorem contains_iff {g : Graph} {id : ContentId} : g.contains id ↔ ∃ m ∈ g.modules, m.id = id := by
  simp [contains]

theorem insert_of_contains {g : Graph} {id : ContentId} (p : Path) (program : Script.Node)
    (h : g.contains id) : (g.insert id p program).2 = g := by
  rw [insert, if_pos h]

theorem insert_of_new {g : Graph} {id : ContentId} (p : Path) (program : Script.Node)
    (h : ¬ g.contains id) :
    (g.insert id p program).2.modules = g.modules ++ [⟨id, p, program, g.size⟩] := by
  rw [insert, if_neg h]

theorem prefix_insert (g : Graph) (id : ContentId) (p : Path) (program : Script.Node) :
    g.modules <+: (g.insert id p program).2.modules := by
  by_cases h : g.contains id
  · exact (insert_of_contains p program h).symm ▸ List.prefix_rfl
  · rw [insert_of_new p program h]
    exact List.prefix_append ..

theorem mem_insert {g : Graph} {id : ContentId} {p : Path} {program : Script.Node} {m : Module}
    (h : m ∈ (g.insert id p program).2.modules) :
    m ∈ g.modules ∨ ∃ order, m = ⟨id, p, program, order⟩ := by
  by_cases there : g.contains id
  · rw [insert_of_contains p program there] at h
    exact .inl h
  · rw [insert_of_new p program there] at h
    exact (List.mem_append.mp h).imp_right fun last => ⟨_, List.mem_singleton.mp last⟩

theorem contains_insert {g : Graph} {id other : ContentId} {p : Path} {program : Script.Node} :
    (g.insert id p program).2.contains other ↔ other = id ∨ g.contains other := by
  by_cases h : g.contains id
  · rw [insert_of_contains p program h]
    exact ⟨.inr, fun k => k.elim (fun same => same ▸ h) fun k => k⟩
  · rw [contains_iff, contains_iff, insert_of_new p program h]
    simp only [List.mem_append, List.mem_singleton, or_and_right, exists_or, exists_eq_left]
    exact or_comm.trans (or_congr_left eq_comm)

theorem nodup_insert {g : Graph} {id : ContentId} (p : Path) (program : Script.Node)
    (h : g.ids.Nodup) : (g.insert id p program).2.ids.Nodup := by
  by_cases there : g.contains id
  · rw [insert_of_contains p program there]
    exact h
  · rw [ids, insert_of_new p program there, List.map_append]
    refine List.nodup_append.mpr ⟨h, List.pairwise_singleton _ _, fun a old b new same => there ?_⟩
    obtain ⟨m, mem, rfl⟩ := List.mem_map.mp old
    exact contains_iff.mpr ⟨m, mem, same.trans (List.mem_singleton.mp new)⟩

end Graph

namespace Cache

def Holds (c : Cache) (text : String) : Prop := ∃ entry ∈ c.texts, entry.2 = text

theorem read_ok {c after : Cache} {d : Disk} {p : Path} {text : String}
    (h : c.read d p = .ok (text, after)) :
    (after = c ∧ ∃ entry ∈ c.texts, entry.2 = text) ∨
      (after = ⟨c.texts ++ [(p, text)]⟩ ∧ d.readText p = .ok text) := by
  rcases read_cases h with ⟨held, rfl⟩ | ⟨-, fresh, rfl⟩
  · obtain ⟨entry, mem, -, same⟩ := get?_eq_some held
    exact .inl ⟨rfl, entry, mem, same⟩
  · exact .inr ⟨rfl, fresh⟩

theorem holds_of_read {c after : Cache} {d : Disk} {p : Path} {text : String}
    (h : c.read d p = .ok (text, after)) : after.Holds text := by
  rcases read_ok h with ⟨rfl, held⟩ | ⟨rfl, -⟩
  · exact held
  · exact ⟨_, List.mem_append_right _ (List.mem_singleton.mpr rfl), rfl⟩

theorem holds_read {c after : Cache} {d : Disk} {p : Path} {text other : String}
    (h : c.read d p = .ok (text, after)) (held : after.Holds other) :
    c.Holds other ∨ (other = text ∧ d.readText p = .ok other) := by
  rcases read_ok h with ⟨rfl, -⟩ | ⟨rfl, fresh⟩
  · exact .inl held
  · obtain ⟨entry, mem, rfl⟩ := held
    rcases List.mem_append.mp mem with old | last
    · exact .inl ⟨entry, old, rfl⟩
    · rw [List.mem_singleton.mp last]
      exact .inr ⟨rfl, fresh⟩

end Cache

namespace Context

theorem knows_iff {c : Context} {id : ContentId} :
    c.knows id ↔ c.graph.contains id ∨ id ∈ c.inProgress := by
  simp [knows]

theorem not_mem_of_new {c : Context} {id : ContentId} (new : ¬ c.knows id) : id ∉ c.inProgress :=
  fun mem => new (knows_iff.mpr (.inr mem))

section

variable (c : Context) (id : ContentId) (specifier : String)

@[simp] theorem leave_graph : (c.leave specifier).graph = c.graph := by
  unfold leave
  split <;> rfl

@[simp] theorem leave_inProgress : (c.leave specifier).inProgress = c.inProgress := by
  unfold leave
  split <;> rfl

@[simp] theorem leave_bound : (c.leave specifier).bound = c.bound := by
  unfold leave
  split <;> rfl

theorem prefix_leave_externals : c.externals <+: (c.leave specifier).externals := by
  unfold leave
  split
  · exact List.prefix_rfl
  · exact List.prefix_append ..

theorem mem_leave_externals : specifier ∈ (c.leave specifier).externals := by
  unfold leave
  split
  · rename_i there
    exact List.contains_iff_mem.mp there
  · exact List.mem_append_right _ (List.mem_singleton.mpr rfl)

@[simp] theorem leave_cache : (c.leave specifier).cache = c.cache := by
  unfold leave
  split <;> rfl

@[simp] theorem record_cache : (c.record id).cache = c.cache := by
  unfold record
  split <;> rfl

@[simp] theorem record_graph : (c.record id).graph = c.graph := by
  unfold record
  split <;> rfl

@[simp] theorem record_externals : (c.record id).externals = c.externals := by
  unfold record
  split <;> rfl

@[simp] theorem record_inProgress : (c.record id).inProgress = c.inProgress := by
  unfold record
  split <;> rfl

end

theorem mem_record_bound {c : Context} {id other : ContentId} :
    other ∈ (c.record id).bound ↔ other = id ∨ other ∈ c.bound := by
  unfold record
  split
  · rename_i h
    exact ⟨.inr, fun k => k.elim (fun same => same ▸ List.contains_iff_mem.mp h) fun k => k⟩
  · exact List.mem_cons

theorem complete_inProgress {c : Context} {id : ContentId} {s : List ContentId} (p : Path)
    (program : Script.Node) (fresh : id ∉ s) (h : c.inProgress = id :: s) :
    (c.complete id p program).inProgress = s := by
  rw [complete, h, List.filter_cons_of_neg (by simp)]
  exact List.filter_eq_self.mpr fun other mem => bne_iff_ne.mpr fun same => fresh (same ▸ mem)

theorem knows_complete (c : Context) (id : ContentId) (p : Path) (program : Script.Node) :
    (c.complete id p program).knows id :=
  knows_iff.mpr (.inl (Graph.contains_insert.mpr (.inl rfl)))

@[simp] theorem knows_record (c : Context) (id other : ContentId) :
    (c.record id).knows other = c.knows other := by
  simp [knows]

end Context

end Bundler
