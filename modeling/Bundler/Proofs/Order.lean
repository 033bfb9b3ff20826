import Bundler.Proofs.Answers
import Mathlib.Data.List.Basic
import Mathlib.Logic.Relation

/-! The order of the graph. A walk adds the modules that its answers reach, and each of them comes
after all that it calls, except for modules that were being walked at that time; those are its
ancestors, so they reach it. -/

namespace Bundler

open Relation

section

variable (plan : Plan) (d : Disk)

/-- Some call of the module is bound to another one. -/
def Module.Calls (m : Module) (id : ContentId) : Prop :=
  ∃ live ∈ plan.moduleProgram? d m, Rewritten live m.program id

/-- Some call of the entry is bound to a module. -/
def EntryScript.Calls (script : EntryScript) (id : ContentId) : Prop :=
  ∃ live ∈ plan.entryProgram? d script.path, Rewritten live script.program id

/-- A module of the graph has a call that is bound to another one. -/
def Graph.Calls (g : Graph) (a b : ContentId) : Prop :=
  ∃ m ∈ g.modules, m.id = a ∧ m.Calls plan d b

def Graph.Precedes (g : Graph) (a b : ContentId) : Prop :=
  b ∈ g.ids ∧ g.ids.idxOf a < g.ids.idxOf b

end

variable {plan : Plan} {d : Disk}

namespace Graph

variable {g g' : Graph} {a b : ContentId}

theorem Calls.mono (h : g.Calls plan d a b) (more : g.modules ⊆ g'.modules) :
    g'.Calls plan d a b := by
  obtain ⟨m, mem, same, calls⟩ := h
  exact ⟨m, more mem, same, calls⟩

theorem Calls.contains (h : g.Calls plan d a b) : g.contains a := by
  obtain ⟨m, mem, same, -⟩ := h
  exact contains_iff.mpr ⟨m, mem, same⟩

theorem contains_iff_mem : g.contains a ↔ a ∈ g.ids := by
  rw [contains_iff, ids, List.mem_map]

theorem Precedes.contains (h : g.Precedes a b) : g.contains a :=
  contains_iff_mem.mpr (List.idxOf_lt_length_iff.mp
    (Nat.lt_trans h.2 (List.idxOf_lt_length_iff.mpr h.1)))

theorem Precedes.trans {a b c : ContentId} (first : g.Precedes a b) (second : g.Precedes b c) :
    g.Precedes a c := ⟨second.1, Nat.lt_trans first.2 second.2⟩

theorem Precedes.mono (h : g.Precedes a b) (more : g.modules <+: g'.modules) : g'.Precedes a b := by
  obtain ⟨added, all⟩ := more
  have both : g'.ids = g.ids ++ added.map (·.id) := by rw [ids, ← all, List.map_append, ids]
  have first := contains_iff_mem.mp h.contains
  rw [Precedes, both, List.idxOf_append_of_mem first, List.idxOf_append_of_mem h.1]
  exact ⟨List.mem_append_left _ h.1, h.2⟩

theorem precedes_insert (p : Path) (program : Script.Node) (new : ¬ g.contains b)
    (there : g.contains a) : (g.insert b p program).2.Precedes a b := by
  have all : (g.insert b p program).2.ids = g.ids ++ [b] := by
    rw [ids, insert_of_new p program new, List.map_append, ids]
    rfl
  rw [contains_iff_mem] at new there
  rw [Precedes, all, List.idxOf_append_of_mem there, List.idxOf_append_of_notMem new]
  exact ⟨List.mem_append_right _ (List.mem_singleton.mpr rfl),
    Nat.lt_add_right _ (List.idxOf_lt_length_iff.mpr there)⟩

end Graph

/-- From one graph to another one: the modules that are new are reached from the answers, and what
a new module calls stands before it, is open, or reaches the module again. -/
structure Explored (plan : Plan) (d : Disk) (g : Graph) (opened : List ContentId)
    (answers : List (Option ContentId)) (g' : Graph) : Prop where
  reached : ∀ m ∈ g'.modules, m ∈ g.modules ∨
    ∃ id, some id ∈ answers ∧ ReflTransGen (g'.Calls plan d) id m.id
  ordered : ∀ m ∈ g'.modules, m ∈ g.modules ∨ ∀ id, m.Calls plan d id →
    g'.Precedes id m.id ∨ id ∈ opened ∨ TransGen (g'.Calls plan d) id m.id

namespace Explored

variable {g g₁ g' : Graph} {opened : List ContentId} {answers : List (Option ContentId)}

theorem unchanged (same : g' = g) : Explored plan d g opened answers g' := by
  subst same
  exact ⟨fun m mem => .inl mem, fun m mem => .inl mem⟩

theorem cons {first : Option ContentId} (h : Explored plan d g opened [first] g₁)
    (rest : Explored plan d g₁ opened answers g') (more : g₁.modules <+: g'.modules) :
    Explored plan d g opened (first :: answers) g' := by
  have calls : g₁.Calls plan d ≤ g'.Calls plan d := fun _ _ calls => calls.mono more.subset
  constructor
  · intro m mem
    rcases rest.reached m mem with early | ⟨id, answer, reaches⟩
    · rcases h.reached m early with old | ⟨id, answer, reaches⟩
      · exact .inl old
      · have same := List.mem_singleton.mp answer
        exact .inr ⟨id, same ▸ List.mem_cons_self, ReflTransGen.mono calls _ _ reaches⟩
    · exact .inr ⟨id, List.mem_cons_of_mem _ answer, reaches⟩
  · intro m mem
    rcases rest.ordered m mem with early | late
    · rcases h.ordered m early with old | placed
      · exact .inl old
      · refine .inr fun id calling => ?_
        rcases placed id calling with before | isOpen | cycle
        · exact .inl (before.mono more)
        · exact .inr (.inl isOpen)
        · exact .inr (.inr (TransGen.mono calls _ _ cycle))
    · exact .inr late

theorem enclose {id : ContentId} {inner : List (Option ContentId)} (p : Path)
    (program : Script.Node) (inside : Explored plan d g (id :: opened) inner g₁)
    (new : ¬ g₁.contains id)
    (known : ∀ target, some target ∈ inner → g₁.contains target ∨ target ∈ id :: opened)
    (calls : ∀ order target, Module.Calls plan d ⟨id, p, program, order⟩ target ↔
      some target ∈ inner) :
    Explored plan d g opened [some id] (g₁.insert id p program).2 := by
  have more : g₁.modules <+: (g₁.insert id p program).2.modules := Graph.prefix_insert ..
  have own : ⟨id, p, program, g₁.size⟩ ∈ (g₁.insert id p program).2.modules := by
    rw [Graph.insert_of_new p program new]
    exact List.mem_append_right _ (List.mem_singleton.mpr rfl)
  have first {target : ContentId} (answer : some target ∈ inner) :
      (g₁.insert id p program).2.Calls plan d id target :=
    ⟨_, own, rfl, (calls _ target).mpr answer⟩
  have later : g₁.Calls plan d ≤ (g₁.insert id p program).2.Calls plan d :=
    fun _ _ calls => calls.mono more.subset
  constructor
  · intro m mem
    rcases Graph.mem_insert mem with there | ⟨order, rfl⟩
    · rcases inside.reached m there with old | ⟨target, answer, reaches⟩
      · exact .inl old
      · have further := ReflTransGen.mono later _ _ reaches
        exact .inr ⟨id, List.mem_singleton.mpr rfl, .head (first answer) further⟩
    · exact .inr ⟨id, List.mem_singleton.mpr rfl, .refl⟩
  · intro m mem
    rcases Graph.mem_insert mem with there | ⟨order, rfl⟩
    · rcases inside.ordered m there with old | placed
      · exact .inl old
      · rcases inside.reached m there with old | ⟨target, answer, reaches⟩
        · exact .inl old
        refine .inr fun callee calling => ?_
        rcases placed callee calling with before | isOpen | cycle
        · exact .inl (before.mono more)
        · rcases List.mem_cons.mp isOpen with rfl | isOpen
          · -- the call goes back to the module that is completed here
            have further := ReflTransGen.mono later _ _ reaches
            exact .inr (.inr (.head' (first answer) further))
          · exact .inr (.inl isOpen)
        · exact .inr (.inr (TransGen.mono later _ _ cycle))
    · refine .inr fun callee calling => ?_
      have answer := (calls order callee).mp calling
      rcases known callee answer with there | isOpen
      · exact .inl (Graph.precedes_insert p program new there)
      · rcases List.mem_cons.mp isOpen with rfl | isOpen
        · exact .inr (.inr (.single (first answer)))
        · exact .inr (.inl isOpen)

end Explored

theorem Walk.explored {base : Path} {specifiers : List String} {c c' : Context}
    {answers : List (Option ContentId)} (h : Walk plan d base specifiers c answers c')
    (sound : c.Sound plan d) : Explored plan d c.graph c.inProgress answers c'.graph := by
  induction h with
  | done => exact .unchanged rfl
  | @host _ _ left _ c _ _ _ _ after later =>
    have rest := later (sound.leave left)
    rw [Context.leave_inProgress] at rest
    exact (Explored.unchanged (c.leave_graph left)).cons rest after.extends.modules
  | @known _ _ _ _ _ _ _ id c _ cache _ resolved read _ known after later =>
    obtain ⟨-, -, current⟩ := sound.found resolved read
    have rest := later (current.record known)
    rw [Context.record_inProgress] at rest
    have first : Explored plan d c.graph c.inProgress [some id]
        ({ c with cache := cache }.record id).graph := .unchanged (Context.record_graph ..)
    exact first.cons rest after.extends.modules
  | @new _ path _ _ _ _ _ id c between _ _ _ wrapped inner _
      resolved read named new isScript parsed inside after deeper later =>
    obtain ⟨rfl, holds, opened, walked, completed⟩ :=
      sound.walked resolved read named new isScript parsed inside
    obtain ⟨-, right, settled⟩ := inside.sound opened
    have isOpen : between.inProgress = id :: c.inProgress := inside.inProgress
    have fresh : id ∉ c.inProgress := Context.not_mem_of_new new
    have linked := Linked.of_answers right settled
    have source (order : Nat) : plan.moduleProgram? d
        ⟨id, path, ((wrapped.live plan.env).fill inner).1, order⟩ = some (wrapped.live plan.env) :=
      Plan.moduleProgram?_eq holds parsed
    have absent : ¬ between.graph.contains id :=
      walked.accounted.apart id (isOpen ▸ List.mem_cons_self)
    -- what the inner walk left open is this module or was open before it
    have explored := (deeper opened).enclose path ((wrapped.live plan.env).fill inner).1 absent
      (fun target answer => by
        have known := Context.knows_iff.mp (inside.knows_answer answer)
        rw [isOpen] at known
        exact known)
      (fun order target => by rw [Module.Calls, linked.calls_iff (source order), right])
    have rest := later (completed.record (between.knows_complete ..))
    rw [Context.record_inProgress, Context.complete_inProgress path _ fresh isOpen,
      Context.record_graph] at rest
    have more := after.extends.modules
    rw [Context.record_graph] at more
    exact explored.cons rest more

end Bundler
