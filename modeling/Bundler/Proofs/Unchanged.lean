import Bundler.Proofs.Answers
import Bundler.Proofs.Halt
import Bundler.Proofs.Session

/-! Sessions on files that do not change. Wherever the builds before have failed, nothing that the
context holds is out of date. So each require of an entry is bound to what the disk holds for it, found
anew, in the graph or among the modules that were given up, and no history shows in the entry. -/

namespace Bundler

namespace Cache.Current

variable {c c₁ after after₁ : Cache} {d : Disk} {p : Path} {text other : String}

theorem after_read (h : c.Current d) (read : c.read d p = .ok (text, after)) :
    after.Current d := by
  rcases Cache.read_ok read with ⟨rfl, -⟩ | ⟨rfl, fresh⟩
  · exact h
  · intro entry mem
    rcases List.mem_append.mp mem with old | new
    · exact h entry old
    · rw [List.mem_singleton.mp new]
      exact fresh

/-- What is read for a path is the text of a file in that place. It need not be a file by this path:
a text that is kept is found by its components. -/
theorem source (h : c.Current d) (read : c.read d p = .ok (text, after)) :
    ∃ q : Path, q.same p ∧ d.readText q = .ok text := by
  rcases Cache.read_cases read with ⟨held, rfl⟩ | ⟨-, fresh, rfl⟩
  · obtain ⟨entry, mem, same, rfl⟩ := Cache.get?_eq_some held
    exact ⟨entry.1, same, h entry mem⟩
  · exact ⟨p, beq_self_eq_true p.components, fresh⟩

theorem read_agree (h : c.Current d) (h₁ : c₁.Current d) (read : c.read d p = .ok (text, after))
    (read₁ : c₁.read d p = .ok (other, after₁)) : text = other := by
  obtain ⟨q, same, holds⟩ := h.source read
  obtain ⟨q₁, same₁, holds₁⟩ := h₁.source read₁
  have one : q.same q₁ := by
    unfold Path.same at same same₁ ⊢
    rw [beq_iff_eq] at same same₁ ⊢
    exact same.trans same₁.symm
  exact Disk.readText_unique one holds holds₁

end Cache.Current

namespace Context.Sound

variable {plan : Plan} {d : Disk}

theorem empty : Sound plan d .empty :=
  have current : Cache.empty.Current d := fun _ mem => absurd mem List.not_mem_nil
  .of_cache current

theorem keptByWalks : KeptByWalks plan d (Sound plan d) where
  walk walked holds := (walked.sound holds).1
  read holds read :=
    ⟨holds.cache.after_read read, holds.modules, Accounted.kept.read holds.accounted read⟩
  enter holds new := holds.enter new

end Context.Sound

namespace Session

section

variable {plan : Plan} {d : Disk} {path : Path} {script script' : EntryScript} {c c' : Context}

theorem sound_run (holds : c.Sound plan d) (entries : List Path) :
    (run plan c (entries.map (Step.mk d))).Sound plan d := by
  induction entries generalizing c with
  | nil => exact holds
  | cons entry rest ih => exact ih (Context.Sound.keptByWalks.entry entry holds)

/-- An entry that is built in a context without anything out of date is the program of its text, with
each require bound to what it leads to on the disk. -/
theorem entry_eq (sound : c.Sound plan d) (h : (Build.entry plan d path).run.run c = (.ok script, c')) :
    ∃ text cache parsed, c.cache.read d path = .ok (text, cache) ∧
      Script.parse true text = .ok parsed ∧
      script = ⟨path, ((Build.splitHashbang parsed).2.live plan.env).substitute
        (plan.target? d path.directory), (Build.splitHashbang parsed).1⟩ := by
  obtain ⟨text, cache, parsed, answers, read, isScript, walk, rfl⟩ := Build.entry_ok h
  have started := Context.Sound.keptByWalks.read sound read
  obtain ⟨-, right, -⟩ := walk.sound started
  exact ⟨text, cache, parsed, read, isScript, by rw [right, Script.Node.fill_map]⟩

/-- On files that do not change, an entry that can be built after two histories comes to the same
program and the same first line after both. -/
theorem entry_independent_of_history (earlier earlier' : List Path)
    (h : (Build.entry plan d path).run.run (run plan .empty (earlier.map (Step.mk d))) =
      (.ok script, c))
    (h' : (Build.entry plan d path).run.run (run plan .empty (earlier'.map (Step.mk d))) =
      (.ok script', c')) : script = script' := by
  have sound : Context.Sound plan d _ := sound_run .empty earlier
  have sound' : Context.Sound plan d _ := sound_run .empty earlier'
  obtain ⟨text, _, parsed, read, isScript, rfl⟩ := entry_eq sound h
  obtain ⟨other, _, parsed', read', isScript', rfl⟩ := entry_eq sound' h'
  cases sound.cache.read_agree sound'.cache read read'
  cases isScript.symm.trans isScript'
  rfl

end

namespace Retried

/-- Both entries require one module, and the first of them also a file that is not there. -/
def disk : Disk where
  tree := ⟨[(["bad.js".toList], .file (.text "require('./m');require('./gone')")),
    (["main.js".toList], .file (.text "require('./m')")), (["m.js".toList], .file (.text "1"))]⟩
  cwd := []

def plan : Plan := .ofConfig (.ofString "/") { Config.default_ with instantiation := .reexecute }

def bad : Path := .ofString "/bad.js"

def main : Path := .ofString "/main.js"

def failed : Context := run plan .empty [⟨disk, bad⟩]

theorem exists_of_isOk {result : Except BundleFault EntryScript × Context} (h : result.1.isOk) :
    ∃ script c, result = (.ok script, c) := by
  obtain ⟨_ | script, c⟩ := result
  · cases h
  · exact ⟨script, c, rfl⟩

set_option maxRecDepth 100000 in
theorem bad_fails : ((Build.entry plan disk bad).run.run .empty).1.toOption.isNone := by
  decide +kernel

set_option maxRecDepth 100000 in
theorem failed_size : failed.graph.size = 1 := by
  decide +kernel

set_option maxRecDepth 100000 in
theorem main_alone : ((Build.entry plan disk main).run.run .empty).1.isOk := by
  decide +kernel

set_option maxRecDepth 100000 in
theorem main_again : ((Build.entry plan disk main).run.run failed).1.isOk := by
  decide +kernel

theorem built : failed.graph.size = 1 ∧
    ((Build.entry plan disk bad).run.run .empty).1.toOption.isNone ∧
    (∃ script c, (Build.entry plan disk main).run.run .empty = (.ok script, c)) ∧
    ∃ script c, (Build.entry plan disk main).run.run failed = (.ok script, c) :=
  ⟨failed_size, bad_fails, exists_of_isOk main_alone, exists_of_isOk main_again⟩

end Retried

/-- The module is found anew without a history, and in the graph after the build that failed. -/
theorem entry_independent_of_history_retried : Retried.failed.graph.size = 1 ∧
    ((Build.entry Retried.plan Retried.disk Retried.bad).run.run .empty).1.toOption.isNone ∧
    ∃ script c c',
      (Build.entry Retried.plan Retried.disk Retried.main).run.run .empty = (.ok script, c) ∧
      (Build.entry Retried.plan Retried.disk Retried.main).run.run Retried.failed =
        (.ok script, c') := by
  obtain ⟨size, fails, ⟨script, c, ran⟩, script', c', again⟩ := Retried.built
  have same : script = script' := entry_independent_of_history [] [Retried.bad] ran again
  exact ⟨size, fails, script, c, c', ran, same ▸ again⟩

end Session

end Bundler
