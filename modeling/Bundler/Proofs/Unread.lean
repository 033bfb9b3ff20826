import Bundler.Proofs.Copies
import Bundler.Proofs.Recorded
import Bundler.Proofs.Resolution

/-! Builds that end at a text that cannot be read. A look-up answers with a path only after it has seen
a file there, so of a module that is required it can only be said that it is no text or may not be
read; that a file is missing, or is none, can only be said of the entry. A look-up does not ask whether
the file that it has seen may be read. -/

namespace Bundler

namespace Disk

def Holds (d : Disk) (p : Path) (content : Content) : Prop :=
  ∃ location, d.tree.follow d.cwd p = .ok (.at_ location (.file content))

variable {d : Disk} {p : Path}

end Disk

theorem Plan.LeadsTo.isFile {plan : Plan} {d : Disk} {base file : Path} {specifier : String}
    (h : plan.LeadsTo d base specifier file) : d.isFile file := by
  obtain ⟨_, _, resolved⟩ := h
  exact (Resolver.resolve_file_iff.mp resolved).1.isFile

section

variable (plan : Plan) (d : Disk) (c : Context)

def Context.bodyProgram? (path : Path) : Option Script.Node := do
  let text ← c.cache.get? path
  let wrapped ← (Script.parse true
    (Wrapper.wrap (.ofText text) text plan.instantiation)).toOption
  return wrapped.live plan.env

/-- Some live require leads to a file: one of the entry, or one of a module that has been read. -/
def Context.Requires (entry file : Path) : Prop :=
  (∃ live ∈ c.entryProgram? plan entry, ∃ specifier ∈ live.requires,
    plan.LeadsTo d entry.directory specifier file) ∨
  ∃ path, ∃ live ∈ c.bodyProgram? plan path, ∃ specifier ∈ live.requires,
    plan.LeadsTo d path.directory specifier file

end

section

variable {plan : Plan} {d : Disk} {c c' : Context} {base path p : Path} {specifiers : List String}
  {cause : IoFault}

theorem Context.bodyProgram?_eq {text : String} {wrapped : Script.Node}
    (held : c.cache.get? path = some text)
    (parsed : Script.parse true (Wrapper.wrap (.ofText text) text plan.instantiation) =
      .ok wrapped) : c.bodyProgram? plan path = some (wrapped.live plan.env) := by
  simp only [bodyProgram?, held, Option.bind_eq_bind, Option.bind_some, parsed]
  rfl

theorem Halt.retains {e : BundleFault} (h : Halt plan d base specifiers c e c') : c'.Retains c :=
  ((Context.Retains.kept c).byWalks plan d).halt h .rfl

/-- A walk that is given up because of a file ends where that file could not be read. One of its own
specifiers leads there, or one of a module that has been read. -/
theorem Halt.unread_of_io (h : Halt plan d base specifiers c (.io p cause) c') :
    c'.cache.read d p = .error (.io p cause) ∧
    ((∃ specifier ∈ specifiers, plan.LeadsTo d base specifier p) ∨
      ∃ path, ∃ live ∈ c'.bodyProgram? plan path, ∃ specifier ∈ live.requires,
        plan.LeadsTo d path.directory specifier p) := by
  generalize fault : BundleFault.io p cause = e at h
  induction h with
  | later _ _ ih =>
    obtain ⟨unread, ⟨specifier, mem, leads⟩ | inside⟩ := ih fault
    · exact ⟨unread, .inl ⟨specifier, List.mem_cons_of_mem _ mem, leads⟩⟩
    · exact ⟨unread, .inr inside⟩
  | unresolved failed =>
    rcases Resolver.resolve_error failed with ⟨_, rfl⟩ | rfl <;> cases fault
  | unavailable => cases fault
  | unread resolved failed =>
    obtain ⟨_, rfl⟩ := Cache.read_error failed
    cases fault
    exact ⟨failed, .inl ⟨_, List.mem_cons_self, _, _, resolved⟩⟩
  | malformed => cases fault
  | unwrapped => cases fault
  | @inside _ path _ _ text _ _ _ _ _ _ _ resolved read _ parsed inside ih =>
    -- what the module requires is told from the text that was kept for it
    obtain ⟨unread, ⟨specifier, mem, leads⟩ | deeper⟩ := ih fault
    · obtain ⟨-, rfl, -⟩ := Resolver.resolve_file_iff.mp resolved
      have held := inside.retains.texts path text (Cache.get?_of_read read)
      exact ⟨unread, .inr ⟨path, _, Context.bodyProgram?_eq held parsed, specifier, mem, leads⟩⟩
    · exact ⟨unread, .inr deeper⟩

/-- A build that ends at a file that cannot be read ends at its entry, before it has found anything, or
at a file that is required. -/
theorem Build.unread_of_io {entry : Path}
    (h : (Build.entry plan d entry).run.run c = (.error (.io p cause), c')) :
    c'.cache.read d p = .error (.io p cause) ∧
    ((p = entry ∧ c' = c) ∨ c'.Requires plan d entry p) := by
  rcases entry_error h with ⟨unread, rfl⟩ | ⟨text, cache, read, ⟨-, fault, -⟩ | ⟨parsed, isScript, halt⟩⟩
  · obtain ⟨_, same⟩ := Cache.read_error unread
    cases same
    exact ⟨unread, .inl ⟨rfl, rfl⟩⟩
  · cases fault
  · obtain ⟨unread, own | inside⟩ := halt.unread_of_io
    · have held := halt.retains.texts entry text (Cache.get?_of_read read)
      exact ⟨unread, .inr (.inl ⟨_, Context.entryProgram?_eq held isScript, own⟩)⟩
    · exact ⟨unread, .inr (.inr inside)⟩

namespace Build

def unread? : Except BundleFault EntryScript × Context → Option (Path × IoFault)
  | (.error (.io p cause), _) => some (p, cause)
  | _ => none

theorem error_of_unread? {built : Except BundleFault EntryScript × Context}
    (h : unread? built = some (p, cause)) : ∃ c, built = (.error (.io p cause), c) := by
  unfold unread? at h
  split at h
  · cases h
    exact ⟨_, rfl⟩
  · cases h

end Build

theorem Context.Requires.isFile {entry file : Path} (h : c.Requires plan d entry file) :
    d.isFile file := by
  rcases h with ⟨_, _, _, _, leads⟩ | ⟨_, _, _, _, _, leads⟩ <;> exact leads.isFile

end

namespace Session

namespace Garbled

def main : Path := .ofString "/main.js"

def file : Path := .ofString "/m.js"

def disk : Disk where
  tree := ⟨[(["main.js".toList], .file (.text "require('./m')"))]⟩
  cwd := []

def tree (content : Content) : FileTree :=
  ⟨[(["main.js".toList], .file (.text "require('./m')")), (["m.js".toList], .file content)]⟩

def plan : Plan := .ofConfig (.ofString "/") .default_

def state (content : Content) : State :=
  (State.start plan disk).after [.build main, .change (tree content)]

def ends (content : Content) : Option (Path × IoFault) :=
  let s := state content
  Build.unread? ((Build.entry s.plan s.disk main).run.run s.context)

end Garbled

end Session

end Bundler
