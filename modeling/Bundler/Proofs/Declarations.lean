import Bundler.Proofs.Assembly
import Bundler.Proofs.Bodies
import Bundler.Proofs.Built
import Bundler.Proofs.Hoisting

/-! The names that the function of a bundle declares: those of the definition of `process`, the bindings
of the modules and those that the entry declares outside its functions. Bindings clash with nothing,
for their names are told by their digits. The definition of `process` is a `var`, which clashes with an
entry that declares the same name by `let`, `const` or `class`, and with no other. -/

namespace Bundler

namespace Script

def ImportBinding.localName : ImportBinding → String
  | .default_ name | .namespace_ name | .named _ name => name

namespace Node

/-- The names that a statement declares for the block around it, each of which may be declared only
once there. -/
def lexicalNames : Node → List String
  | ⟨.declare .var, _, _⟩ => []
  | ⟨.declare kind, notes, parts⟩ => boundNames ⟨.declare kind, notes, parts⟩
  | ⟨.classLike true (some name), _, _⟩ => [name]
  | ⟨.exportLocal, _, [inner]⟩ | ⟨.exportDefault, _, [inner]⟩ => lexicalNames inner
  | _ => []

def functionNames : Node → List String
  | ⟨.function _ _ true (some name), _, _⟩ => [name]
  | ⟨.labeled _, _, [inner]⟩ | ⟨.exportLocal, _, [inner]⟩ | ⟨.exportDefault, _, [inner]⟩ =>
    functionNames inner
  | _ => []

def importNames : Node → List String
  | ⟨.importFrom (some bindings) _ _, _, _⟩ => bindings.map (·.localName)
  | _ => []

/-- The other names that a statement declares for the function around it: by `var` anywhere in it, as a
function or by an import. -/
def otherNames (n : Node) : List String :=
  (n.search Form.isVar Form.isScope).flatMap boundNames ++ n.functionNames ++ n.importNames

/-- No name that is declared for a block is declared in it a second time, in whatever way. -/
structure ClashFree (statements : List Node) : Prop where
  once : (statements.flatMap lexicalNames).Nodup
  apart : (statements.flatMap lexicalNames).Disjoint (statements.flatMap otherNames)

theorem clashFree_append {first later : List Node} : ClashFree (first ++ later) ↔
    ClashFree first ∧ ClashFree later ∧
      (first.flatMap lexicalNames).Disjoint
        (later.flatMap lexicalNames ++ later.flatMap otherNames) ∧
      (first.flatMap otherNames).Disjoint (later.flatMap lexicalNames) := by
  constructor
  · rintro ⟨once, apart⟩
    rw [List.flatMap_append] at once apart
    rw [List.flatMap_append, List.disjoint_append_left, List.disjoint_append_right,
      List.disjoint_append_right] at apart
    obtain ⟨⟨own, across⟩, back, others⟩ := apart
    obtain ⟨onceFirst, onceLater, different⟩ := List.nodup_append'.mp once
    exact ⟨⟨onceFirst, own⟩, ⟨onceLater, others⟩,
      List.disjoint_append_right.mpr ⟨different, across⟩, back.symm⟩
  · rintro ⟨⟨onceFirst, own⟩, ⟨onceLater, others⟩, across, back⟩
    obtain ⟨different, across⟩ := List.disjoint_append_right.mp across
    constructor
    · rw [List.flatMap_append]
      exact List.nodup_append'.mpr ⟨onceFirst, onceLater, different⟩
    · rw [List.flatMap_append, List.flatMap_append, List.disjoint_append_left,
        List.disjoint_append_right, List.disjoint_append_right]
      exact ⟨⟨own, across⟩, back.symm, others⟩

end Node

end Script

def IsBindingName (name : String) : Prop :=
  ∃ digits : List Char, digits.length = 64 ∧ (∀ c ∈ digits, c ∈ "0123456789abcdef".toList) ∧
    name = "require_" ++ String.ofList digits

theorem ContentId.isBindingName (id : ContentId) : IsBindingName id.binding :=
  ⟨id.hexChars, id.length_hexChars, id.hexChars_digits, rfl⟩

theorem not_isBindingName_process : ¬ IsBindingName "process" := by
  rintro ⟨digits, -, -, same⟩
  have first := congrArg (fun name => name.toList.head?) same
  simp only [String.toList_append, String.reduceToList, List.cons_append, List.head?_cons] at first
  exact absurd first (by decide)

namespace Wrapper

open Script.Node

variable (id : ContentId) (mode : Instantiation) (body : Script.Node)

theorem lexicalNames_declaration : (declaration id mode body).lexicalNames = [id.binding] := by
  simp [declaration, variable_, of, leaf, lexicalNames, boundNames, fold, foldParts,
    Script.Form.binds]

theorem otherNames_declaration : (declaration id mode body).otherNames = [] := by
  cases mode <;> rfl

end Wrapper

namespace Emit

open Script Script.Node

def statements (script : EntryScript) (graph : Graph) (shim : Option String) : List Node :=
  (shim.map shimDeclaration).toList ++
    (graph.modules.flatMap (·.program.parts) ++ script.program.parts)

theorem lexicalNames_shim (env : String) : (shimDeclaration env).lexicalNames = [] := by
  simp only [shimDeclaration, Node.of, lexicalNames]

theorem otherNames_shim (env : String) : (shimDeclaration env).otherNames = ["process"] := by
  simp [shimDeclaration, only, Node.of, Node.leaf, otherNames, search, searchParts, Form.isVar,
    Form.isScope, functionNames, importNames, boundNames, fold, foldParts, Form.binds]

theorem shim_names (shim : Option String) :
    (shim.map shimDeclaration).toList.flatMap lexicalNames = [] ∧
      (shim.map shimDeclaration).toList.flatMap otherNames =
        if shim.isSome then ["process"] else [] := by
  cases shim with
  | none => exact ⟨rfl, rfl⟩
  | some env =>
    rw [Option.map_some, Option.toList_some, List.flatMap_singleton, List.flatMap_singleton,
      lexicalNames_shim, otherNames_shim]
    exact ⟨rfl, rfl⟩

/-- Statements whose names are those of modules and their bindings, after a definition of `process`. -/
theorem clashFree_shim_append {shim : Option String} {later : List Node} :
    ClashFree ((shim.map shimDeclaration).toList ++ later) ↔
      ClashFree later ∧ (shim = none ∨ "process" ∉ later.flatMap lexicalNames) := by
  obtain ⟨lexical, others⟩ := shim_names shim
  have alone : ClashFree (shim.map shimDeclaration).toList := by
    constructor <;> rw [lexical]
    · exact List.nodup_nil
    · exact List.disjoint_nil_left _
  rw [clashFree_append, and_iff_right alone, lexical, others]
  cases shim with
  | none => simp [List.disjoint_nil_left]
  | some env => simp [List.disjoint_nil_left, List.singleton_disjoint]

end Emit

section

open Script.Node

variable {modules : List Module} {mode : Instantiation}

theorem lexicalNames_modules
    (wrapped : ∀ m ∈ modules, ∃ body, m.program = Wrapper.program m.id mode body) :
    (modules.flatMap (·.program.parts)).flatMap lexicalNames = modules.map (·.id.binding) := by
  rw [List.flatMap_assoc, List.map_eq_flatMap]
  refine List.flatMap_congr fun m mem => ?_
  obtain ⟨body, same⟩ := wrapped m mem
  rw [same]
  exact (List.flatMap_singleton ..).trans (Wrapper.lexicalNames_declaration m.id mode body)

theorem otherNames_modules
    (wrapped : ∀ m ∈ modules, ∃ body, m.program = Wrapper.program m.id mode body) :
    (modules.flatMap (·.program.parts)).flatMap otherNames = [] := by
  rw [List.flatMap_assoc, List.flatMap_eq_nil_iff]
  intro m mem
  obtain ⟨body, same⟩ := wrapped m mem
  rw [same]
  exact (List.flatMap_singleton ..).trans (Wrapper.otherNames_declaration m.id mode body)

theorem clashFree_modules_append {later : List Script.Node} (unique : (modules.map (·.id)).Nodup)
    (wrapped : ∀ m ∈ modules, ∃ body, m.program = Wrapper.program m.id mode body)
    (free : ∀ name ∈ later.flatMap lexicalNames ++ later.flatMap otherNames, ¬ IsBindingName name) :
    ClashFree (modules.flatMap (·.program.parts) ++ later) ↔ ClashFree later := by
  have lexical := lexicalNames_modules wrapped
  have others := otherNames_modules wrapped
  have alone : ClashFree (modules.flatMap (·.program.parts)) := by
    constructor
    · have bindings : ((modules.map (·.id)).map ContentId.binding).Nodup :=
        unique.map fun _ _ => ContentId.binding_injective
      rw [lexical]
      rwa [List.map_map] at bindings
    · rw [others]
      exact List.disjoint_nil_right _
  have apart : (modules.map (·.id.binding)).Disjoint
      (later.flatMap lexicalNames ++ later.flatMap otherNames) := by
    intro name bound declared
    obtain ⟨m, -, rfl⟩ := List.mem_map.mp bound
    exact free _ declared m.id.isBindingName
  rw [clashFree_append, and_iff_right alone, lexical, others]
  exact ⟨fun h => h.1, fun h => ⟨h, apart, List.disjoint_nil_left _⟩⟩

end

namespace Redeclared

open Script.Node

def disk : Disk where
  tree := ⟨[(["main.js".toList], .file (.text "let process = require('./a');")),
    (["a.js".toList], .file (.text "exports.b = 1;"))]⟩
  cwd := []

def plan : Plan := .ofConfig (.ofString "/") .default_

def built : Session.State := (Session.State.start plan disk).after [.build (.ofString "/main.js")]

/-- An entry whose only name is `process`, in a session with one module. -/
structure Entry (s : Session.State) (script : EntryScript) : Prop where
  own : ClashFree script.program.parts
  names : script.program.parts.flatMap lexicalNames = ["process"] ∧
    script.program.parts.flatMap otherNames = []
  alone : s.context.graph.size = 1
  lines : ∀ m ∈ s.context.graph.modules, ∀ text,
    s.context.cache.get? m.path = some text → Wrapper.DropsLine text

theorem Entry.free {s : Session.State} {script : EntryScript} (h : Entry s script) :
    ∀ name ∈ script.program.parts.flatMap lexicalNames ++ script.program.parts.flatMap otherNames,
      ¬ IsBindingName name := by
  rw [h.names.1, h.names.2]
  exact List.forall_mem_singleton.mpr not_isBindingName_process

def holds (s : Session.State) : Bool :=
  match s.scripts with
  | [script] => script.program.parts.flatMap lexicalNames == ["process"] &&
    script.program.parts.flatMap otherNames == [] && s.context.graph.size == 1 &&
    s.context.graph.modules.all fun m =>
      (s.context.cache.get? m.path).all fun text => decide (Wrapper.DropsLine text)
  | _ => false

theorem entry_of_holds {s : Session.State} (h : holds s = true) :
    ∃ script ∈ s.scripts, Entry s script := by
  unfold holds at h
  split at h
  · rename_i script scripts
    simp only [Bool.and_eq_true, beq_iff_eq] at h
    obtain ⟨⟨⟨lexical, others⟩, one⟩, lines⟩ := h
    refine ⟨script, scripts ▸ List.mem_singleton_self _, ⟨?_, ?_⟩, ⟨lexical, others⟩, one, ?_⟩
    · rw [lexical]
      exact List.nodup_singleton _
    · rw [others]
      exact List.disjoint_nil_right _
    · intro m mem text held
      have line := List.all_eq_true.mp lines m mem
      rw [held, Option.all_some] at line
      exact of_decide_eq_true line
  · cases h

set_option maxRecDepth 100000 in
theorem holds_built : holds built = true := by
  decide +kernel

theorem entry : ∃ script ∈ built.scripts, Entry built script := entry_of_holds holds_built

end Redeclared

namespace Session

open Script Script.Node

/-- Together with the bindings of the modules, the names that an entry declares outside its functions
clash if it declares a `process` by `let`, `const` or `class` under a definition of `process`, and in no
other case, whatever builds there were before; provided that they do not clash among themselves and are
not those of bindings. -/
theorem scope_clashFree_iff {plan : Plan} {d : Disk} {earlier : List Action} {s : State}
    (reached : (State.start plan d).after earlier = s)
    (lines : ∀ m ∈ s.context.graph.modules, ∀ text, s.context.cache.get? m.path = some text →
      Wrapper.DropsLine text)
    {script : EntryScript} (own : ClashFree script.program.parts)
    (free : ∀ name ∈ script.program.parts.flatMap lexicalNames ++
      script.program.parts.flatMap otherNames, ¬ IsBindingName name) (options : EmitOptions)
    (shorten : Emit.Minifier) :
    (∀ code, Emit.emit script s.context.graph s.context.bound options shorten = .ok code →
      ∃ written, code = Emit.hashbangLine script.hashbang ++ written ∧
        Emit.Form options shorten
          (Emit.enclosed (Emit.body script s.context.graph options.processShim)) written) ∧
    (∀ env, options.processShim = some env →
      Stands (Emit.processShim env).toList (Emit.shimDeclaration env)) ∧
    (ClashFree (Emit.statements script s.context.graph options.processShim) ↔
      options.processShim = none ∨ "process" ∉ script.program.parts.flatMap lexicalNames) := by
  refine ⟨fun code => Emit.emit_ok, fun env _ => Emit.stands_processShim env, ?_⟩
  have unique : s.context.graph.ids.Nodup :=
    reached ▸ (State.start plan d).after_kept Context.unique List.nodup_nil earlier
  have wrapped : ∀ m ∈ s.context.graph.modules, ∃ body,
      m.program = Wrapper.program m.id plan.instantiation body := by
    intro m mem
    obtain ⟨text, _, held, -, -, module⟩ := module_body reached mem
    obtain ⟨_, _, same⟩ := module (lines m mem text held)
    exact ⟨_, same⟩
  have others : "process" ∉ (s.context.graph.modules.flatMap (·.program.parts)).flatMap
      lexicalNames := by
    intro declared
    rw [lexicalNames_modules wrapped] at declared
    obtain ⟨m, -, named⟩ := List.mem_map.mp declared
    exact not_isBindingName_process (named ▸ m.id.isBindingName)
  rw [Emit.statements, Emit.clashFree_shim_append, clashFree_modules_append unique wrapped free,
    and_iff_right own, List.flatMap_append, List.mem_append, or_iff_right others]

/-- The entry of the bundle with a module declares `process` like its definition does. -/
theorem scope_clashFree_iff_redeclared : ∃ script ∈ Redeclared.built.scripts,
    Redeclared.Entry Redeclared.built script ∧
    ClashFree (Emit.statements script Redeclared.built.context.graph none) ∧
    ¬ ClashFree (Emit.statements script Redeclared.built.context.graph (some "production")) := by
  obtain ⟨script, mem, entry⟩ := Redeclared.entry
  have reached : (State.start Redeclared.plan Redeclared.disk).after
      [.build (.ofString "/main.js")] = Redeclared.built := rfl
  have clash := fun options =>
    (scope_clashFree_iff reached entry.lines entry.own entry.free options Script.Node.print).2.2
  refine ⟨script, mem, entry, (clash ⟨false, none⟩).mpr (.inl rfl), fun free => ?_⟩
  rcases (clash ⟨false, some "production"⟩).mp free with none | other
  · cases none
  · rw [entry.names.1] at other
    exact other (List.mem_singleton_self _)

/-- A definition of `process` may clash with an entry that has no clash of its own. -/
theorem not_scope_clashFree : ¬ ∀ (plan : Plan) (d : Disk) (earlier : List Action),
    ∀ script ∈ ((State.start plan d).after earlier).scripts, ClashFree script.program.parts →
    (∀ name ∈ script.program.parts.flatMap lexicalNames ++
      script.program.parts.flatMap otherNames, ¬ IsBindingName name) →
    ∀ shim, ClashFree
      (Emit.statements script ((State.start plan d).after earlier).context.graph shim) := by
  intro free
  obtain ⟨script, mem, entry⟩ := Redeclared.entry
  obtain ⟨-, apart⟩ := free _ _ _ script mem entry.own entry.free (some "production")
  refine apart (a := "process") ?_ ?_
  · rw [Emit.statements, List.flatMap_append, List.flatMap_append, entry.names.1]
    simp
  · rw [Emit.statements, List.flatMap_append, (Emit.shim_names _).2]
    simp

end Session

end Bundler
