import Bundler.Proofs.Assembly
import Bundler.Proofs.Bodies
import Bundler.Proofs.Built
import Bundler.Proofs.Layout

/-! Where the code of a bundle is strict. Code is strict in a function that has the directive, in those
inside it, and in classes. The own functions of modules keep the directives of the modules, and nothing
around them has any. The entry shares the function of the bundle with what precedes it, so its directive
counts only if it comes first there. -/

namespace Bundler

namespace Script

/-- A part of a program that may be strict when the code around it is not, with the parts in it. -/
inductive Region where
  | mk (isStrict : Bool) (inner : List Region)

mutual

def Region.decEq : (r r' : Region) → Decidable (r = r')
  | ⟨isStrict, inner⟩, ⟨isStrict', inner'⟩ =>
    haveI := decEqList inner inner'
    decidable_of_iff (isStrict = isStrict' ∧ inner = inner') (by rw [Region.mk.injEq])

def Region.decEqList : (rs rs' : List Region) → Decidable (rs = rs')
  | [], [] => isTrue rfl
  | [], _ :: _ | _ :: _, [] => isFalse nofun
  | r :: rs, r' :: rs' =>
    haveI := decEq r r'
    haveI := decEqList rs rs'
    decidable_of_iff (r = r' ∧ rs = rs') (by rw [List.cons.injEq])

end

instance : DecidableEq Region := Region.decEq

/-- Whether the code is strict in the part at a place, which says for each part on the way to it how many
stand before it. -/
def Region.strictAt : List Nat → Region → Bool
  | [], ⟨isStrict, _⟩ => isStrict
  | i :: place, ⟨isStrict, inner⟩ => isStrict || inner[i]?.any (strictAt place)

theorem Region.strictAt_inner {inner : List Region} {i : Nat} {r : Region} (there : inner[i]? = some r)
    (place : List Nat) : strictAt (i :: place) ⟨false, inner⟩ = r.strictAt place := by
  rw [strictAt, there]
  rfl

namespace Node

def isStrict (body : Node) : Bool := body.directives.contains "use strict"

/-- The parts of a tree that may be strict of their own, those inside others not counted. -/
def regions : Node → List Region := fold fun n below =>
  match n.form with
  | .program _ _ | .body _ => [⟨n.isStrict, below.flatten⟩]
  | .classLike _ _ => [⟨true, below.flatten⟩]
  | _ => below.flatten

theorem regions_mk (form : Form) (notes : List Comment) (parts : List Node) :
    regions ⟨form, notes, parts⟩ =
      match form with
      | .program _ _ | .body _ => [⟨isStrict ⟨form, notes, parts⟩, parts.flatMap regions⟩]
      | .classLike _ _ => [⟨true, parts.flatMap regions⟩]
      | _ => parts.flatMap regions := by
  rw [regions, fold, foldParts_eq]
  rfl

end Node

end Script

namespace Wrapper

open Script

def region (own : Region) : Instantiation → Region
  | .reexecute => ⟨false, [own]⟩
  | .memoized => ⟨false, [⟨false, [own]⟩]⟩

def ownPlace : Instantiation → List Nat
  | .reexecute => [0]
  | .memoized => [0, 0]

theorem regions_declaration (id : ContentId) (mode : Instantiation) {body : Node}
    {closing : List Comment} (isBody : body.form = .body closing) :
    (declaration id mode body).regions =
      [region ⟨body.isStrict, body.parts.flatMap Node.regions⟩ mode] := by
  obtain ⟨form, notes, parts⟩ := body
  cases isBody
  cases mode <;> simp [declaration, value, closure, anew, prepared, once, run, ownFunction,
      function, exported, fresh, variable_, Node.leaf, Node.absent, Node.of, Node.regions_mk, region,
      Node.isStrict, Node.directives, Node.directive?]

theorem strictAt_region (isStrict : Bool) (inner : List Region) (mode : Instantiation) :
    (region ⟨isStrict, inner⟩ mode).strictAt (ownPlace mode) = isStrict := by
  cases mode <;> rfl

end Wrapper

namespace Emit

open Script

theorem regions_artifact (hashbang : Option String) (notes closing : List Comment)
    (statements : List Node) :
    (artifact hashbang notes (.of (.body closing) statements)).regions =
      [⟨false, [⟨(Node.of (.body closing) statements).isStrict, statements.flatMap Node.regions⟩]⟩] := by
  simp [artifact, Wrapper.function, Node.of, Node.regions_mk, Node.isStrict, Node.directives,
    Node.directive?]

theorem regions_shim (shim : Option String) :
    (shim.map shimDeclaration).toList.flatMap Node.regions = [] := by
  cases shim with
  | none => rfl
  | some env => simp [shimDeclaration, only, Node.of, Node.leaf, Node.regions_mk]

/-- What a reader of a bundle makes of the texts in it, as far as it matters to where code is strict. -/
structure ReadBack (script : EntryScript) (graph : Graph) (items ns : List Node) : Prop where
  entry : ∃ closing, Script.parse true script.program.print =
    .ok (.of (.program none closing) items)
  directed : (items.filterMap Node.directive?).contains "use strict" = script.program.isStrict
  modules : List.Forall₂ (fun m n => Stands m.program.print.toList n ∧ n.form = .declare .const ∧
    n.regions = m.program.parts.flatMap Node.regions) graph.modules ns

theorem isEmpty_of_forall₂ {α β : Type} {R : α → β → Prop} {as : List α} {bs : List β}
    (h : List.Forall₂ R as bs) : bs.isEmpty = as.isEmpty := by
  cases h <;> rfl

namespace ReadBack

variable {script : EntryScript} {graph : Graph} {items ns : List Node}
  (h : ReadBack script graph items ns)
include h

theorem isDeclaration : ∀ n ∈ ns, n.form = .declare .const := fun _ mem =>
  let ⟨_, _, _, isDeclaration, _⟩ := exists_of_mem_right h.modules mem
  isDeclaration

theorem opening_undirected (shim : Option String) :
    ∀ n ∈ (shim.map shimDeclaration).toList ++ ns, n.directive? = none :=
  forall_mem_opening shim (fun _ => rfl) fun n mem => by
    rw [Node.directive?, h.isDeclaration n mem]

theorem opening_isEmpty (shim : Option String) :
    ((shim.map shimDeclaration).toList ++ ns).isEmpty = (shim.isNone && graph.modules.isEmpty) := by
  rw [← isEmpty_of_forall₂ h.modules]
  cases shim <;> rfl

end ReadBack

theorem isStrict_statements {items opening statements : List Node}
    (undirected : ∀ n ∈ opening, n.directive? = none) (alone : opening = [] → statements = items)
    (behind : opening ≠ [] → ∀ n ∈ statements, n.directive? = none) (closing : List Comment) :
    (Node.of (.body closing) (opening ++ statements)).isStrict =
      ((items.filterMap Node.directive?).contains "use strict" && opening.isEmpty) := by
  have directives : (Node.of (.body closing) (opening ++ statements)).directives =
      (opening ++ statements).filterMap Node.directive? := rfl
  rw [Node.isStrict, directives, List.filterMap_append, List.filterMap_eq_nil_iff.mpr undirected,
    List.nil_append]
  cases opening with
  | nil => rw [alone rfl, List.isEmpty_nil, Bool.and_true]
  | cons first rest =>
    rw [List.filterMap_eq_nil_iff.mpr (behind (List.cons_ne_nil first rest)), List.isEmpty_cons,
      Bool.and_false]
    rfl

end Emit

namespace Strict

open Script Script.Parser Script.Grammar

def disk : Disk where
  tree := ⟨[(["main.js".toList], .file (.text "'use strict';\nrequire('./a');")),
    (["a.js".toList], .file (.text "'use strict'"))]⟩
  cwd := []

def plan : Plan := .ofConfig (.ofString "/") { Config.default_ with instantiation := .reexecute }

def built : Session.State := (Session.State.start plan disk).after [.build (.ofString "/main.js")]

def lines : List Char := '\t' :: '\t' :: ((Json.quote "use strict").toList ++ ";\n\t".toList)

theorem reads_lines {k : Nat} (last : List Char) (enough : depthFor lines.length ≤ k) :
    ∃ inner d, Wrapper.Encloses k (lines ++ '\x7d' :: ')' :: last) inner d
      [.leaf (.directive "use strict")] last ∧ d.notes = [] := by
  obtain ⟨k, rfl⟩ : ∃ n, k = n + 10 := ⟨k - 10, by unfold depthFor goalsPerChar at enough; omega⟩
  let rest : List Char := ";\n\t\x7d".toList ++ ')' :: last
  let inner : Cursor := ⟨(Json.quote "use strict").toList ++ rest, rest,
    .string "use strict" "use strict" false, true, []⟩
  have blank (quoted : List Char) : skipGap false ((['\t', '\t'] ++ '"' :: quoted).length + 1)
      ⟨[], true, true⟩ (['\t', '\t'] ++ '"' :: quoted) = some (⟨[], true, true⟩, '"' :: quoted) := rfl
  have spelled : lines ++ '\x7d' :: ')' :: last =
      ['\t', '\t'] ++ ((Json.quote "use strict").toList ++ rest) := by
    simp [lines, rest]
  have moves : Cursor.next (.mark "\x7b") ('\n' :: (lines ++ '\x7d' :: ')' :: last)) = .ok inner := by
    rw [spelled, Cursor.next_line rfl]
    exact Emit.after_quote "use strict" rest blank
  have statement : Reads (deep (k + 10) plain (.statement false)) inner
      (.of .evaluate [.leaf (.string "use strict" false)]) (.onMark "\x7d" (')' :: last) true) := by
    simp only [inner, rest, Cursor.onMark, String.reduceToList, List.cons_append, List.nil_append]
    exact rfl
  have items : Statements (deep (k + 10)) inner [(inner.token, _)] _ := .one rfl statement (.none _)
  have listed := items.reads rfl (Nat.lt_succ_of_le (show 1 ≤ inner.here.length by
    simp only [inner, rest, List.length_append, List.length_cons]
    omega))
  exact ⟨inner, _, ⟨moves, Reads.bind (Reads.bind rfl listed) rfl, rfl, rfl⟩, rfl⟩

def declaration (id : ContentId) : Node :=
  Wrapper.declaration id .reexecute (.of (.body []) [.leaf (.directive "use strict")])

theorem stands (id : ContentId) : Stands (Wrapper.layout id lines) (declaration id) :=
  Wrapper.stands_layout id rfl fun _ last enough => reads_lines last enough

/-- The only module of a session and its entry, whose text is read as some items. -/
structure Only (s : Session.State) (m : Module) (script : EntryScript) (items : List Node)
    (code : String) : Prop where
  scripts : s.scripts = [script]
  modules : s.context.graph.modules = [m]
  line : script.hashbang = none
  strict : script.program.isStrict = true
  entry : ∃ closing, Script.parse true script.program.print = .ok (.of (.program none closing) items)
  directed : (items.filterMap Node.directive?).contains "use strict" = true
  printed : m.program.print = .ofList (Wrapper.layout m.id lines)
  regions : (declaration m.id).regions = m.program.parts.flatMap Node.regions
  dropped : ∀ text, s.context.cache.get? m.path = some text → Wrapper.DropsLine text
  parsed : ∀ text, s.context.cache.get? m.path = some text →
    ∀ alone, Script.parse true text = .ok alone → alone.isStrict = true
  emitted : Emit.emit script s.context.graph s.context.bound ⟨false, none⟩ = .ok code

theorem Only.readBack {s : Session.State} {m : Module} {script : EntryScript} {items : List Node}
    {code : String} (h : Only s m script items code) :
    Emit.ReadBack script s.context.graph items [declaration m.id] where
  entry := h.entry
  directed := h.directed.trans h.strict.symm
  modules := by
    rw [h.modules]
    have spelled : m.program.print.toList = Wrapper.layout m.id lines := by
      rw [h.printed, String.toList_ofList]
    exact .cons ⟨spelled ▸ stands m.id, rfl, h.regions⟩ .nil

def isRead (script : EntryScript) : Bool :=
  match Script.parse true script.program.print with
  | .ok ⟨.program none _, [], items⟩ => (items.filterMap Node.directive?).contains "use strict"
  | _ => false

def holds (s : Session.State) : Bool :=
  match s.scripts, s.context.graph.modules with
  | [script], [m] =>
    script.hashbang.isNone && script.program.isStrict && isRead script &&
    m.program.print == .ofList (Wrapper.layout m.id lines) &&
    (declaration m.id).regions == m.program.parts.flatMap Node.regions &&
    ((s.context.cache.get? m.path).all fun text => decide (Wrapper.DropsLine text) &&
      (Script.parse true text).toOption.all Node.isStrict) &&
    (Emit.emit script s.context.graph s.context.bound ⟨false, none⟩).isOk
  | _, _ => false

theorem only_of_holds {s : Session.State} (h : holds s = true) :
    ∃ m script items code, Only s m script items code := by
  unfold holds at h
  split at h
  · rename_i script m scripts modules
    simp only [Bool.and_eq_true, beq_iff_eq, Option.isNone_iff_eq_none] at h
    obtain ⟨⟨⟨⟨⟨⟨line, strict⟩, read⟩, printed⟩, regions⟩, text⟩, emitted⟩ := h
    unfold isRead at read
    split at read
    · rename_i closing items entry
      cases code : Emit.emit script s.context.graph s.context.bound ⟨false, none⟩ with
      | error _ =>
        rw [code] at emitted
        cases emitted
      | ok code' =>
        refine ⟨m, script, items, code', scripts, modules, line, strict, ⟨closing, entry⟩, read, printed,
          regions, ?_, ?_, code⟩
        · intro held there
          rw [there, Option.all_some, Bool.and_eq_true] at text
          exact of_decide_eq_true text.1
        · intro held there alone parses
          rw [there, Option.all_some, Bool.and_eq_true, parses] at text
          exact text.2
    · cases read
  · cases h

set_option maxRecDepth 100000 in
theorem holds_built : holds built = true := by
  decide +kernel

def single : Disk where
  tree := ⟨[(["main.js".toList], .file (.text "'use strict';\nf();"))]⟩
  cwd := []

def alone : Session.State := (Session.State.start plan single).after [.build (.ofString "/main.js")]

def loses (s : Session.State) (shim : Option String) : Bool :=
  match s.scripts with
  | [script] =>
    match Emit.emit script s.context.graph s.context.bound ⟨false, shim⟩ with
    | .ok code =>
      match Script.parse true code with
      | .ok artifact =>
        match artifact.regions with
        | [root] => script.program.isStrict && !root.strictAt [0]
        | _ => false
      | .error _ => false
    | .error _ => false
  | _ => false

theorem lost_of_loses {s : Session.State} {shim : Option String} (h : loses s shim = true) :
    ∃ script ∈ s.scripts, ∃ code artifact root,
      Emit.emit script s.context.graph s.context.bound ⟨false, shim⟩ = .ok code ∧
      Script.parse true code = .ok artifact ∧ artifact.regions = [root] ∧
      root.strictAt [0] ≠ script.program.isStrict := by
  unfold loses at h
  split at h
  · rename_i script scripts
    split at h
    · rename_i code emitted
      split at h
      · rename_i artifact parses
        split at h
        · rename_i root regions
          rw [Bool.and_eq_true, Bool.not_eq_true'] at h
          refine ⟨script, scripts ▸ List.mem_singleton_self _, code, artifact, root, emitted, parses,
            regions, ?_⟩
          rw [h.1, h.2]
          exact Bool.false_ne_true
        · cases h
      · cases h
    · cases h
  · cases h

set_option maxRecDepth 100000 in
theorem loses_alone : loses alone (some "development") = true := by
  decide +kernel

end Strict

namespace Session

open Script

theorem region_of_module {P : Module → Region → Prop} {ms : List Module} {ns : List Node}
    (h : List.Forall₂ (fun m n => ∃ r, n.regions = [r] ∧ P m r) ms ns) (more : List Region) {i : Nat}
    {m : Module} (at_ : ms[i]? = some m) :
    ∃ r, (ns.flatMap Node.regions ++ more)[i]? = some r ∧ P m r := by
  induction h generalizing i with
  | nil => cases at_
  | cons first _ ih =>
    obtain ⟨r, taken, holds⟩ := first
    rw [List.flatMap_cons, taken]
    cases i with
    | zero =>
      cases at_
      exact ⟨r, rfl, holds⟩
    | succ i => exact ih at_

theorem module_region {plan : Plan} {d : Disk} {earlier : List Action} {s : State}
    (reached : (State.start plan d).after earlier = s)
    (lines : ∀ m ∈ s.context.graph.modules, ∀ text, s.context.cache.get? m.path = some text →
      Wrapper.DropsLine text) {m : Module} (mem : m ∈ s.context.graph.modules) :
    ∃ r, m.program.parts.flatMap Node.regions = [r] ∧ ∃ text alone,
      s.context.cache.get? m.path = some text ∧ ContentId.ofText text = m.id ∧
      Script.parse true text = .ok alone ∧
      r.strictAt (Wrapper.ownPlace plan.instantiation) = alone.isStrict := by
  obtain ⟨text, alone, held, named, isScript, module⟩ := module_body reached mem
  obtain ⟨notes, answers, same⟩ := module (lines m mem text held)
  have isBody : (((Node.of (.body notes) alone.parts).live plan.env).fill answers).1.form =
      .body notes := by
    rw [Node.fill_of_other answers rfl, Node.live_settled]
    rfl
  have strict : (((Node.of (.body notes) alone.parts).live plan.env).fill answers).1.isStrict =
      alone.isStrict := by
    rw [Node.isStrict, directives_of_parse isScript, Node.isStrict]
  have regions := Wrapper.regions_declaration m.id plan.instantiation isBody
  rw [strict] at regions
  have taken := (congrArg (·.parts.flatMap Node.regions) same).trans
    ((List.flatMap_singleton ..).trans regions)
  exact ⟨_, taken, text, alone, held, named, isScript, Wrapper.strictAt_region ..⟩

theorem modules_regions {plan : Plan} {d : Disk} {earlier : List Action} {s : State}
    (reached : (State.start plan d).after earlier = s)
    (lines : ∀ m ∈ s.context.graph.modules, ∀ text, s.context.cache.get? m.path = some text →
      Wrapper.DropsLine text)
    {script : EntryScript} {items ns : List Node}
    (readBack : Emit.ReadBack script s.context.graph items ns) :
    List.Forall₂ (fun m n => ∃ r, n.regions = [r] ∧ ∃ text alone,
      s.context.cache.get? m.path = some text ∧ ContentId.ofText text = m.id ∧
      Script.parse true text = .ok alone ∧
      r.strictAt (Wrapper.ownPlace plan.instantiation) = alone.isStrict)
      s.context.graph.modules ns := by
  have regions : ∀ m ∈ s.context.graph.modules, _ := fun _ mem => module_region reached lines mem
  refine ((List.forall₂_and_left _ _).mpr ⟨regions, readBack.modules⟩).imp ?_
  rintro m n ⟨⟨r, taken, rest⟩, -, -, same⟩
  exact ⟨r, same.trans taken, rest⟩

/-- A bundle is read as one function: the definition of `process` if there is one, the modules, and last
the statements of the entry. These are strict if and only if the entry has the directive and nothing is
before them. A module's own function is strict if and only if the module has it, read by itself, whatever
the entry and the other modules have. This is under any plan and after any builds, of pieces whose texts
are read as what was printed. -/
theorem strict_iff {plan : Plan} {d : Disk} {earlier : List Action} {s : State}
    (reached : (State.start plan d).after earlier = s)
    (lines : ∀ m ∈ s.context.graph.modules, ∀ text, s.context.cache.get? m.path = some text →
      Wrapper.DropsLine text)
    {script : EntryScript} (oneLine : ∀ line ∈ script.hashbang, ∀ c ∈ line.toList, isLineEnd c = false)
    {items ns : List Node} (readBack : Emit.ReadBack script s.context.graph items ns)
    {shim : Option String} {code : String}
    (emitted : Emit.emit script s.context.graph s.context.bound ⟨false, shim⟩ = .ok code) :
    ∃ notes closing statements root,
      Script.parse true code = .ok (Emit.artifact script.hashbang notes (.of (.body closing)
        ((shim.map Emit.shimDeclaration).toList ++ ns ++ statements))) ∧
      List.Forall₂ Node.Demoted items statements ∧
      (Emit.artifact script.hashbang notes (.of (.body closing)
        ((shim.map Emit.shimDeclaration).toList ++ ns ++ statements))).regions = [root] ∧
      root.strictAt [0] =
        (script.program.isStrict && shim.isNone && s.context.graph.modules.isEmpty) ∧
      ∀ i m, s.context.graph.modules[i]? = some m → ∃ text alone,
        s.context.cache.get? m.path = some text ∧ ContentId.ofText text = m.id ∧
        Script.parse true text = .ok alone ∧
        root.strictAt (0 :: i :: Wrapper.ownPlace plan.instantiation) = alone.isStrict := by
  obtain ⟨closing, entry⟩ := readBack.entry
  have stand : List.Forall₂ (fun m n => Stands m.program.print.toList n) s.context.graph.modules ns :=
    readBack.modules.imp fun _ _ h => h.1
  obtain ⟨notes, closing', statements, parses, demoted, alone, behind⟩ :=
    Emit.parse_bundle oneLine entry stand (fun n mem => by rw [readBack.isDeclaration n mem]; nofun) shim
  have own := Emit.isStrict_statements (readBack.opening_undirected shim) alone behind closing'
  refine ⟨notes, closing', statements, _, ?_, demoted, Emit.regions_artifact .., ?_, ?_⟩
  · rw [Emit.emit_long emitted]
    exact parses
  · rw [Region.strictAt_inner rfl, Region.strictAt, own, readBack.opening_isEmpty, readBack.directed,
      Bool.and_assoc]
  · intro i m at_
    obtain ⟨r, there, text, alone, held, named, isScript, strict⟩ :=
      region_of_module (modules_regions reached lines readBack) (statements.flatMap Node.regions) at_
    refine ⟨text, alone, held, named, isScript, ?_⟩
    have behind : s.context.graph.modules.isEmpty = false := by
      rw [List.isEmpty_eq_false_iff_exists_mem]
      exact ⟨m, List.mem_of_getElem? at_⟩
    -- there is a module before the entry, so the function of the bundle is not strict
    rw [own, readBack.opening_isEmpty, behind, Bool.and_false, Bool.and_false,
      Region.strictAt_inner rfl, List.flatMap_append, List.flatMap_append, Emit.regions_shim,
      List.nil_append, Region.strictAt_inner there, strict]

/-- With a module before it the entry loses the directive, which the module keeps. -/
theorem strict_iff_built : ∃ script ∈ Strict.built.scripts, script.program.isStrict = true ∧
    ∃ code artifact root, Emit.emit script Strict.built.context.graph Strict.built.context.bound
        ⟨false, none⟩ = .ok code ∧
      Script.parse true code = .ok artifact ∧ artifact.regions = [root] ∧
      root.strictAt [0] = false ∧ root.strictAt [0, 0, 0] = true := by
  obtain ⟨m, script, items, code, only⟩ := Strict.only_of_holds Strict.holds_built
  have reached : (State.start Strict.plan Strict.disk).after [.build (.ofString "/main.js")] =
      Strict.built := rfl
  have mem (own : Module) (there : own ∈ Strict.built.context.graph.modules) : own = m := by
    rw [only.modules] at there
    exact List.mem_singleton.mp there
  obtain ⟨notes, closing, statements, root, parses, -, regions, entry, modules⟩ :=
    strict_iff reached (fun own there => mem own there ▸ only.dropped) (by rw [only.line]; nofun)
      only.readBack only.emitted
  obtain ⟨text, alone, held, -, isScript, strict⟩ := modules 0 m (by rw [only.modules]; rfl)
  refine ⟨script, only.scripts ▸ List.mem_singleton_self _, only.strict, code, _, root, only.emitted,
    parses, regions, ?_, ?_⟩
  · rw [entry, only.modules, List.isEmpty_cons, Bool.and_false]
  · exact strict.trans (only.parsed text held alone isScript)

/-- The directive of an entry may be lost in its bundle. -/
theorem not_strict_iff : ¬ ∀ (plan : Plan) (d : Disk) (earlier : List Action),
    ∀ script ∈ ((State.start plan d).after earlier).scripts, ∀ shim code artifact root,
    Emit.emit script ((State.start plan d).after earlier).context.graph
      ((State.start plan d).after earlier).context.bound ⟨false, shim⟩ = .ok code →
    Script.parse true code = .ok artifact → artifact.regions = [root] →
    root.strictAt [0] = script.program.isStrict := by
  intro kept
  have reached : (State.start Strict.plan Strict.single).after [.build (.ofString "/main.js")] =
      Strict.alone := rfl
  have same := kept Strict.plan Strict.single [.build (.ofString "/main.js")]
  rw [reached] at same
  obtain ⟨script, mem, code, artifact, root, emitted, parses, regions, lost⟩ :=
    Strict.lost_of_loses Strict.loses_alone
  exact lost (same script mem _ code artifact root emitted parses regions)

end Session

end Bundler
