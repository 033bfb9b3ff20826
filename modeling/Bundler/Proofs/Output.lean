import Bundler.Command
import Bundler.Proofs.Placement

/-! What a run leaves on the disk. A bundle is written through a file with a name that nothing has. A
run that fails on the way leaves every file as it was, and new directories at most. -/

namespace Bundler

namespace FileTree

/-- At a location the trees agree, or a directory is new there. -/
def GrownAt (t t' : FileTree) (at_ : Location) : Prop :=
  t'.lookup? at_ = t.lookup? at_ ∨ t.lookup? at_ = none ∧ t'.lookup? at_ = some .directory

/-- Two trees agree but for directories that are new in the second. -/
def Grown (t t' : FileTree) : Prop := ∀ at_, t.GrownAt t' at_

section

variable {t t' t'' : FileTree} {cwd : Location}

theorem Grown.refl (t : FileTree) : t.Grown t := fun _ => .inl rfl

theorem Grown.trans (first : t.Grown t') (second : t'.Grown t'') : t.Grown t'' := by
  intro at_
  rcases first at_ with same | ⟨missing, made⟩ <;> rcases second at_ with same' | ⟨missing', made'⟩
  · exact .inl (same'.trans same)
  · exact .inr ⟨same.symm.trans missing', made'⟩
  · exact .inr ⟨missing, same'.trans made⟩
  · cases made.symm.trans missing'

theorem grown_put {at_ : Location} (missing : t.lookup? at_ = none) : t.Grown (t.put at_ .directory) := by
  intro other
  by_cases same : other = at_
  · have below : at_ ≠ [] := by
      rintro rfl
      cases missing
    rw [same]
    exact .inr ⟨missing, lookup?_put_self below _⟩
  · exact .inl (lookup?_put_other same _)

theorem grown_of_makeDirectory {p : Path} (h : t.makeDirectory cwd p = .ok t') : t.Grown t' := by
  unfold makeDirectory at h
  split at h
  · cases h
  · rename_i missing
    cases target : t.target? cwd p with
    | error e =>
      rw [target] at h
      cases h
    | ok place =>
      rw [target] at h
      cases h
      exact grown_put (lookup?_of_target missing target)
  · cases h

theorem grown_makeDirectories (cwd : Location) (rounds : Nat) (t : FileTree) (p : Path) :
    t.Grown (makeDirectories cwd rounds t p).1 := by
  induction rounds generalizing t p with
  | zero => exact .refl t
  | succ rounds ih =>
    have settled (t : FileTree) (e : IoFault) :
        t.Grown (if t.isDirectory cwd p then (t, .ok ()) else (t, .error e) :
          FileTree × Except IoFault PUnit).1 := by
      split <;> exact .refl t
    unfold makeDirectories
    split
    · exact .refl t
    · dsimp only
      split
      · rename_i made
        exact grown_of_makeDirectory made
      · split
        · exact .refl t
        · -- the directories above are made first, and stay if the last one cannot be made
          rename_i parent _
          have before := ih t parent
          split
          · rename_i ran
            rw [ran] at before
            exact before
          · rename_i ran
            rw [ran] at before
            split
            · rename_i made
              exact before.trans (grown_of_makeDirectory made)
            · exact before.trans (settled _ _)
      · exact settled t _

end

theorem length_lt_freshName {t : FileTree} {e : Location × Entry} (mem : e ∈ t.entries) :
    e.1.flatten.length < t.freshName.length := by
  have within : e.1.flatten.Sublist (t.entries.flatMap fun e => e.1.flatten) :=
    List.sublist_flatten_of_mem (List.mem_map_of_mem mem)
  rw [freshName, List.length_append, List.length_replicate]
  exact Nat.lt_of_le_of_lt within.length_le (Nat.lt_add_of_pos_left (by decide))

theorem lookup?_freshName (t : FileTree) {location at_ : Location}
    (below : location ++ [t.freshName] <+: at_) : t.lookup? at_ = none := by
  -- an entry there would have the name in its location, and no location is that long
  have named : t.freshName ∈ at_ := below.subset List.mem_concat_self
  rw [lookup?_eq (List.ne_nil_of_mem named)]
  refine Option.map_eq_none_iff.mpr (List.find?_eq_none.mpr fun e mem same => ?_)
  have short := length_lt_freshName mem
  rw [beq_iff_eq.mp same] at short
  have long := (List.sublist_flatten_of_mem named).length_le
  exact Nat.not_lt_of_le long short

/-- One tree is another with one more entry, at a location that nothing was at or below. -/
structure Added (t : FileTree) (new : Location) (entry : Entry) (t' : FileTree) : Prop where
  below : new ≠ []
  free : ∀ at_, new <+: at_ → t.lookup? at_ = none
  there : t'.lookup? new = some entry
  others : ∀ at_, at_ ≠ new → t'.lookup? at_ = t.lookup? at_

section

variable {t t' after : FileTree} {cwd new : Location} {entry : Entry}

theorem makeTemporary_ok {directory : Path} (h : t.makeTemporary cwd directory = .ok (t', new)) :
    ∃ location, t.follow cwd directory = .ok (.at_ location .directory) ∧
      new = location ++ [t.freshName] ∧ t' = t.put new (.file (.text "")) := by
  obtain ⟨location, led, made⟩ := bind_directory_ok h
  cases made
  exact ⟨location, led, rfl, rfl⟩

theorem added_of_makeTemporary {directory : Path}
    (h : t.makeTemporary cwd directory = .ok (t', new)) (entry : Entry) :
    t.Added new entry (t'.put new entry) := by
  obtain ⟨location, -, rfl, rfl⟩ := makeTemporary_ok h
  have below : location ++ [t.freshName] ≠ [] := List.concat_ne_nil _ _
  refine ⟨below, fun at_ => t.lookup?_freshName, lookup?_put_self below entry, ?_⟩
  intro at_ other
  rw [lookup?_put_other other, lookup?_put_other other]

namespace Added

variable (added : t.Added new entry t')
include added

theorem keeps : t.Keeps t' := by
  intro at_ isDirectory
  have other : at_ ≠ new := by
    rintro rfl
    cases (added.free at_ List.prefix_rfl).symm.trans isDirectory
  rw [added.others at_ other, isDirectory]

theorem eq_of_below {at_ : Location} {other : Entry} (under : new <+: at_)
    (there : t'.lookup? at_ = some other) : at_ = new := by
  by_contra apart
  rw [added.others at_ apart, added.free at_ under] at there
  cases there

theorem lookup?_remove (at_ : Location) : (t'.remove new).lookup? at_ = t.lookup? at_ := by
  by_cases under : new <+: at_
  · have below : at_ ≠ [] := by
      rintro rfl
      exact added.below (List.prefix_nil.mp under)
    rw [lookup?_remove_below under below, added.free at_ under]
  · have other : at_ ≠ new := by
      rintro rfl
      exact under List.prefix_rfl
    rw [lookup?_remove_other under, added.others at_ other]

end Added

theorem filePlace_ok {p : Path} {place : Location} (h : t.filePlace cwd p = .ok place) :
    t.Leads cwd p place ∧ ((∃ content, t.lookup? place = some (.file content)) ∨
      t.target? cwd p = .ok place ∧ t.lookup? place = none) := by
  unfold filePlace at h
  split at h
  · cases h
  · cases h
  · rename_i content led
    cases h
    obtain ⟨leads, there⟩ := follow_file led
    exact ⟨leads, .inl ⟨content, there⟩⟩
  · rename_i missing
    split at h
    · cases h
    · rename_i noDot
      split at h
      · cases h
      · rename_i noSlash
        exact ⟨leads_of_target missing h (Bool.eq_false_iff.mpr noDot) noSlash,
          .inr ⟨h, lookup?_of_target missing h⟩⟩
  · cases h

theorem rename_ok {source : Location} {p : Path} (h : t.rename cwd source p = .ok after)
    (there : t.lookup? source = some entry) : ∃ place, t.filePlace cwd p = .ok place ∧
      after = if place = source then t else (t.put place entry).remove source := by
  unfold rename at h
  cases placed : t.filePlace cwd p with
  | error e =>
    rw [placed] at h
    cases h
  | ok place =>
    rw [placed] at h
    simp only [there] at h
    exact ⟨place, rfl, (Except.ok.inj h).symm⟩

section

variable {content : Content} {place : Location} (added : t.Added new (.file content) t')
include added

theorem Added.lookup?_moved {at_ : Location} (other : at_ ≠ place) :
    ((t'.put place (.file content)).remove new).lookup? at_ = t.lookup? at_ := by
  rw [← added.lookup?_remove at_]
  by_cases under : new <+: at_
  · have below : at_ ≠ [] := fun root => added.below (List.prefix_nil.mp (root ▸ under))
    rw [lookup?_remove_below under below, lookup?_remove_below under below]
  · rw [lookup?_remove_other under, lookup?_remove_other under, lookup?_put_other other]

theorem Added.keeps_moved (noDirectory : t'.lookup? place ≠ some .directory) :
    t'.Keeps ((t'.put place (.file content)).remove new) := by
  intro at_ isDirectory
  have other : at_ ≠ place := by
    rintro rfl
    exact noDirectory isDirectory
  have notNew : at_ ≠ new := by
    rintro rfl
    cases added.there.symm.trans isDirectory
  rw [added.lookup?_moved other, ← added.others at_ notNew, isDirectory]

theorem Added.renamed {p : Path} (h : t'.rename cwd new p = .ok after)
    (apart : ∀ place, t'.target? cwd p = .ok place → new <+: place → place = new) :
    ∃ place, after.follow cwd p = .ok (.at_ place (.file content)) ∧
      after.lookup? place = some (.file content) ∧
      ∀ at_, at_ ≠ place → after.lookup? at_ = t.lookup? at_ := by
  obtain ⟨place, placed, rfl⟩ := rename_ok h added.there
  obtain ⟨leads, kind⟩ := filePlace_ok placed
  refine ⟨place, ?_⟩
  by_cases stays : place = new
  · -- the path itself ends in the new name
    rw [if_pos stays]
    subst stays
    exact ⟨leads.follow (fun _ => id) added.there, added.there, added.others⟩
  · rw [if_neg stays]
    have clear : ¬ new <+: place := by
      intro under
      rcases kind with ⟨old, there⟩ | ⟨target, -⟩
      · exact stays (added.eq_of_below under there)
      · exact stays (apart place target under)
    have noDirectory : t'.lookup? place ≠ some .directory := by
      rcases kind with ⟨old, there⟩ | ⟨-, missing⟩
      · rw [there]
        exact nofun
      · rw [missing]
        exact nofun
    have there : ((t'.put place (.file content)).remove new).lookup? place =
        some (.file content) := by
      rw [lookup?_remove_other clear, lookup?_put_self leads.below]
    have keeps := added.keeps_moved noDirectory
    exact ⟨leads.follow keeps there, there, fun at_ other => added.lookup?_moved other⟩

end

end

end FileTree

namespace Bundle

variable {d : Disk} {output : Path} {text : String}

/-- A tree holds a text at the end of a path, and elsewhere what another tree holds, with new
directories at most. -/
def Written (t : FileTree) (cwd : Location) (output : Path) (text : String) (after : FileTree) :
    Prop :=
  ∃ place, after.follow cwd output = .ok (.at_ place (.file (.text text))) ∧
    after.lookup? place = some (.file (.text text)) ∧ ∀ at_, at_ ≠ place → t.GrownAt after at_

theorem target?_in_directory {t : FileTree} {cwd location place : Location}
    (led : t.follow cwd (directoryOf output) = .ok (.at_ location .directory))
    (h : t.target? cwd output = .ok place) : ∃ name, place = location ++ [name] := by
  unfold FileTree.target? at h
  split at h
  · rename_i name parent _ before
    rw [directoryOf, before] at led
    dsimp only at h led
    split at h
    · rename_i empty
      rw [if_pos empty] at led
      cases led
      cases h
      exact ⟨name, rfl⟩
    · rename_i nonempty
      rw [if_neg nonempty] at led
      rw [led] at h
      cases h
      exact ⟨name, rfl⟩
  · cases h

theorem write_spec (d : Disk) (output : Path) (text : String) (broken : Option BrokenWrite) :
    match write d output text broken with
    | (tree, .ok _) => Written d.tree d.cwd output text tree
    | (tree, .error _) => d.tree.Grown tree := by
  have grown := FileTree.grown_makeDirectories d.cwd ((directoryOf output).chars.length + 1) d.tree
    (directoryOf output)
  unfold write
  dsimp only
  rcases ran : FileTree.makeDirectories d.cwd ((directoryOf output).chars.length + 1) d.tree
    (directoryOf output) with ⟨tree, e | _⟩ <;> rw [ran] at grown
  · exact grown
  dsimp only
  cases made : tree.makeTemporary d.cwd (directoryOf output) with
  | error e => exact grown
  | ok opened =>
    obtain ⟨opened, temporary⟩ := opened
    have removed {content : Content} {tree' : FileTree}
        (added : tree.Added temporary (.file content) tree') :
        d.tree.Grown (tree'.remove temporary) := by
      intro at_
      rw [FileTree.GrownAt, added.lookup?_remove]
      exact grown at_
    dsimp only
    cases broken with
    | some broken => exact removed (FileTree.added_of_makeTemporary made (.file (.text broken.written)))
    | none =>
      have added := FileTree.added_of_makeTemporary made (.file (.text text))
      dsimp only [FileTree.writeText]
      cases moved : (opened.put temporary (.file (.text text))).rename d.cwd temporary output with
      | error e => exact removed added
      | ok after =>
        obtain ⟨place, led, there, others⟩ := added.renamed moved fun place target under => by
          -- what is moved and where it goes are in one directory, so neither is below the other
          obtain ⟨location, led, rfl, -⟩ := FileTree.makeTemporary_ok made
          obtain ⟨name, rfl⟩ := target?_in_directory (added.keeps.follow led) target
          exact (under.eq_of_length (by simp)).symm
        refine ⟨place, led, there, fun at_ other => ?_⟩
        rw [FileTree.GrownAt, others at_ other]
        exact grown at_

theorem makeFile_spec (d : Disk) (c : Config) (entry output : Path) (shorten : Emit.Minifier)
    (broken : Option BrokenWrite) :
    match makeFile d c entry output shorten broken with
    | (tree, .ok bundle, _) => (make d c entry shorten).1 = .ok bundle ∧
      Written d.tree d.cwd output bundle.code tree
    | (tree, .error _, _) => d.tree.Grown tree ∧
      ((∀ bundle, (make d c entry shorten).1 ≠ .ok bundle) → tree = d.tree) := by
  unfold makeFile
  rcases make d c entry shorten with ⟨e | bundle, warnings⟩
  · exact ⟨.refl d.tree, fun _ => rfl⟩
  · have written := write_spec d output bundle.code broken
    dsimp only
    rcases ran : write d output bundle.code broken with ⟨tree, e | _⟩ <;> rw [ran] at written
    · exact ⟨written, fun none => (none bundle rfl).elim⟩
    · exact ⟨rfl, written⟩

end Bundle

namespace Command

/-- The output is all or nothing. A bundle that is returned is in its file, and nothing else has
changed but for new directories; after a failure there are new directories at most, and none if there
was no bundle. A run ends in this way too, and with the code 0 just if there is a bundle or if only help
or the version was asked for. The disk may refuse the text, or take a part of it only. -/
theorem output_all_or_nothing (shorten : Emit.Minifier) (broken : Option BrokenWrite) :
    (∀ (d : Disk) (c : Config) (entry output : Path),
      match Bundle.makeFile d c entry output shorten broken with
      | (tree, .ok bundle, _) => (Bundle.make d c entry shorten).1 = .ok bundle ∧
        Bundle.Written d.tree d.cwd output bundle.code tree
      | (tree, .error _, _) => d.tree.Grown tree ∧
        ((∀ bundle, (Bundle.make d c entry shorten).1 ≠ .ok bundle) → tree = d.tree)) ∧
    ∀ (d : Disk) (vars : Variables) (arguments : List String),
      ((run d vars arguments shorten broken).exitCode = 0 ↔
        (∃ bundle, (run d vars arguments shorten broken).result = .ok bundle) ∨
          CommandLine.parse arguments = .error .help ∨
          CommandLine.parse arguments = .error .version) ∧
      match (run d vars arguments shorten broken).result with
      | .ok bundle => ∃ line c, CommandLine.parse arguments = .ok line ∧
        Config.load d vars line.configFile = .ok c ∧
        (Bundle.make d (line.settings c) line.entry shorten).1 = .ok bundle ∧
        Bundle.Written d.tree d.cwd line.output bundle.code
          (run d vars arguments shorten broken).tree
      | .error _ => d.tree.Grown (run d vars arguments shorten broken).tree ∧
        ((∀ line c bundle, CommandLine.parse arguments = .ok line →
            Config.load d vars line.configFile = .ok c →
            (Bundle.make d (line.settings c) line.entry shorten).1 ≠ .ok bundle) →
          (run d vars arguments shorten broken).tree = d.tree) := by
  refine ⟨fun d c entry output => Bundle.makeFile_spec d c entry output shorten broken, ?_⟩
  intro d vars arguments
  unfold run
  cases parsed : CommandLine.parse arguments with
  | error refusal =>
    refine ⟨?_, .refl d.tree, fun _ => rfl⟩
    rcases refusal with _ | _ | fault <;> simp [Outcome.exitCode, CommandFault.exitCode]
  | ok line =>
    dsimp only
    cases loaded : Config.load d vars line.configFile with
    | error cause =>
      refine ⟨?_, .refl d.tree, fun _ => rfl⟩
      simp [Outcome.exitCode, CommandFault.exitCode]
    | ok c =>
      have made := Bundle.makeFile_spec d (line.settings c) line.entry line.output shorten broken
      dsimp only [bundle]
      rcases ran : Bundle.makeFile d (line.settings c) line.entry line.output shorten broken with
        ⟨tree, e | bundle, warnings⟩ <;> rw [ran] at made
      · obtain ⟨grown, unchanged⟩ := made
        refine ⟨?_, grown, fun failed => unchanged fun bundle => failed line c bundle rfl loaded⟩
        simp [Outcome.exitCode, CommandFault.exitCode, Except.mapError]
      · refine ⟨?_, line, c, rfl, loaded, made⟩
        simp [Outcome.exitCode, Except.mapError]

set_option maxRecDepth 100000 in
/-- A missing directory is made, a directory is not replaced, and nothing is left of a text that the
disk takes a part of. -/
example :
    let d : Disk := ⟨⟨[(["main.js".toList], .file (.text "run();")), (["out".toList], .directory)]⟩, []⟩
    let vars : Variables := fun _ => none
    let full := run d vars ["-e", "main.js", "-o", "out.js"] Script.Node.print
      (some ⟨.storageFull, "(fun"⟩)
    (run d vars ["-e", "main.js", "-o", "new/out.js"]).exitCode = 0 ∧
      (run d vars ["-e", "main.js", "-o", "out"]).exitCode = 1 ∧
      full.exitCode = 1 ∧ full.tree.entries = d.tree.entries := by decide +kernel

end Command

end Bundler
