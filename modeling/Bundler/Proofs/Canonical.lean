import Bundler.Bundle
import Bundler.Proofs.Cached
import Bundler.Proofs.Following
import Bundler.Proofs.Placement
import Bundler.Proofs.Unread
import Bundler.Proofs.Within

/-! One path for each file. The paths that look-ups try are normal forms, normal forms with an
extension put after them, and an index joined to a normal form. Not all of these are normal forms
again, but those that lead to a file are: each is spelled by the names from the root down to its file.
So two paths that were found are the same just when their files are, and no build reads a file twice. -/

namespace Bundler

open Bundler.Bundle (directoryPath)

namespace Path

/-- An absolute path that is its own normal form. -/
structure Canonical (p : Path) : Prop where
  absolute : p.isAbsolute = true
  normal : p.normalize = p

/-- A path from the root that may climb first, and then goes down along names but for its last
segment, of which nothing is known. -/
def Rooted (p : Path) : Prop :=
  ∃ levels names last, p = directoryPath (climbing levels names ++ [last]) ∧
    (∀ name ∈ names, IsName name) ∧ '/' ∉ last

theorem Rooted.isAbsolute {p : Path} (h : p.Rooted) : p.isAbsolute := by
  obtain ⟨_, _, _, rfl, -⟩ := h
  rfl

theorem canonical_normalize {p : Path} (absolute : p.isAbsolute) : p.normalize.Canonical :=
  ⟨p.isAbsolute_normalize.trans absolute, p.normalize_normalize⟩

theorem isAbsolute_join_of_isAbsolute {p : Path} (absolute : p.isAbsolute) (rest : Path) :
    (p.join rest).isAbsolute := by
  by_cases replaces : rest.isAbsolute
  · rw [join, if_pos replaces]
    exact replaces
  · rw [p.isAbsolute_join (Bool.eq_false_iff.mpr replaces)]
    exact absolute

theorem isAbsolute_directory {p : Path} (absolute : p.isAbsolute) : p.directory.isAbsolute := by
  have start := (isAbsolute_iff p).mp absolute
  unfold directory parent?
  rw [start]
  dsimp only
  split
  · rfl
  · rw [withTrail, start]
    rfl

theorem directoryPath_append (front : List (List Char)) (last suffix : List Char) :
    (directoryPath (front ++ [last])).append suffix = directoryPath (front ++ [last ++ suffix]) := by
  rw [append, directoryPath, directoryPath, List.cons_append, joinChars_concat]

theorem joinChars_append (front : List (List Char)) (nonempty : front ≠ []) (last : List Char) :
    joinChars (front ++ [last]) = joinChars front ++ '/' :: last := by
  induction front with
  | nil => exact (nonempty rfl).elim
  | cons first rest ih =>
    cases rest with
    | nil => rfl
    | cons next rest =>
      show first ++ '/' :: joinChars (next :: rest ++ [last]) = _
      rw [ih (List.cons_ne_nil _ _)]
      simp [joinChars]

theorem segments_directoryPath {segments : List (List Char)} (nonempty : segments ≠ [])
    (slashless : ∀ segment ∈ segments, '/' ∉ segment) :
    (directoryPath segments).segments = [] :: segments := by
  have split := splitChars_append_slash (joinChars segments) (List.not_mem_nil (a := '/'))
  rw [List.nil_append, splitChars_joinChars nonempty slashless] at split
  exact split

theorem getLast?_directoryPath {front : List (List Char)} {last : List Char} (busy : last ≠ [])
    (slashless : '/' ∉ last) : (directoryPath (front ++ [last])).chars.getLast? ≠ some '/' := by
  have chars : (directoryPath (front ++ [last])).chars =
      '/' :: joinChars (front ++ [[]]) ++ last := by
    rw [directoryPath, List.cons_append, joinChars_concat, List.nil_append]
  intro slash
  rw [chars, List.getLast?_append_of_ne_nil _ busy] at slash
  exact slashless (List.mem_of_getLast? slash)

theorem directoryPath_join {segments : List (List Char)} (active : Active segments)
    {name : List Char} (named : IsName name) :
    (directoryPath segments).join ⟨name⟩ = directoryPath (segments ++ [name]) := by
  have relative : isAbsolute ⟨name⟩ = false :=
    isAbsolute_of_start (by rw [(components_name named).1]; decide)
  rw [join, relative, if_neg Bool.false_ne_true]
  rcases List.eq_nil_or_concat segments with rfl | ⟨front, last, rfl⟩
  · rfl
  · rw [List.concat_eq_append] at active ⊢
    obtain ⟨notIdle, slashless⟩ := active last (List.mem_append_right _ List.mem_cons_self)
    have busy : last ≠ [] := by
      rintro rfl
      cases notIdle
    have nonempty : (directoryPath (front ++ [last])).chars ≠ [] := List.cons_ne_nil _ _
    rw [if_neg (not_or.mpr ⟨nonempty, getLast?_directoryPath busy slashless⟩), directoryPath,
      directoryPath, joinChars_append _ (List.concat_ne_nil _ _), List.cons_append]

namespace Canonical

variable {p : Path} (h : p.Canonical)
include h

theorem eq_directoryPath : p = directoryPath (climbing (p.way.up % 2) p.descent) := by
  have whole := p.normalize_eq
  rw [h.normal, anchor, if_pos h.absolute, List.singleton_append, ofComponents_root] at whole
  exact whole

theorem rooted_append {suffix : List Char} (slashless : '/' ∉ suffix) :
    (p.append suffix).Rooted := by
  have named : ∀ name ∈ p.descent, IsName name := isName_of_mem_descent
  rw [h.eq_directoryPath]
  generalize p.descent = names at named
  -- the suffix becomes part of the last segment, which is no name if the path has none
  rcases List.eq_nil_or_concat names with rfl | ⟨front, last, rfl⟩
  · rcases Nat.mod_two_eq_zero_or_one p.way.up with level | level <;> rw [level]
    · exact ⟨0, [], suffix, rfl, fun _ mem => (List.not_mem_nil mem).elim, slashless⟩
    · refine ⟨0, [], ['.', '.'] ++ suffix, rfl, fun _ mem => (List.not_mem_nil mem).elim, ?_⟩
      simpa using slashless
  · rw [List.concat_eq_append] at named ⊢
    obtain ⟨before, own⟩ := List.forall_mem_append.mp named
    have slashless' : '/' ∉ last ++ suffix := fun slash =>
      (List.mem_append.mp slash).elim (own last List.mem_cons_self).2.1 slashless
    refine ⟨p.way.up % 2, front, last ++ suffix, ?_, before, slashless'⟩
    rw [climbing, ← List.append_assoc, directoryPath_append, climbing]

theorem rooted : p.Rooted := by
  have whole := h.rooted_append (List.not_mem_nil (a := '/'))
  rwa [append, List.append_nil] at whole

theorem rooted_join {name : List Char} (named : IsName name) : (p.join ⟨name⟩).Rooted := by
  have below : ∀ name ∈ p.descent, IsName name := isName_of_mem_descent
  rw [h.eq_directoryPath, directoryPath_join (active_climbing below _) named]
  exact ⟨_, _, name, rfl, below, named.2.1⟩

end Canonical

theorem canonical_directoryPath {at_ : Location} (named : ∀ name ∈ at_, IsName name) :
    (directoryPath at_).Canonical := by
  have active : Active (climbing 0 at_) := active_climbing named 0
  have whole : directoryPath at_ = ofComponents ((if true then [.root] else []) ++
      (climbing 0 at_).map Component.ofSegment) := (ofComponents_root (climbing 0 at_)).symm
  have components : (directoryPath at_).components = .root :: at_.map .name := by
    rw [whole, components_ofComponents active, climbing_ofSegment named 0]
    rfl
  have way : (directoryPath at_).way = ⟨0, at_.reverse⟩ := by
    rw [Path.way, components, List.foldl_cons]
    exact (Way.foldl_names ⟨0, []⟩ at_).trans (by rw [List.append_nil])
  refine ⟨rfl, ?_⟩
  rw [normalize_eq, way, descent, way, List.reverse_reverse]
  exact whole.symm

end Path

/-- A path from the root that leads to a file is spelled by the names down to the file. -/
theorem FileTree.eq_of_follow_file {t : FileTree} {cwd at_ : Location} {p : Path}
    {content : Content} (rooted : p.Rooted)
    (h : t.follow cwd p = .ok (.at_ at_ (.file content))) :
    p = directoryPath at_ ∧ ∀ name ∈ at_, Path.IsName name := by
  obtain ⟨levels, names, last, rfl, named, slashless⟩ := rooted
  have active := Path.active_climbing named levels
  have segments := Path.segments_directoryPath (List.concat_ne_nil last (Path.climbing levels names))
    (List.forall_mem_append.mpr ⟨fun segment mem => (active segment mem).2,
      List.forall_mem_singleton.mpr slashless⟩)
  obtain ⟨front, own, location, ends, busy, goes, walked, rfl⟩ := (follow_file h).1.way
  have whole : [] :: Path.climbing levels names ++ [last] = front ++ [own] :=
    segments.symm.trans ends
  obtain ⟨rfl, same⟩ := List.append_inj' whole rfl
  cases same
  obtain ⟨_, entered, walked⟩ := walk_cons_ok walked
  cases enter_idle rfl entered
  cases levels with
  | succ levels =>
    -- from the root the first `..` leads above it, where there are no files
    obtain ⟨_, entered, later⟩ := walk_cons_ok walked
    cases entered
    cases walk_above later
  | zero =>
    have led := foldlM_of_walk (fun segment mem => (active segment mem).1) walked
    rw [Path.climbing_ofSegment named 0] at led
    have same : location = names := location_of_below led
    rw [same]
    refine ⟨rfl, List.forall_mem_append.mpr ⟨named, List.forall_mem_singleton.mpr ?_⟩⟩
    exact ⟨busy, slashless, goes⟩

namespace Resolver

variable {r : Resolver} {d : Disk} {specifier : String} {base directory p : Path}

theorem canonical_place (root : r.root.isAbsolute) (start : base.isAbsolute) :
    (r.place specifier base).Canonical := by
  unfold place
  split
  · exact Path.canonical_normalize (Path.isAbsolute_join_of_isAbsolute start _)
  · have packages := Path.isAbsolute_join_of_isAbsolute root (.ofString r.packageDir)
    exact Path.canonical_normalize (Path.isAbsolute_join_of_isAbsolute packages _)

section

variable (noSlash : '/' ∉ r.extension.toList)
include noSlash

theorem rooted_extended (h : p.Canonical) : (r.extended p).Rooted :=
  h.rooted_append (by simpa using noSlash)

theorem rooted_index (h : directory.Canonical) : (directory.join r.indexName).Rooted := by
  have isName : Path.IsName "index.".toList := by decide
  rw [indexName, Path.ofString, String.toList_append]
  exact h.rooted_join (isName.append noSlash)

theorem rooted_withExtension (h : p.Canonical) : (r.withExtension d p).Rooted := by
  unfold withExtension
  split
  · exact rooted_extended noSlash h
  · split
    · exact h.rooted
    · exact rooted_extended noSlash h

theorem Entry.rooted (h : directory.Canonical) (entry : r.Entry d directory p) : p.Rooted := by
  have main (main : String) : (mainPath directory main).Canonical :=
    Path.canonical_normalize (Path.isAbsolute_join_of_isAbsolute h.absolute _)
  cases entry with
  | main => exact (main _).rooted
  | extended => exact rooted_extended noSlash (main _)
  | nested => exact rooted_index noSlash (main _)
  | index => exact rooted_index noSlash h

variable (root : r.root.isAbsolute) (start : base.isAbsolute)
include root start

theorem Finds.rooted (h : r.Finds d specifier base p) : p.Rooted := by
  have place : (r.place specifier base).Canonical := canonical_place root start
  cases h with
  | direct => exact rooted_withExtension noSlash place
  | entry enters entry => exact entry.rooted noSlash (enters.place ▸ place)
  | exact => exact place.rooted
  | extended => exact rooted_extended noSlash place

theorem rooted_of_resolve {next : Path} {kind : ModuleKind}
    (h : r.resolve d specifier base = .ok (.file p next kind)) : p.Rooted ∧ next.isAbsolute := by
  obtain ⟨finds, rfl, -⟩ := resolve_file_iff.mp h
  have rooted := finds.rooted noSlash root start
  exact ⟨rooted, Path.isAbsolute_directory rooted.isAbsolute⟩

end

end Resolver

namespace Bundle

variable {cwd : Location} {c : Config} {p path : Path}

theorem canonical_of_absolute (h : absolute cwd p = .ok path) : path.Canonical := by
  unfold absolute at h
  split at h
  · cases h
  · cases h
    exact Path.canonical_normalize (Path.isAbsolute_join_of_isAbsolute rfl p)

theorem isAbsolute_of_rootOf (entry : path.isAbsolute) (h : rootOf cwd c path = .ok p) :
    p.isAbsolute := by
  unfold rootOf at h
  split at h
  · exact (canonical_of_absolute h).absolute
  · cases h
    exact Path.isAbsolute_directory entry

end Bundle

/-- Texts that are kept for paths from the root, one for each path. -/
structure Cache.Neat (c : Cache) : Prop where
  rooted : ∀ entry ∈ c.texts, entry.1.Rooted
  apart : (c.texts.map (·.1.components)).Nodup

theorem Cache.Neat.read {c after : Cache} {d : Disk} {p : Path} {text : String} (h : c.Neat)
    (rooted : p.Rooted) (read : c.read d p = .ok (text, after)) : after.Neat := by
  rcases read_cases read with ⟨-, rfl⟩ | ⟨new, -, rfl⟩
  · exact h
  · constructor
    · exact List.forall_mem_append.mpr ⟨h.rooted, List.forall_mem_singleton.mpr rooted⟩
    · rw [List.map_append]
      exact nodup_concat h.apart new

theorem Cache.read_added {c after : Cache} {d : Disk} {p : Path} {text : String}
    (read : c.read d p = .ok (text, after)) :
    (after = c ∧ ∀ d', c.read d' p = .ok (text, c)) ∨
      (after = ⟨c.texts ++ [(p, text)]⟩ ∧ d.readText p = .ok text) := by
  rcases read_cases read with ⟨held, rfl⟩ | ⟨-, fresh, rfl⟩
  · refine .inl ⟨rfl, fun d' => ?_⟩
    rw [Cache.read, held]
  · exact .inr ⟨rfl, fresh⟩

section

variable {plan : Plan} {d : Disk} {c c' : Context} {base path : Path} {specifiers : List String}
  {answers : List (Option ContentId)} {e : BundleFault}
  (noSlash : '/' ∉ plan.resolver.extension.toList) (root : plan.resolver.root.isAbsolute)
include noSlash root

theorem Walk.neat (h : Walk plan d base specifiers c answers c') (start : base.isAbsolute)
    (neat : c.cache.Neat) : c'.cache.Neat := by
  induction h with
  | done => exact neat
  | host _ _ _ later =>
    refine later start ?_
    rw [Context.leave_cache]
    exact neat
  | known resolved read _ _ _ later =>
    refine later start ?_
    rw [Context.record_cache]
    exact neat.read (Resolver.rooted_of_resolve noSlash root start resolved).1 read
  | new resolved read _ _ _ _ _ _ deeper later =>
    obtain ⟨rooted, below⟩ := Resolver.rooted_of_resolve noSlash root start resolved
    refine later start ?_
    rw [Context.record_cache]
    exact deeper below (neat.read rooted read)

/-- The texts of a walk that is given up are kept for paths from the root, and so is the path of the
file that could not be read. -/
theorem Halt.neat (h : Halt plan d base specifiers c e c') (start : base.isAbsolute)
    (neat : c.cache.Neat) : c'.cache.Neat ∧ ∀ p cause, e = .io p cause → p.Rooted := by
  induction h with
  | later first _ ih => exact ih start (first.neat noSlash root start neat)
  | unresolved failed =>
    refine ⟨neat, fun p cause same => ?_⟩
    rcases Resolver.resolve_error failed with ⟨_, rfl⟩ | rfl <;> cases same
  | unavailable => exact ⟨neat, nofun⟩
  | unread resolved failed =>
    refine ⟨neat, fun p cause same => ?_⟩
    obtain ⟨_, own⟩ := Cache.read_error failed
    cases own.symm.trans same
    exact (Resolver.rooted_of_resolve noSlash root start resolved).1
  | malformed resolved read =>
    exact ⟨neat.read (Resolver.rooted_of_resolve noSlash root start resolved).1 read, nofun⟩
  | unwrapped resolved read =>
    exact ⟨neat.read (Resolver.rooted_of_resolve noSlash root start resolved).1 read, nofun⟩
  | inside resolved read _ _ _ ih =>
    obtain ⟨rooted, below⟩ := Resolver.rooted_of_resolve noSlash root start resolved
    exact ih below (neat.read rooted read)

namespace Build

theorem neat_entry (rooted : path.Rooted) (neat : c.cache.Neat) :
    (((entry plan d path).run.run c).2.cache.Neat) ∧
      ∀ p cause, ((entry plan d path).run.run c).1 = .error (.io p cause) → p.Rooted := by
  have start := Path.isAbsolute_directory rooted.isAbsolute
  rcases ran : (entry plan d path).run.run c with ⟨e | script, c'⟩
  · rcases entry_error ran with ⟨failed, rfl⟩ | ⟨_, _, read, ⟨-, rfl, rfl⟩ | ⟨_, -, halt⟩⟩
    · refine ⟨neat, fun p cause same => ?_⟩
      obtain ⟨_, own⟩ := Cache.read_error failed
      cases own.symm.trans (Except.error.inj same)
      exact rooted
    · exact ⟨neat.read rooted read, nofun⟩
    · obtain ⟨left, unread⟩ := halt.neat noSlash root start (neat.read rooted read)
      exact ⟨left, fun p cause same => unread p cause (Except.error.inj same)⟩
  · obtain ⟨_, _, _, _, read, -, walk, -⟩ := entry_ok ran
    exact ⟨walk.neat noSlash root start (neat.read rooted read), nofun⟩

end Build

end

namespace Build

/-- The paths that a build from an empty context has read texts from, in their order: a text is added
whenever one is read, and a read that fails is the last. -/
def reads (built : Except BundleFault EntryScript × Context) : List Path :=
  built.2.cache.texts.map (·.1) ++ (unread? built).toList.map (·.1)

theorem mem_reads_of_held {built : Except BundleFault EntryScript × Context} {p : Path}
    {text : String} (held : built.2.cache.get? p = some text) : ∃ q ∈ reads built, q.same p := by
  obtain ⟨entry, mem, same, -⟩ := Cache.get?_eq_some held
  exact ⟨entry.1, List.mem_append_left _ (List.mem_map_of_mem mem), same⟩

theorem entry_mem_reads (plan : Plan) (d : Disk) (path : Path) (c : Context) :
    ∃ p ∈ reads ((entry plan d path).run.run c), p.same path := by
  rcases ran : (entry plan d path).run.run c with ⟨e | script, c'⟩
  · rcases entry_error ran with ⟨failed, rfl⟩ | ⟨text, _, read, ⟨-, rfl, rfl⟩ | ⟨_, -, halt⟩⟩
    · obtain ⟨_, rfl⟩ := Cache.read_error failed
      exact ⟨path, List.mem_append_right _ List.mem_cons_self, beq_self_eq_true path.components⟩
    · exact mem_reads_of_held (Cache.get?_of_read read)
    · exact mem_reads_of_held (halt.retains.texts path text (Cache.get?_of_read read))
  · obtain ⟨text, _, _, _, read, -, walk, -⟩ := entry_ok ran
    exact mem_reads_of_held (walk.retains.texts path text (Cache.get?_of_read read))

theorem module_mem_reads (plan : Plan) (d : Disk) (path : Path) :
    ∀ m ∈ ((entry plan d path).run.run Context.empty).2.graph.modules,
      ∃ p ∈ reads ((entry plan d path).run.run .empty), p.same m.path := by
  intro m mem
  have recorded : ((entry plan d path).run.run Context.empty).2.Recorded plan :=
    Context.Recorded.keptByWalks.entry (d := d) path fun _ mem => absurd mem List.not_mem_nil
  obtain ⟨_, source, -⟩ := recorded m mem
  obtain ⟨text, held, -⟩ := Option.bind_eq_some_iff.mp source
  exact mem_reads_of_held held

theorem reads_apart {plan : Plan} {d : Disk} {path : Path}
    (noSlash : '/' ∉ plan.resolver.extension.toList) (root : plan.resolver.root.isAbsolute)
    (rooted : path.Rooted) :
    (∀ p ∈ reads ((entry plan d path).run.run .empty), p.Rooted) ∧
      ((reads ((entry plan d path).run.run .empty)).map Path.components).Nodup := by
  have empty : Cache.empty.Neat := ⟨fun _ mem => (List.not_mem_nil mem).elim, List.nodup_nil⟩
  obtain ⟨left, unread⟩ := neat_entry (d := d) (c := .empty) noSlash root rooted empty
  have kept : ∀ p ∈ ((entry plan d path).run.run Context.empty).2.cache.texts.map (·.1), p.Rooted := by
    intro p mem
    obtain ⟨text, held, rfl⟩ := List.mem_map.mp mem
    exact left.rooted text held
  generalize ran : (entry plan d path).run.run Context.empty = built at left unread kept
  rw [reads, List.map_append, List.map_map]
  cases failed : unread? built with
  | none =>
    rw [Option.toList_none, List.map_nil, List.append_nil, List.map_nil, List.append_nil]
    exact ⟨kept, left.apart⟩
  | some fault =>
    obtain ⟨p, cause⟩ := fault
    obtain ⟨c, rfl⟩ := error_of_unread? failed
    rw [Option.toList_some]
    refine ⟨List.forall_mem_append.mpr ⟨kept, List.forall_mem_singleton.mpr (unread p cause rfl)⟩, ?_⟩
    exact Cache.nodup_concat left.apart (Cache.read_eq_error.mp (unread_of_io ran).1).1

end Build

namespace Disk

/-- A path leads to the file at a location. -/
def Reaches (d : Disk) (p : Path) (at_ : Location) : Prop :=
  ∃ content, d.tree.follow d.cwd p = .ok (.at_ at_ (.file content))

/-- The answer of some look-up that starts from absolute directories and puts no separator after a
path. -/
def Resolved (d : Disk) (p : Path) : Prop :=
  ∃ (r : Resolver) (specifier : String) (base next : Path) (kind : ModuleKind),
    '/' ∉ r.extension.toList ∧ r.root.isAbsolute ∧ base.isAbsolute ∧
      r.resolve d specifier base = .ok (.file p next kind)

/-- The reads of a build: its entry and all its modules are read, and no file is read twice. -/
structure ReadsOnce (d : Disk) (path : Path) (built : Except BundleFault EntryScript × Context) :
    Prop where
  entry : ∃ p ∈ Build.reads built, p.same path
  modules : ∀ m ∈ built.2.graph.modules, ∃ p ∈ Build.reads built, p.same m.path
  apart : (Build.reads built).Pairwise fun p q => ¬ ∃ at_, d.Reaches p at_ ∧ d.Reaches q at_

variable {d : Disk} {p q : Path} {at_ : Location}

theorem Reaches.eq (h : d.Reaches p at_) (rooted : p.Rooted) :
    p = directoryPath at_ ∧ ∀ name ∈ at_, Path.IsName name := by
  obtain ⟨_, led⟩ := h
  exact FileTree.eq_of_follow_file rooted led

theorem Resolved.rooted (h : d.Resolved p) : p.Rooted := by
  obtain ⟨_, _, _, _, _, noSlash, root, start, found⟩ := h
  exact (Resolver.rooted_of_resolve noSlash root start found).1

theorem Resolved.reaches (h : d.Resolved p) : ∃ at_, d.Reaches p at_ := by
  obtain ⟨_, _, _, _, _, -, -, -, found⟩ := h
  exact file_of_isFile (Resolver.resolve_file_iff.mp found).1.isFile

theorem eq_of_reaches (hp : p.Rooted) (hq : q.Rooted) (atP : d.Reaches p at_)
    (atQ : d.Reaches q at_) : p = q :=
  (atP.eq hp).1.trans (atQ.eq hq).1.symm

/-- A build from paths from the root reads no file twice. -/
theorem readsOnce {plan : Plan} {path : Path} (noSlash : '/' ∉ plan.resolver.extension.toList)
    (root : plan.resolver.root.isAbsolute) (rooted : path.Rooted) :
    d.ReadsOnce path ((Build.entry plan d path).run.run .empty) where
  entry := Build.entry_mem_reads plan d path .empty
  modules := Build.module_mem_reads plan d path
  apart := by
    obtain ⟨fromRoot, apart⟩ := Build.reads_apart (d := d) noSlash root rooted
    refine (List.pairwise_map.mp apart).imp_of_mem fun {p q} memP memQ other => ?_
    rintro ⟨at_, atP, atQ⟩
    exact other (congrArg Path.components
      (eq_of_reaches (fromRoot p memP) (fromRoot q memQ) atP atQ))

/-- Every path that a look-up answers with is absolute and its own normal form. Two of them lead to one
file just when they are the same, whatever led to them. A get either adds the text of its file to those
that are kept or does not depend on the files; so a bundle is built without reading any file twice, one
that cannot be read included. -/
theorem resolved_canonical (d : Disk) :
    (∀ p, d.Resolved p → p.isAbsolute ∧ p.normalize = p) ∧
    (∀ p q, d.Resolved p → d.Resolved q → ((∃ at_, d.Reaches p at_ ∧ d.Reaches q at_) ↔ p = q)) ∧
    (∀ (c after : Cache) (p : Path) (text : String), c.read d p = .ok (text, after) →
      (after = c ∧ ∀ d', c.read d' p = .ok (text, c)) ∨
        (after = ⟨c.texts ++ [(p, text)]⟩ ∧ d.readText p = .ok text)) ∧
    ∀ (c : Config) (entry path root : Path), '/' ∉ c.extension.toList →
      Bundle.absolute d.cwd entry = .ok path → Bundle.rootOf d.cwd c path = .ok root →
      d.ReadsOnce path ((Build.entry (.ofConfig root c) d path).run.run .empty) := by
  refine ⟨fun p found => ?_, fun p q hp hq => ⟨?_, ?_⟩, fun c after p text => Cache.read_added, ?_⟩
  · obtain ⟨at_, led⟩ := found.reaches
    obtain ⟨rfl, named⟩ := led.eq found.rooted
    exact ⟨rfl, (Path.canonical_directoryPath named).normal⟩
  · rintro ⟨at_, atP, atQ⟩
    exact eq_of_reaches hp.rooted hq.rooted atP atQ
  · rintro rfl
    obtain ⟨at_, led⟩ := hp.reaches
    exact ⟨at_, led, led⟩
  · intro c entry path root noSlash start below
    have canonical := Bundle.canonical_of_absolute start
    have absolute : (Plan.ofConfig root c).resolver.root.isAbsolute :=
      root.isAbsolute_normalize.trans (Bundle.isAbsolute_of_rootOf canonical.absolute below)
    have slashless : '/' ∉ (Plan.ofConfig root c).resolver.extension.toList := noSlash
    exact readsOnce slashless absolute canonical.rooted

/-- A package is found by its name from one directory, and by a path to its main file from another. -/
theorem resolved_canonical_installed :
    Installed.disk.Resolved Installed.main ∧ Installed.main.normalize = Installed.main ∧
    (∃ at_, Installed.disk.Reaches Installed.main at_) ∧
    Installed.resolver.resolve Installed.disk "./..//node_modules/./pkg/lib/entry"
      (.ofString "/p/src") = .ok (.file Installed.main Installed.directory .project) ∧
    Installed.disk.ReadsOnce Installed.secret
      ((Build.entry (.ofConfig (.ofString "/p") .default_) Installed.disk Installed.secret).run.run
        .empty) := by
  have noSlash : '/' ∉ Installed.resolver.extension.toList := by decide +kernel
  have byName : Installed.resolver.resolve Installed.disk "pkg" (.ofString "/p") =
      .ok (.file Installed.main Installed.directory .package) := by decide +kernel
  have byPath : Installed.resolver.resolve Installed.disk "./..//node_modules/./pkg/lib/entry"
      (.ofString "/p/src") = .ok (.file Installed.main Installed.directory .project) := by
    decide +kernel
  have found : Installed.disk.Resolved Installed.main :=
    ⟨_, _, _, _, _, noSlash, by decide +kernel, by decide +kernel, byName⟩
  have again : Installed.disk.Resolved Installed.main :=
    ⟨_, _, _, _, _, noSlash, by decide +kernel, by decide +kernel, byPath⟩
  have start : Bundle.absolute Installed.disk.cwd Installed.secret = .ok Installed.secret := by
    decide +kernel
  have below : Bundle.rootOf Installed.disk.cwd .default_ Installed.secret = .ok (.ofString "/p") := by
    decide +kernel
  obtain ⟨canonical, unique, -, once⟩ := resolved_canonical Installed.disk
  obtain ⟨at_, leads, -⟩ := (unique _ _ found again).mpr rfl
  exact ⟨found, (canonical _ found).2, ⟨at_, leads⟩, byPath, once _ _ _ _ noSlash start below⟩

end Disk

end Bundler
