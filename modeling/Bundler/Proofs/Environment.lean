import Bundler.Proofs.Assembly
import Bundler.Proofs.Made

/-! The environment that a bundle tells its program. Whatever text it is, it stands as one string on
one line, is read as it was given, and is the text that the guards of the program were decided for. -/

namespace Bundler

namespace Emit

open Script Script.Parser Script.Grammar

/-- A text is one string in double quotes with a value, and is read so whatever follows it. -/
structure Literal (text value : String) : Prop where
  spelled : ∃ inside, text.toList = '"' :: (inside ++ ['"']) ∧ Token.Inside inside value.toList
  oneLine : ∀ c ∈ text.toList, c ≠ '\n' ∧ c ≠ '\r'
  read : ∀ more, ∃ raw, Token.read (text.toList ++ more) = some (.string value raw false, more)

theorem literal_quote (value : String) : Literal (Json.quote value) value := by
  have inside := Token.inside_quoted value.toList
  have quoted : (Json.quote value).toList = '"' :: (value.toList.flatMap Json.quoteChar ++ ['"']) :=
    String.toList_ofList
  refine ⟨⟨_, quoted, inside⟩, ?_, fun more => ⟨_, Token.read_quote value more⟩⟩
  rw [quoted, List.forall_mem_cons, List.forall_mem_append, List.forall_mem_singleton]
  exact ⟨by decide, inside.oneLine, by decide⟩

theorem processShim_oneLine (env : String) : ∀ c ∈ (processShim env).toList, c ≠ '\n' ∧ c ≠ '\r' := by
  unfold processShim
  simp only [String.toList_append, List.forall_mem_append]
  exact ⟨⟨by simp, (literal_quote env).oneLine⟩, by simp⟩

theorem parse_processShim (env : String) : Script.parse true (processShim env ++ "\n") =
    .ok (.of (.program none []) [shimDeclaration env]) := by
  have stands := stands_processShim env
  have whole : (processShim env ++ "\n").toList = (processShim env).toList ++ ['\n'] :=
    String.toList_append
  obtain ⟨text, spelled⟩ : ∃ text, (processShim env).toList ++ ['\n'] =
      "var".toList ++ (" process".toList ++ text) := ⟨_, processShim_toList env ['\n']⟩
  generalize (processShim env).toList = shim at stands whole spelled
  have ends : Cursor.start [] = .ok ⟨[], [], .ending, true, []⟩ := rfl
  have room : depthFor shim.length ≤ depthFor (shim ++ ['\n']).length := by
    simp only [depthFor, goalsPerChar, List.length_append, List.length_singleton]
    omega
  obtain ⟨c, starts, -, reads⟩ := stands.reads ends room
  have first : c = .onWord "var" (" process".toList ++ text) true := by
    rw [spelled, start_var] at starts
    exact (Except.ok.inj starts).symm
  have unhashed : splitHashbang (shim ++ ['\n']) = (none, shim ++ ['\n']) := by
    rw [spelled]
    rfl
  have program := Wrapper.reads_program (by simp [first, Cursor.onWord]) (by simp [first, Cursor.onWord])
    reads (asDirective_of_form nofun) rfl
  rw [Script.parse_eq, whole]
  refine Wrapper.parseChars_of_reads unhashed starts program ?_
  rw [Node.isUnfinished_of, List.any_cons, stands.finished]
  rfl

/-- A line is one declaration, of a `process` whose environment is a text. -/
structure Tells (line env : String) : Prop where
  spelled : ∃ literal, line = "var process = \x7b env: \x7b NODE_ENV: " ++ literal ++ " \x7d \x7d;" ∧
    Literal literal env
  oneLine : ∀ c ∈ line.toList, c ≠ '\n' ∧ c ≠ '\r'
  declares : Script.parse true (line ++ "\n") = .ok (.of (.program none []) [shimDeclaration env])

theorem tells_processShim (env : String) : Tells (processShim env) env :=
  ⟨⟨_, rfl, literal_quote env⟩, processShim_oneLine env, parse_processShim env⟩

theorem enclosed_opens (script : EntryScript) (graph : Graph) (env : String) : ∃ later,
    enclosed (body script graph (some env)) =
      "(function () \x7b\n" ++ processShim env ++ "\n" ++ later := by
  unfold enclosed body
  simp only [String.append_assoc]
  exact ⟨_, rfl⟩

end Emit

namespace Bundle

open Emit

/-- Whatever the environment is, it is told in one line that is read as one declaration with just this
text. A bundle that tells one has that line first in its function, and the environment is the one that
the entry and its modules were settled in. -/
theorem shim_tells_environment : (∀ env, Tells (processShim env) env) ∧
    ∀ d c entry shorten bundle warnings, c.processShim = true → c.minify = false →
      make d c entry shorten = (.ok bundle, warnings) → ∃ path root script context later,
        Made shorten d c entry bundle path root script context ∧
        bundle.code = hashbangLine script.hashbang ++
          ("(function () \x7b\n" ++ processShim (Plan.ofConfig root c).env ++ "\n" ++ later) := by
  refine ⟨tells_processShim, fun d c entry shorten bundle warnings tells long ran => ?_⟩
  obtain ⟨path, root, script, context, made⟩ := made_of_make ran
  obtain ⟨later, opens⟩ := enclosed_opens script context.graph c.env
  have code := made.code_eq long
  rw [if_pos tells, opens] at code
  exact ⟨path, root, script, context, later, made, code⟩

namespace Loop

def config : Config :=
  { Config.default_ with env := "\"a\\b\n", processShim := true }

set_option maxRecDepth 100000 in
theorem isAlone_make_config : isAlone (make disk config entry) = true := by
  decide +kernel

end Loop

theorem shim_tells_environment_quoted : Tells (processShim Loop.config.env) "\"a\\b\n" ∧
    ∃ bundle warnings hashbang later,
      make Loop.disk Loop.config Loop.entry = (.ok bundle, warnings) ∧
      bundle.code = hashbangLine hashbang ++ ("(function () \x7b\n" ++
        "var process = \x7b env: \x7b NODE_ENV: \"\\\"a\\\\b\\n\" \x7d \x7d;" ++ "\n" ++ later) := by
  have line : processShim Loop.config.env =
      "var process = \x7b env: \x7b NODE_ENV: \"\\\"a\\\\b\\n\" \x7d \x7d;" := by decide +kernel
  obtain ⟨bundle, warnings, ran, -⟩ := Loop.alone_of_isAlone Loop.isAlone_make_config
  obtain ⟨_, _, script, _, later, -, code⟩ :=
    shim_tells_environment.2 Loop.disk Loop.config Loop.entry _ bundle warnings rfl rfl ran
  rw [← line]
  exact ⟨shim_tells_environment.1 _, bundle, warnings, script.hashbang, later, ran, code⟩

end Bundle

end Bundler
