import Bundler.Proofs.Script.Name
import Mathlib.Tactic.TFAE

/-! What modules are known by. A digest always has sixty-four digits, so its first digits are there to
be shown and a binding is one name of a script. Nothing is lost on the way from a digest to a binding,
and so two texts are told apart by all of these or by none. -/

namespace Bundler

open Script

/-- A text that may stand where a script names a variable. -/
structure IsIdentifier (name : String) : Prop where
  spelled : ∃ first rest, name.toList = first :: rest ∧ startsName first = true ∧
    ∀ c ∈ rest, continuesName c = true
  unreserved : isReserved name = false
  /-- it is read as one name, without an escape, up to a blank -/
  read : ∀ more, Token.read (name.toList ++ ' ' :: more) = some (.name name false, ' ' :: more)

theorem utf8ByteSize_ofList {cs : List Char} (single : ∀ c ∈ cs, c.utf8Size = 1) :
    (String.ofList cs).utf8ByteSize = cs.length := by
  induction cs with
  | nil => rfl
  | cons c cs ih =>
    obtain ⟨own, others⟩ := List.forall_mem_cons.mp single
    have one : (String.ofList [c]).utf8ByteSize = 1 := by
      rw [← String.singleton_eq_ofList, String.utf8ByteSize_singleton, own]
    rw [← List.singleton_append, String.ofList_append, String.utf8ByteSize_append, one, ih others,
      List.length_append, List.length_singleton]

namespace ContentId

/-- The digits of a digest, and the names that are made of them. -/
structure Named (id : ContentId) : Prop where
  length : id.hex.length = 64
  digits : ∀ c ∈ id.hex.toList, c ∈ "0123456789abcdef".toList
  /-- the first eight bytes are there, and the text is not cut inside a character -/
  short : ∃ rest, id.hex = id.short ++ rest ∧ id.short.utf8ByteSize = 8
  binding : IsIdentifier id.binding

theorem short_append (id : ContentId) :
    id.hex = id.short ++ String.ofList (id.hexChars.drop 8) := by
  rw [hex, short, ← String.ofList_append, List.take_append_drop]

theorem utf8ByteSize_short (id : ContentId) : id.short.utf8ByteSize = 8 := by
  have digits : "0123456789abcdef".toList.all (·.utf8Size == 1) = true := by decide
  have single : ∀ c ∈ id.hexChars.take 8, c.utf8Size = 1 := fun c mem =>
    beq_iff_eq.mp (List.all_eq_true.mp digits c (id.hexChars_digits c (List.mem_of_mem_take mem)))
  rw [short, utf8ByteSize_ofList single, List.length_take, id.length_hexChars]
  rfl

theorem binding_isIdentifier (id : ContentId) : IsIdentifier id.binding := by
  obtain ⟨tail, spelled, continues⟩ := id.binding_spelled
  exact ⟨⟨'r', tail, spelled, by decide +kernel, continues⟩, id.binding_unreserved, id.read_binding⟩

theorem named (id : ContentId) : Named id := by
  refine ⟨?_, ?_, ⟨_, id.short_append, id.utf8ByteSize_short⟩, id.binding_isIdentifier⟩
  · rw [hex, String.length_ofList, id.length_hexChars]
  · rw [hex, String.toList_ofList]
    exact id.hexChars_digits

theorem hex_injective : Function.Injective hex := fun _ _ same =>
  hexChars_injective (String.ofList_injective same)

/-- Every text has an id of sixty-four digits and a binding that is a name. Different digests have
different digits, and texts have the same id, digits, binding and digest, or differ in each. -/
theorem texts_named : (∀ text, Named (ofText text)) ∧ Function.Injective hex ∧
    ∀ s t, List.TFAE [ofText s = ofText t, (ofText s).hex = (ofText t).hex,
      (ofText s).binding = (ofText t).binding, Digest.ofText s = Digest.ofText t] := by
  refine ⟨fun text => named _, hex_injective, fun s t => ?_⟩
  tfae_have 1 → 2 := congrArg hex
  tfae_have 2 → 3 := congrArg ("require_" ++ ·)
  tfae_have 3 → 4 := fun same => congrArg digest (binding_injective same)
  tfae_have 4 → 1 := congrArg mk
  tfae_finish

end ContentId

end Bundler
