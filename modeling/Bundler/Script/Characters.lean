/-! The characters of a text, in time in proportion to it. A text that is taken apart character by
character is walked through again for each of them, and its bytes are not. -/

namespace Bundler.Script

@[irreducible]
def characters (text : String) : List Char :=
  let bytes := text.toByteArray.data.toList
  if bytes.all (· < 0x80) then bytes.map Char.ofUInt8 else text.toList

theorem utf8_cases (c : Char) : (∃ b, String.utf8EncodeChar c = [b] ∧ Char.ofUInt8 b = c) ∨
    ∃ b ∈ String.utf8EncodeChar c, ¬ b < 0x80 := by
  have large {n : Nat} (above : 128 ≤ n) (below : n < 256) : ¬ UInt8.ofNat n < 0x80 := by
    rw [UInt8.lt_iff_toNat_lt, UInt8.toNat_ofNat']
    change ¬ n % 256 < 128
    omega
  unfold String.utf8EncodeChar
  dsimp only
  split
  · rename_i ascii
    refine .inl ⟨_, rfl, Char.ext (UInt32.toNat.inj ?_)⟩
    change (UInt8.ofNat c.val.toNat).toUInt32.toNat = c.val.toNat
    rw [UInt8.toNat_toUInt32, UInt8.toNat_ofNat']
    omega
  · refine .inr ?_
    split
    · exact ⟨_, List.mem_cons_self, large (by omega) (by omega)⟩
    · split <;> exact ⟨_, List.mem_cons_self, large (by omega) (by omega)⟩

theorem map_utf8 {cs : List Char} (small : ∀ b ∈ cs.flatMap String.utf8EncodeChar, b < 0x80) :
    (cs.flatMap String.utf8EncodeChar).map Char.ofUInt8 = cs := by
  induction cs with
  | nil => rfl
  | cons c cs ih =>
    rw [List.flatMap_cons] at small ⊢
    rw [List.forall_mem_append] at small
    rcases utf8_cases c with ⟨b, single, same⟩ | ⟨b, mem, large⟩
    · rw [List.map_append, ih small.2, single, List.map_singleton, same, List.singleton_append]
    · exact (large (small.1 b mem)).elim

theorem characters_eq (text : String) : characters text = text.toList := by
  unfold characters
  dsimp only
  split
  · rename_i small
    obtain ⟨cs, rfl⟩ : ∃ cs, String.ofList cs = text := ⟨text.toList, String.ofList_toList⟩
    have bytes : (String.ofList cs).toByteArray.data.toList = cs.flatMap String.utf8EncodeChar := by
      simp [String.ofList, List.utf8Encode]
    rw [bytes] at small ⊢
    rw [String.toList_ofList]
    exact map_utf8 fun b mem => of_decide_eq_true (List.all_eq_true.mp small b mem)
  · rfl

end Bundler.Script
