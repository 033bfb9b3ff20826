import Bundler.Digest

/-! Bindings tell modules apart. The digits of a digest can be read back, so two modules with the
same binding have the same digest. -/

namespace Bundler

theorem digitChar_injective {a b : Nat} (ha : a < 16) (hb : b < 16)
    (h : Nat.digitChar a = Nat.digitChar b) : a = b := by
  have all : ∀ a < 16, ∀ b < 16, Nat.digitChar a = Nat.digitChar b → a = b := by decide
  exact all a ha b hb h

theorem hexDigits_append_injective {a b : UInt8} {rest rest' : List Char}
    (h : hexDigits a ++ rest = hexDigits b ++ rest') : a = b ∧ rest = rest' := by
  have boundA := a.toNat_lt
  have boundB := b.toNat_lt
  simp only [hexDigits, List.cons_append, List.nil_append, List.cons.injEq] at h
  obtain ⟨high, low, later⟩ := h
  have sameHigh := digitChar_injective (by omega) (by omega) high
  have sameLow := digitChar_injective (by omega) (by omega) low
  exact ⟨UInt8.toNat_inj.mp (by omega), later⟩

theorem length_flatMap_hexDigits (l : List UInt8) : (l.flatMap hexDigits).length = 2 * l.length := by
  induction l with
  | nil => rfl
  | cons b rest ih =>
    have two : (hexDigits b).length = 2 := rfl
    rw [List.flatMap_cons, List.length_append, two, ih, List.length_cons]
    omega

theorem flatMap_hexDigits_injective {l l' : List UInt8}
    (h : l.flatMap hexDigits = l'.flatMap hexDigits) : l = l' := by
  induction l generalizing l' with
  | nil =>
    cases l' with
    | nil => rfl
    | cons b rest' => cases h
  | cons a rest ih =>
    cases l' with
    | nil => cases h
    | cons b rest' =>
      rw [List.flatMap_cons, List.flatMap_cons] at h
      obtain ⟨same, later⟩ := hexDigits_append_injective h
      rw [same, ih later]

namespace ContentId

theorem length_hexChars (id : ContentId) : id.hexChars.length = 64 := by
  rw [hexChars, length_flatMap_hexDigits, Vector.length_toList]

theorem hexChars_digits (id : ContentId) : ∀ c ∈ id.hexChars, c ∈ "0123456789abcdef".toList := by
  intro c mem
  obtain ⟨b, -, mem⟩ := List.mem_flatMap.mp mem
  have digits : ∀ n < 16, Nat.digitChar n ∈ "0123456789abcdef".toList := by decide
  have bound := b.toNat_lt
  simp only [hexDigits, List.mem_cons, List.not_mem_nil, or_false] at mem
  rcases mem with rfl | rfl
  · exact digits _ (by omega)
  · exact digits _ (by omega)

theorem hexChars_injective {a b : ContentId} (h : a.hexChars = b.hexChars) : a = b := by
  obtain ⟨digest⟩ := a
  obtain ⟨digest'⟩ := b
  exact congrArg mk (Vector.toList_inj.mp (flatMap_hexDigits_injective h))

theorem binding_injective {a b : ContentId} (h : a.binding = b.binding) : a = b := by
  have digits := congrArg String.toList h
  rw [binding, binding, String.toList_append, String.toList_append, List.append_cancel_left_eq,
    hex, hex, String.toList_ofList, String.toList_ofList] at digits
  exact hexChars_injective digits

end ContentId

end Bundler
