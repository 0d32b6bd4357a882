/-
# Whole numbers in words

Documents and command lines hold whole numbers of any size. Words of 32 and 64 bits hold
some of them; a number that does not fit is refused, it does not wrap around.
-/

namespace ControlPlane

/-- Whether a whole number fits a signed 64-bit word. -/
def FitsInt64 (value : Int) : Prop :=
  -0x8000000000000000 ≤ value ∧ value < 0x8000000000000000

instance (value : Int) : Decidable (FitsInt64 value) :=
  inferInstanceAs (Decidable (_ ∧ _))

/-- A whole number as an unsigned 64-bit word. -/
def uint64OfInt? (value : Int) : Option UInt64 :=
  if 0 ≤ value ∧ value < UInt64.size then some (UInt64.ofNat value.toNat) else none

/-- A whole number as a signed 32-bit word. -/
def int32OfInt? (value : Int) : Option Int32 :=
  if -0x80000000 ≤ value ∧ value < 0x80000000 then some (Int32.ofInt value) else none

/-- The word that is made of a number stands for that number. -/
theorem toNat_of_uint64OfInt? {value : Int} {word : UInt64}
    (h : uint64OfInt? value = some word) : (word.toNat : Int) = value := by
  unfold uint64OfInt? at h
  split at h
  · next hfits =>
    obtain ⟨hnonneg, hlt⟩ := hfits
    have hsmall : value.toNat < 0x10000000000000000 := by
      simp only [UInt64.size] at hlt
      omega
    rw [← Option.some.inj h, UInt64.toNat_ofNat', Nat.mod_eq_of_lt hsmall]
    omega
  · simp at h

theorem toInt_of_int32OfInt? {value : Int} {word : Int32}
    (h : int32OfInt? value = some word) : word.toInt = value := by
  unfold int32OfInt? at h
  split at h
  · next hfits =>
    rw [← Option.some.inj h]
    exact Int32.toInt_ofInt_of_le hfits.1 hfits.2
  · simp at h

end ControlPlane
