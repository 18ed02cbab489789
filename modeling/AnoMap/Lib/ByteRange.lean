import Mathlib.Data.Finset.Card
import Mathlib.Data.Finset.Image
import Mathlib.Data.Finset.Range

/-!
# Initial ranges of byte values

`upTo M` is the set of the bytes `0 … M`. A set of bytes inside it that has as many members is the
whole of it.
-/

set_option autoImplicit false

namespace ByteRange

/-- The bytes `0 … M`. -/
def upTo (M : UInt8) : Finset UInt8 := (Finset.range (M.toNat + 1)).image UInt8.ofNat

theorem toNat_ofNat_of_le {M : UInt8} {k : ℕ} (h : k ≤ M.toNat) : (UInt8.ofNat k).toNat = k := by
  have hM := M.toNat_lt
  exact UInt8.toNat_ofNat_of_lt' (show k < 256 by omega)

theorem mem_upTo {M i : UInt8} : i ∈ upTo M ↔ i ≤ M := by
  simp only [upTo, Finset.mem_image, Finset.mem_range]
  constructor
  · rintro ⟨k, hk, rfl⟩
    have hk' : k ≤ M.toNat := Nat.lt_succ_iff.mp hk
    rw [UInt8.le_iff_toNat_le, toNat_ofNat_of_le hk']
    exact hk'
  · intro h
    exact ⟨i.toNat, Nat.lt_succ_of_le (UInt8.le_iff_toNat_le.mp h), UInt8.ofNat_toNat⟩

theorem card_upTo (M : UInt8) : (upTo M).card = M.toNat + 1 := by
  rw [upTo, Finset.card_image_of_injOn, Finset.card_range]
  intro a ha b hb h
  have ha' : a ≤ M.toNat := by simpa [Nat.lt_succ_iff] using ha
  have hb' : b ≤ M.toNat := by simpa [Nat.lt_succ_iff] using hb
  rw [← toNat_ofNat_of_le ha', ← toNat_ofNat_of_le hb', h]

theorem eq_upTo {s : Finset UInt8} {M : UInt8} (hs : ∀ i ∈ s, i ≤ M) (hc : s.card = M.toNat + 1) :
    s = upTo M :=
  Finset.eq_of_subset_of_card_le (fun i hi => mem_upTo.mpr (hs i hi)) (by rw [card_upTo, hc])

theorem card_le {s : Finset UInt8} {M : UInt8} (hs : ∀ i ∈ s, i ≤ M) : s.card ≤ M.toNat + 1 := by
  rw [← card_upTo]
  exact Finset.card_le_card fun i hi => mem_upTo.mpr (hs i hi)

end ByteRange
