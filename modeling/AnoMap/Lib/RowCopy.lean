import Mathlib.Data.Nat.Notation
import Mathlib.Tactic.SplitIfs

/-!
# Copying rows

A memory is a function on addresses. Rows of one width are copied from a source, where they may be
further apart, to a destination where one follows the other.

* `copy`, `copyRows`: one run of cells, and the rows one after the other.
* `copyRows_apply`: what the rows leave at each address.
* `copyRows_contiguous`: rows that follow one another at the source are one run of cells.
* `RowsCopied`, **`rowsCopied_iff`**: the rows equal those of the source, and nothing behind them
  changes, if and only if the memory is what `copyRows` leaves.
-/

set_option autoImplicit false

namespace RowCopy

variable {α : Type}

/-- `n` cells from `s` on in `src` are written from `d` on in `dst`. -/
def copy (dst : ℕ → α) (d : ℕ) (src : ℕ → α) (s n : ℕ) : ℕ → α := fun k =>
  if d ≤ k ∧ k < d + n then src (s + (k - d)) else dst k

/-- The first rows of width `w`, which are `stride` apart at the source. -/
def copyRows (dst src : ℕ → α) (w stride : ℕ) : ℕ → ℕ → α
  | 0 => dst
  | rows + 1 => copy (copyRows dst src w stride rows) (rows * w) src (rows * stride) w

theorem row_of_lt (i : ℕ) {j w : ℕ} (hj : j < w) : (i * w + j) / w = i ∧ (i * w + j) % w = j := by
  rw [Nat.add_comm]
  constructor
  · rw [Nat.add_mul_div_right _ _ (Nat.zero_lt_of_lt hj), Nat.div_eq_of_lt hj, Nat.zero_add]
  · rw [Nat.add_mul_mod_self_right, Nat.mod_eq_of_lt hj]

theorem copyRows_apply (dst src : ℕ → α) {w : ℕ} (hw : 0 < w) (stride rows k : ℕ) :
    copyRows dst src w stride rows k =
      if k < rows * w then src (k / w * stride + k % w) else dst k := by
  induction rows with
  | zero => rw [Nat.zero_mul, if_neg (Nat.not_lt_zero k), copyRows]
  | succ rows ih =>
    rw [copyRows, copy, ih, Nat.succ_mul]
    by_cases hrow : rows * w ≤ k ∧ k < rows * w + w
    · -- the address is in the last row
      obtain ⟨hle, hlt⟩ := hrow
      obtain ⟨j, rfl⟩ := Nat.exists_eq_add_of_le hle
      have hj : j < w := by omega
      obtain ⟨hdiv, hmod⟩ := row_of_lt rows hj
      rw [if_pos ⟨hle, hlt⟩, if_pos hlt, hdiv, hmod, Nat.add_sub_cancel_left]
    · rw [if_neg hrow]
      by_cases hk : k < rows * w
      · rw [if_pos hk, if_pos (by omega)]
      · rw [if_neg hk, if_neg (by omega)]

/-- **Rows that follow one another** are one run of cells. -/
theorem copyRows_contiguous (dst src : ℕ → α) {w : ℕ} (hw : 0 < w) (rows : ℕ) :
    copyRows dst src w w rows = copy dst 0 src 0 (rows * w) := by
  funext k
  rw [copyRows_apply dst src hw, copy, Nat.div_add_mod', Nat.zero_add, Nat.zero_add, Nat.sub_zero]
  simp only [Nat.zero_le, true_and]

/-- The rows of `dst'` equal those of the source, and behind them it is as `dst`. -/
structure RowsCopied (dst src : ℕ → α) (w stride rows : ℕ) (dst' : ℕ → α) : Prop where
  copied : ∀ i < rows, ∀ j < w, dst' (i * w + j) = src (i * stride + j)
  beyond : ∀ k, rows * w ≤ k → dst' k = dst k

theorem rowsCopied_iff (dst src : ℕ → α) {w : ℕ} (hw : 0 < w) (stride rows : ℕ) (dst' : ℕ → α) :
    RowsCopied dst src w stride rows dst' ↔ dst' = copyRows dst src w stride rows := by
  constructor
  · intro h
    funext k
    rw [copyRows_apply dst src hw]
    split_ifs with hk
    · have hrow := h.copied (k / w) ((Nat.div_lt_iff_lt_mul hw).mpr hk) (k % w) (Nat.mod_lt k hw)
      rwa [Nat.div_add_mod'] at hrow
    · exact h.beyond k (Nat.le_of_not_lt hk)
  · rintro rfl
    refine ⟨fun i hi j hj => ?_, fun k hk => ?_⟩
    · have hlt : i * w + j < rows * w := by
        have hle := Nat.mul_le_mul_right w (Nat.succ_le_of_lt hi)
        rw [Nat.succ_mul] at hle
        omega
      obtain ⟨hdiv, hmod⟩ := row_of_lt i hj
      rw [copyRows_apply dst src hw, if_pos hlt, hdiv, hmod]
    · rw [copyRows_apply dst src hw, if_neg (Nat.not_lt.mpr hk)]

end RowCopy
