import Mathlib.Algebra.Order.Field.Basic
import Mathlib.Algebra.Order.Floor.Defs
import Mathlib.Algebra.Order.Archimedean.Basic
import Mathlib.Data.List.Pairwise
import Mathlib.Data.Set.Prod
import Mathlib.Order.CompletePartialOrder
import Mathlib.Order.Interval.Set.Basic
import Mathlib.Tactic.FieldSimp
import Mathlib.Tactic.Linarith

/-!
# Tilings of the unit square

* `Rect`: an axis-parallel rectangle, with its closed `region` and its open `interior`.
* `Tiles`: the rectangles of a list have pairwise disjoint interiors and cover the unit square.
* `cell c r i j`: the rectangle in column `i` of `c` and row `j` of `r`.
* **`tiles_of_cells`**: the cells of a grid, listed in any order, tile the unit square.
-/

set_option autoImplicit false

/-- A rectangle by its corner, width and height. -/
structure Rect (K : Type) where
  x : K
  y : K
  width : K
  height : K
  deriving DecidableEq, Repr

namespace Rect

variable {K : Type} [Field K] [LinearOrder K]

def region (r : Rect K) : Set (K × K) :=
  Set.Icc r.x (r.x + r.width) ×ˢ Set.Icc r.y (r.y + r.height)

def interior (r : Rect K) : Set (K × K) :=
  Set.Ioo r.x (r.x + r.width) ×ˢ Set.Ioo r.y (r.y + r.height)

/-- The unit square. -/
def unit : Rect K := ⟨0, 0, 1, 1⟩

/-- **A tiling** of the unit square. -/
structure Tiles (rs : List (Rect K)) : Prop where
  disjoint : rs.Pairwise fun r r' => Disjoint r.interior r'.interior
  cover : ∀ p, p ∈ (unit : Rect K).region ↔ ∃ r ∈ rs, p ∈ r.region

theorem Tiles.perm {rs rs' : List (Rect K)} (h : Tiles rs) (hp : rs.Perm rs') : Tiles rs' where
  disjoint := (hp.pairwise_iff fun hd => hd.symm).mp h.disjoint
  cover := fun p => by
    rw [h.cover]
    exact exists_congr fun r => and_congr_left fun _ => hp.mem_iff

/-- Column `i` of `c` and row `j` of `r`. -/
def cell (c r i j : ℕ) : Rect K := ⟨i / c, j / r, 1 / c, 1 / r⟩

/-! ## Equal parts of the unit interval -/

variable [IsStrictOrderedRing K]

theorem part_disjoint {n i j : ℕ} (hn : 0 < n) (hij : i ≠ j) :
    Disjoint (Set.Ioo (i / n : K) (i / n + 1 / n)) (Set.Ioo (j / n : K) (j / n + 1 / n)) := by
  have hn' : (0 : K) < n := Nat.cast_pos.mpr hn
  rw [Set.disjoint_left]
  rintro x ⟨h1, h2⟩ ⟨h3, h4⟩
  rw [← add_div] at h2 h4
  rw [div_lt_iff₀ hn'] at h1 h3
  rw [lt_div_iff₀ hn'] at h2 h4
  have h5 : (i : K) < j + 1 := h1.trans h4
  have h6 : (j : K) < i + 1 := h3.trans h2
  have h5' : i < j + 1 := by exact_mod_cast h5
  have h6' : j < i + 1 := by exact_mod_cast h6
  omega

theorem part_cover [Archimedean K] {n : ℕ} (hn : 0 < n) (x : K) :
    x ∈ Set.Icc (0 : K) 1 ↔ ∃ i < n, x ∈ Set.Icc (i / n : K) (i / n + 1 / n) := by
  have hn' : (0 : K) < n := Nat.cast_pos.mpr hn
  constructor
  · rintro ⟨h0, h1⟩
    rcases h1.lt_or_eq with h1 | rfl
    · obtain ⟨m, hm⟩ := exists_nat_gt (x * n)
      classical
      have hex : ∃ m : ℕ, x * n < m := ⟨m, hm⟩
      have hfind := Nat.find_spec hex
      have hpos : 0 < Nat.find hex := by
        rw [Nat.find_pos]
        simpa using mul_nonneg h0 hn'.le
      have hmin := Nat.find_min hex (Nat.sub_lt hpos Nat.one_pos)
      obtain ⟨i, hi⟩ : ∃ i, Nat.find hex = i + 1 := ⟨_, (Nat.succ_pred_eq_of_pos hpos).symm⟩
      rw [hi] at hfind hmin
      rw [Nat.add_sub_cancel, not_lt] at hmin
      push_cast at hfind
      refine ⟨i, ?_, ?_, ?_⟩
      · have : (i : K) < n := hmin.trans_lt (by nlinarith)
        exact_mod_cast this
      · rwa [div_le_iff₀ hn']
      · rw [← add_div, le_div_iff₀ hn']
        exact hfind.le
    · refine ⟨n - 1, Nat.sub_lt hn Nat.one_pos, ?_, ?_⟩
      · rw [div_le_one hn']
        exact_mod_cast Nat.sub_le n 1
      · rw [← add_div, one_le_div hn', Nat.cast_sub hn, Nat.cast_one, sub_add_cancel]
  · rintro ⟨i, hi, h1, h2⟩
    have hi' : ((i : K) + 1) ≤ n := by exact_mod_cast hi
    refine ⟨(div_nonneg (Nat.cast_nonneg i) hn'.le).trans h1, h2.trans ?_⟩
    rw [← add_div, div_le_one hn']
    exact hi'

/-! ## Cells -/

theorem cell_disjoint {c r i j i' j' : ℕ} (hc : 0 < c) (hr : 0 < r) (h : (i, j) ≠ (i', j')) :
    Disjoint (cell c r i j : Rect K).interior (cell c r i' j').interior := by
  rw [interior, interior, Set.disjoint_prod]
  by_cases hi : i = i'
  · subst hi
    exact Or.inr (part_disjoint hr fun hj => h (by rw [hj]))
  · exact Or.inl (part_disjoint hc hi)

theorem mem_unit_iff_cell [Archimedean K] {c r : ℕ} (hc : 0 < c) (hr : 0 < r) (p : K × K) :
    p ∈ (unit : Rect K).region ↔ ∃ i < c, ∃ j < r, p ∈ (cell c r i j : Rect K).region := by
  have hx := part_cover (K := K) hc p.1
  have hy := part_cover (K := K) hr p.2
  simp only [region, unit, cell, Set.mem_prod, zero_add, hx, hy]
  constructor
  · rintro ⟨⟨i, hi, h1⟩, j, hj, h2⟩
    exact ⟨i, hi, j, hj, h1, h2⟩
  · rintro ⟨i, hi, j, hj, h1, h2⟩
    exact ⟨⟨i, hi, h1⟩, j, hj, h2⟩

/-- **The cells of a grid**, named once each by the elements of `l`, tile the unit square. -/
theorem tiles_of_cells [Archimedean K] {α : Type} {c r : ℕ} (hc : 0 < c) (hr : 0 < r) (l : List α)
    (hl : l.Nodup) (col row : α → ℕ)
    (hinj : ∀ a ∈ l, ∀ b ∈ l, (col a, row a) = (col b, row b) → a = b)
    (hsurj : ∀ i j, (i < c ∧ j < r) ↔ ∃ a ∈ l, (col a, row a) = (i, j)) :
    Tiles (l.map fun a => (cell c r (col a) (row a) : Rect K)) where
  disjoint := by
    rw [List.pairwise_map]
    refine hl.imp_of_mem fun ha hb hab => cell_disjoint hc hr fun h => hab ?_
    exact hinj _ ha _ hb h
  cover := fun p => by
    rw [mem_unit_iff_cell hc hr]
    constructor
    · rintro ⟨i, hi, j, hj, hp⟩
      obtain ⟨a, ha, hij⟩ := (hsurj i j).mp ⟨hi, hj⟩
      obtain ⟨rfl, rfl⟩ := Prod.mk.inj hij
      exact ⟨_, List.mem_map_of_mem ha, hp⟩
    · rintro ⟨_, hm, hp⟩
      obtain ⟨a, ha, rfl⟩ := List.mem_map.mp hm
      obtain ⟨hi, hj⟩ := (hsurj (col a) (row a)).mpr ⟨a, ha, rfl⟩
      exact ⟨_, hi, _, hj, hp⟩

end Rect
