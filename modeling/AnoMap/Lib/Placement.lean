import AnoMap.Lib.Tiling
import Mathlib.Tactic.Positivity
import Mathlib.Tactic.Ring

/-!
# Pictures placed in rectangles

A picture, which is the unit square, is stretched over a rectangle.

* `place r q`: where the point `q` of the picture stands.
* `within r s`: where the part `s` of the picture stands; `within_assoc`: pictures in pictures.
* **`place_mem_region_iff`**, **`place_mem_interior_iff`**: a point stands in a part exactly when it
  is one of that part.
* `place_injective`, `place_surjective`: every point of the plane shows one point of the picture.
-/

set_option autoImplicit false

namespace Rect

variable {K : Type} [Field K]

def place (r : Rect K) (q : K × K) : K × K := (r.x + q.1 * r.width, r.y + q.2 * r.height)

def within (r s : Rect K) : Rect K :=
  ⟨r.x + s.x * r.width, r.y + s.y * r.height, s.width * r.width, s.height * r.height⟩

theorem within_assoc (r s t : Rect K) : r.within (s.within t) = (r.within s).within t := by
  unfold within
  rw [Rect.mk.injEq]
  refine ⟨?_, ?_, ?_, ?_⟩ <;> ring

theorem place_within (r s : Rect K) (q : K × K) : (r.within s).place q = r.place (s.place q) := by
  unfold within place
  apply Prod.ext <;> ring

variable [LinearOrder K]

/-- The rectangle is not flat. -/
structure HasArea (r : Rect K) : Prop where
  width : 0 < r.width
  height : 0 < r.height

theorem place_surjective {r : Rect K} (hr : r.HasArea) : Function.Surjective r.place := by
  intro p
  refine ⟨((p.1 - r.x) / r.width, (p.2 - r.y) / r.height), ?_⟩
  unfold place
  rw [div_mul_cancel₀ _ hr.width.ne', div_mul_cancel₀ _ hr.height.ne', add_sub_cancel,
    add_sub_cancel]

variable [IsStrictOrderedRing K]

theorem HasArea.within {r s : Rect K} (hr : r.HasArea) (hs : s.HasArea) : (r.within s).HasArea :=
  ⟨mul_pos hs.width hr.width, mul_pos hs.height hr.height⟩

theorem place_mem_region_iff {r : Rect K} (hr : r.HasArea) (s : Rect K) (q : K × K) :
    r.place q ∈ (r.within s).region ↔ q ∈ s.region := by
  have hw := hr.width
  have hh := hr.height
  simp only [place, Rect.within, region, Set.mem_prod, Set.mem_Icc, add_assoc, ← add_mul,
    add_le_add_iff_left, mul_le_mul_iff_left₀ hw, mul_le_mul_iff_left₀ hh]

theorem place_mem_interior_iff {r : Rect K} (hr : r.HasArea) (s : Rect K) (q : K × K) :
    r.place q ∈ (r.within s).interior ↔ q ∈ s.interior := by
  have hw := hr.width
  have hh := hr.height
  simp only [place, Rect.within, interior, Set.mem_prod, Set.mem_Ioo, add_assoc, ← add_mul,
    add_lt_add_iff_left, mul_lt_mul_iff_left₀ hw, mul_lt_mul_iff_left₀ hh]

theorem place_injective {r : Rect K} (hr : r.HasArea) : Function.Injective r.place := by
  intro q q' h
  obtain ⟨h₁, h₂⟩ := Prod.mk.inj h
  apply Prod.ext
  · exact mul_right_cancel₀ hr.width.ne' (add_left_cancel h₁)
  · exact mul_right_cancel₀ hr.height.ne' (add_left_cancel h₂)

theorem existsUnique_place {r : Rect K} (hr : r.HasArea) {s : Rect K} {p : K × K}
    (hp : p ∈ (r.within s).region) : ∃! q, r.place q = p ∧ q ∈ s.region := by
  obtain ⟨q, rfl⟩ := place_surjective hr p
  refine ⟨q, ⟨rfl, (place_mem_region_iff hr s q).mp hp⟩, ?_⟩
  rintro q' ⟨hq, -⟩
  exact place_injective hr hq

theorem hasArea_cell {c r : ℕ} (hc : 0 < c) (hr : 0 < r) (i j : ℕ) :
    (cell c r i j : Rect K).HasArea := by
  constructor
  · exact div_pos one_pos (Nat.cast_pos.mpr hc)
  · exact div_pos one_pos (Nat.cast_pos.mpr hr)

theorem hasArea_unit : (unit : Rect K).HasArea := ⟨one_pos, one_pos⟩

end Rect
