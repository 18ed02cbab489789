import AnoMap.Models.CameraModel
import Mathlib.Data.List.Perm.Basic
import Mathlib.Data.Rat.Floor
import Mathlib.Tactic.NormNum

/-!
# The layout behind the rows

What the rows of the camera model show, without their order and their slot ids: every camera either
whole or split into the tiles of one group.

* `Layout`: how one camera is shown; a split carries the proof that its tile count is allowed.
* `WellLaid`: no camera and no split group occurs twice.
* `Tile`, `tile`: what a row says about the layout.
* **`tiles_cropRects`**: the crop rectangles of a split tile the unit square.
-/

set_option autoImplicit false

namespace AnoMap

namespace Models

open Domain

/-- How a camera is shown. -/
inductive Layout where
  | whole
  | split (splitGroupId tileCount : ℤ) (direction : SplitDirection)
      (valid : CameraModel.ValidCount tileCount direction)

/-- The group of a split camera. -/
def Layout.group : Layout → Option ℤ
  | whole => none
  | split splitGroupId _ _ _ => some splitGroupId

/-- What a row says about the layout; the direction of a whole camera means nothing. -/
structure Tile where
  cameraId : String
  splitCount : ℤ
  direction : SplitDirection
  splitGroupId : ℤ
  splitIndex : ℤ
  cropRect : Rect ℚ
  deriving DecidableEq, Repr

def tile (cam : CameraEntry) : Tile where
  cameraId := cam.cameraId
  splitCount := cam.splitCount
  direction := if cam.splitCount = 1 then .none else cam.splitDirection
  splitGroupId := cam.splitGroupId
  splitIndex := cam.splitIndex
  cropRect := cam.cropRect

/-- The `i`-th tile of a split camera. -/
def splitTile (cameraId : String) (splitGroupId tileCount : ℤ) (direction : SplitDirection)
    (i : ℕ) : Tile :=
  ⟨cameraId, tileCount, direction, splitGroupId, i,
    CameraModel.computeCropRect i tileCount direction⟩

/-- The tile of a whole camera. -/
def wholeTile (cameraId : String) : Tile := ⟨cameraId, 1, .none, -1, 0, .unit⟩

/-- The tiles of a camera. -/
def Layout.tiles (cameraId : String) : Layout → List Tile
  | whole => [wholeTile cameraId]
  | split splitGroupId tileCount direction _ =>
    (List.range tileCount.toNat).map (splitTile cameraId splitGroupId tileCount direction)

/-- The tiles of all cameras. -/
def allTiles (l : List (String × Layout)) : List Tile := l.flatMap fun e => e.2.tiles e.1

/-- **Well laid**: no camera and no split group occurs twice, and groups are numbered from 1. -/
structure WellLaid (l : List (String × Layout)) : Prop where
  cameras : (l.map Prod.fst).Nodup
  groups : (l.filterMap fun e => e.2.group).Nodup
  pos : ∀ e ∈ l, ∀ g ∈ e.2.group, 1 ≤ g

/-! ## Tiles -/

theorem cameraId_of_mem_tiles {cid : String} {ly : Layout} {t : Tile} (h : t ∈ ly.tiles cid) :
    t.cameraId = cid := by
  cases ly with
  | whole => rw [List.mem_singleton.mp h]; rfl
  | split g n d hv =>
    obtain ⟨i, _, rfl⟩ := List.mem_map.mp h
    rfl

theorem two_le_of_validCount {n : ℤ} {d : SplitDirection} (h : CameraModel.ValidCount n d) :
    2 ≤ n := by
  cases d <;> simp only [CameraModel.ValidCount] at h <;> omega

theorem splitCount_of_mem_tiles {cid : String} {ly : Layout} {t : Tile} (h : t ∈ ly.tiles cid) :
    t.splitCount = 1 ∧ ly = .whole ∧ t = wholeTile cid ∨
      2 ≤ t.splitCount ∧ ly.group = some t.splitGroupId := by
  cases ly with
  | whole =>
    rw [List.mem_singleton.mp h]
    exact Or.inl ⟨rfl, rfl, rfl⟩
  | split g n d hv =>
    obtain ⟨i, _, rfl⟩ := List.mem_map.mp h
    exact Or.inr ⟨two_le_of_validCount hv, rfl⟩

theorem group_of_mem_tiles {cid : String} {ly : Layout} {t : Tile} {g : ℤ} (hg : 1 ≤ g)
    (h : t ∈ ly.tiles cid) : t.splitGroupId = g ↔ ly.group = some g := by
  rcases splitCount_of_mem_tiles h with ⟨_, rfl, rfl⟩ | ⟨_, hgr⟩
  · constructor
    · intro hc
      have : (-1 : ℤ) = g := hc
      omega
    · nofun
  · rw [hgr, Option.some.injEq]

theorem tiles_ne_nil (cid : String) (ly : Layout) : ly.tiles cid ≠ [] := by
  cases ly with
  | whole => exact List.cons_ne_nil _ _
  | split g n d hv =>
    have := two_le_of_validCount hv
    intro h
    have hlen := congrArg List.length h
    simp only [Layout.tiles, List.length_map, List.length_range, List.length_nil] at hlen
    omega

/-! ## Well-laid lists -/

theorem WellLaid.perm {l l' : List (String × Layout)} (h : WellLaid l) (hp : l.Perm l') :
    WellLaid l' where
  cameras := (hp.map _).nodup_iff.mp h.cameras
  groups := (hp.filterMap _).nodup_iff.mp h.groups
  pos := fun e he => h.pos e (hp.mem_iff.mpr he)

theorem WellLaid.nil : WellLaid [] := ⟨List.nodup_nil, List.nodup_nil, nofun⟩

theorem WellLaid.tail {e : String × Layout} {l : List (String × Layout)} (h : WellLaid (e :: l)) :
    WellLaid l where
  cameras := (List.nodup_cons.mp h.cameras).2
  groups := h.groups.sublist ((List.sublist_cons_self e l).filterMap _)
  pos := fun e' he' => h.pos e' (List.mem_cons_of_mem _ he')

theorem WellLaid.camera_notMem {cid : String} {ly : Layout} {l : List (String × Layout)}
    (h : WellLaid ((cid, ly) :: l)) : cid ∉ l.map Prod.fst := (List.nodup_cons.mp h.cameras).1

theorem WellLaid.group_ne {cid : String} {ly : Layout} {l : List (String × Layout)} {g : ℤ}
    (h : WellLaid ((cid, ly) :: l)) (hg : ly.group = some g) : ∀ e ∈ l, e.2.group ≠ some g := by
  intro e he hc
  have hn := h.groups
  rw [List.filterMap_cons_some (by exact hg)] at hn
  exact (List.nodup_cons.mp hn).1 (List.mem_filterMap.mpr ⟨e, he, hc⟩)

theorem WellLaid.cons_whole {cid : String} {l : List (String × Layout)} (h : WellLaid l)
    (hc : cid ∉ l.map Prod.fst) : WellLaid ((cid, .whole) :: l) where
  cameras := List.nodup_cons.mpr ⟨hc, h.cameras⟩
  groups := h.groups
  pos := fun e he => by
    rcases List.mem_cons.mp he with rfl | he
    · nofun
    · exact h.pos e he

theorem WellLaid.cons_split {cid : String} {l : List (String × Layout)} (h : WellLaid l)
    (hc : cid ∉ l.map Prod.fst) {g n : ℤ} {d : SplitDirection}
    (hv : CameraModel.ValidCount n d) (hg : 1 ≤ g) (hfresh : ∀ e ∈ l, e.2.group ≠ some g) :
    WellLaid ((cid, .split g n d hv) :: l) where
  cameras := List.nodup_cons.mpr ⟨hc, h.cameras⟩
  groups := by
    rw [List.filterMap_cons_some (by rfl)]
    refine List.nodup_cons.mpr ⟨fun hm => ?_, h.groups⟩
    obtain ⟨e, he, heg⟩ := List.mem_filterMap.mp hm
    exact hfresh e he heg
  pos := fun e he g' hg' => by
    rcases List.mem_cons.mp he with rfl | he
    · rw [← Option.some.inj hg']; exact hg
    · exact h.pos e he g' hg'

theorem exists_cons_of_mem_allTiles {l : List (String × Layout)} {t : Tile} (h : t ∈ allTiles l) :
    ∃ ly l', l.Perm ((t.cameraId, ly) :: l') ∧ t ∈ ly.tiles t.cameraId := by
  obtain ⟨⟨cid, ly⟩, he, ht⟩ := List.mem_flatMap.mp h
  obtain rfl : t.cameraId = cid := cameraId_of_mem_tiles ht
  classical
  obtain ⟨l₁, l₂, rfl⟩ := List.append_of_mem he
  exact ⟨ly, l₁ ++ l₂, List.perm_middle, ht⟩

theorem allTiles_cons (e : String × Layout) (l : List (String × Layout)) :
    allTiles (e :: l) = e.2.tiles e.1 ++ allTiles l := List.flatMap_cons

theorem allTiles_perm {l l' : List (String × Layout)} (h : l.Perm l') :
    (allTiles l).Perm (allTiles l') := h.flatMap_right _

/-! ## The geometry of a split -/

/-- The columns and rows of the grid that a split cuts the picture into. -/
def gridSize (tileCount : ℤ) : SplitDirection → ℕ × ℕ
  | .col => (tileCount.toNat, 1)
  | .row => (1, tileCount.toNat)
  | .grid => (2, 2)
  | .none => (1, 1)

/-- The column and row of a tile. -/
def gridCell (i : ℕ) : SplitDirection → ℕ × ℕ
  | .col => (i, 0)
  | .row => (0, i)
  | .grid => (i % 2, i / 2)
  | .none => (0, 0)

/-- A part of the unit interval that ends where the code says has the width of every other part. -/
theorem part_width {m i : ℕ} (hm : 0 < m) :
    (if (i : ℤ) = (m : ℤ) - 1 then (1 : ℚ) else (i : ℚ) / m + 1 / m) - i / m = 1 / m := by
  have hm' : (m : ℚ) ≠ 0 := Nat.cast_ne_zero.mpr (Nat.pos_iff_ne_zero.mp hm)
  split_ifs with h
  · have hi : (m : ℚ) = i + 1 := by
      have h' : (m : ℤ) = i + 1 := by omega
      exact_mod_cast h'
    field_simp
    rw [hi]
    ring
  · ring

/-- **Each crop rectangle is a cell of the grid.** -/
theorem computeCropRect_eq_cell {n : ℤ} {d : SplitDirection} (hv : CameraModel.ValidCount n d)
    (i : ℕ) : CameraModel.computeCropRect i n d =
      Rect.cell (gridSize n d).1 (gridSize n d).2 (gridCell i d).1 (gridCell i d).2 := by
  have hn := two_le_of_validCount hv
  obtain ⟨m, rfl⟩ := Int.eq_ofNat_of_zero_le (show 0 ≤ n by omega)
  have hw := part_width (m := m) (i := i) (by omega)
  cases d with
  | col =>
    simp only [CameraModel.ValidCount] at hv
    simp only [CameraModel.computeCropRect, if_neg (show ¬ ((m : ℤ) < 2 ∨ (m : ℤ) > 4) by omega),
      gridSize, gridCell, Rect.cell, Int.toNat_natCast, Int.cast_natCast, mul_one_div, hw, Nat.cast_zero,
      Nat.cast_one, div_one]
  | row =>
    simp only [CameraModel.ValidCount] at hv
    simp only [CameraModel.computeCropRect, if_neg (show ¬ ((m : ℤ) < 2 ∨ (m : ℤ) > 3) by omega),
      gridSize, gridCell, Rect.cell, Int.toNat_natCast, Int.cast_natCast, mul_one_div, hw, Nat.cast_zero,
      Nat.cast_one, div_one]
  | grid =>
    have hm : (m : ℤ) = 4 := hv
    have h1 : (i : ℤ).tmod 2 = ((i % 2 : ℕ) : ℤ) := rfl
    have h2 : (i : ℤ).tdiv 2 = ((i / 2 : ℕ) : ℤ) := rfl
    simp only [CameraModel.computeCropRect, if_pos hm, gridSize, gridCell, Rect.cell, mul_one_div,
      h1, h2, Int.cast_natCast, Nat.cast_ofNat]
  | none => exact absurd hv not_false

/-- **The crop rectangles of a split tile the unit square.** -/
theorem tiles_cropRects {n : ℤ} {d : SplitDirection} (hv : CameraModel.ValidCount n d) :
    Rect.Tiles ((List.range n.toNat).map fun i : ℕ => CameraModel.computeCropRect i n d) := by
  have hn := two_le_of_validCount hv
  simp only [computeCropRect_eq_cell hv]
  cases d with
  | col =>
    refine Rect.tiles_of_cells (c := n.toNat) (r := 1) (by omega) Nat.one_pos _ List.nodup_range
      (fun i => i) (fun _ => 0) (fun a _ b _ h => (Prod.mk.inj h).1) fun i j => ?_
    simp only [List.mem_range, Prod.mk.injEq, Nat.lt_one_iff]
    constructor
    · rintro ⟨hi, rfl⟩
      exact ⟨i, hi, rfl, rfl⟩
    · rintro ⟨a, ha, rfl, rfl⟩
      exact ⟨ha, rfl⟩
  | row =>
    refine Rect.tiles_of_cells (c := 1) (r := n.toNat) Nat.one_pos (by omega) _ List.nodup_range
      (fun _ => 0) (fun i => i) (fun a _ b _ h => (Prod.mk.inj h).2) fun i j => ?_
    simp only [List.mem_range, Prod.mk.injEq, Nat.lt_one_iff]
    constructor
    · rintro ⟨rfl, hj⟩
      exact ⟨j, hj, rfl, rfl⟩
    · rintro ⟨a, ha, rfl, rfl⟩
      exact ⟨rfl, ha⟩
  | grid =>
    obtain rfl : n = 4 := hv
    refine Rect.tiles_of_cells (c := 2) (r := 2) Nat.two_pos Nat.two_pos _ List.nodup_range
      (fun i => i % 2) (fun i => i / 2) (fun a ha b hb h => ?_) fun i j => ?_
    · have h1 := (Prod.mk.inj h).1
      have h2 := (Prod.mk.inj h).2
      omega
    · constructor
      · rintro ⟨hi, hj⟩
        exact ⟨2 * j + i, List.mem_range.mpr (by simp; omega), by
          rw [Prod.mk.injEq]; constructor <;> omega⟩
      · rintro ⟨a, ha, h⟩
        have ha' := List.mem_range.mp ha
        simp at ha'
        obtain ⟨rfl, rfl⟩ := Prod.mk.inj h
        omega
  | none => exact absurd hv not_false

end Models

end AnoMap
