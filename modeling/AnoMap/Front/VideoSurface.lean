import AnoMap.Lib.Placement
import AnoMap.Models.SlotGrid

/-!
# Video surfaces

`VideoSurface` shows the part of a frame that its crop rectangle names: it stretches the frame over
a rectangle larger than itself and clips. Frames are the unit square; arithmetic is exact.

* `videoOutput`: the rectangle the frame is stretched over.
* `within_videoOutput`: the part that is named stands exactly in the surface.
* `Shows.crops`, `Shows.crops_subset`: the crop rectangles of the rows of a camera.
* **`surfaces_show_frame`**: the surfaces of a camera, split or not, are filled and show every point
  of its frame, none twice.
-/

set_option autoImplicit false

namespace AnoMap

namespace Front

open Models

namespace VideoSurface

/-- The surface itself. -/
def rootItem (width height : ℚ) : Rect ℚ := ⟨0, 0, width, height⟩

def videoOutput (width height : ℚ) (cropRect : Rect ℚ) : Rect ℚ where
  x := if 0 < cropRect.width then -cropRect.x * (width / cropRect.width) else 0
  y := if 0 < cropRect.height then -cropRect.y * (height / cropRect.height) else 0
  width := if 0 < cropRect.width then width / cropRect.width else width
  height := if 0 < cropRect.height then height / cropRect.height else height

variable {width height : ℚ} {crop : Rect ℚ}

theorem hasArea_videoOutput (hw : 0 < width) (hh : 0 < height) (hc : crop.HasArea) :
    (videoOutput width height crop).HasArea := by
  unfold videoOutput
  rw [if_pos hc.width, if_pos hc.height, if_pos hc.width, if_pos hc.height]
  exact ⟨div_pos hw hc.width, div_pos hh hc.height⟩

/-- **The part named by the crop rectangle** stands exactly in the surface. -/
theorem within_videoOutput (width height : ℚ) (hc : crop.HasArea) :
    (videoOutput width height crop).within crop = rootItem width height := by
  have hcw := hc.width.ne'
  have hch := hc.height.ne'
  unfold videoOutput rootItem Rect.within
  rw [if_pos hc.width, if_pos hc.height, if_pos hc.width, if_pos hc.height, Rect.mk.injEq]
  dsimp only
  refine ⟨?_, ?_, ?_, ?_⟩
  · ring
  · ring
  · rw [mul_div_cancel₀ _ hcw]
  · rw [mul_div_cancel₀ _ hch]

theorem place_mem_rootItem_iff (hw : 0 < width) (hh : 0 < height) (hc : crop.HasArea) (q : ℚ × ℚ) :
    (videoOutput width height crop).place q ∈ (rootItem width height).region ↔ q ∈ crop.region := by
  rw [← within_videoOutput width height hc]
  exact Rect.place_mem_region_iff (hasArea_videoOutput hw hh hc) crop q

theorem place_mem_interior_iff (hw : 0 < width) (hh : 0 < height) (hc : crop.HasArea) (q : ℚ × ℚ) :
    (videoOutput width height crop).place q ∈ (rootItem width height).interior ↔
      q ∈ crop.interior := by
  rw [← within_videoOutput width height hc]
  exact Rect.place_mem_interior_iff (hasArea_videoOutput hw hh hc) crop q

end VideoSurface

/-! ## The rows of a camera -/

variable {l : List (String × Layout)} {s : CameraModel} {cam : CameraEntry}

theorem hasArea_of_mem_tiles {cid : String} {ly : Layout} {t : Tile} (h : t ∈ ly.tiles cid) :
    t.cropRect.HasArea := by
  cases ly with
  | whole =>
    rw [List.mem_singleton.mp h]
    exact Rect.hasArea_unit
  | split g n d hv =>
    obtain ⟨i, -, rfl⟩ := List.mem_map.mp h
    have hn := two_le_of_validCount hv
    rw [splitTile, computeCropRect_eq_cell hv]
    cases d with
    | col => exact Rect.hasArea_cell (by dsimp only [gridSize]; omega) Nat.one_pos _ _
    | row => exact Rect.hasArea_cell Nat.one_pos (by dsimp only [gridSize]; omega) _ _
    | grid => exact Rect.hasArea_cell Nat.two_pos Nat.two_pos _ _
    | none => exact absurd hv not_false

theorem tiles_cropRects_of_layout (cid : String) (ly : Layout) :
    Rect.Tiles ((ly.tiles cid).map Tile.cropRect) := by
  cases ly with
  | whole =>
    refine ⟨List.pairwise_singleton _ _, fun p => ?_⟩
    simp [Layout.tiles, wholeTile]
  | split g n d hv =>
    rw [Layout.tiles, List.map_map]
    exact tiles_cropRects hv

theorem Shows.crops (h : CameraModel.Shows l s) {cid : String}
    (hc : cid ∈ s.cameras.map CameraEntry.cameraId) :
    Rect.Tiles ((s.rowsOf cid).map CameraEntry.cropRect) ∧
      ∀ cam ∈ s.rowsOf cid, cam.cropRect.HasArea := by
  obtain ⟨cam, hcam, rfl⟩ := List.mem_map.mp hc
  obtain ⟨ly, l', hp, _⟩ := exists_cons_of_mem_allTiles
    (h.tiles.mem_iff.mp (List.mem_map_of_mem hcam))
  have hrows := (h.perm hp).camera_rows
  constructor
  · have hcrops := hrows.map Tile.cropRect
    rw [List.map_map] at hcrops
    exact (tiles_cropRects_of_layout _ ly).perm hcrops.symm
  · intro cam' hcam'
    exact hasArea_of_mem_tiles (hrows.mem_iff.mp (List.mem_map_of_mem hcam'))

theorem Shows.crops_subset (h : CameraModel.Shows l s) (hcam : cam ∈ s.cameras) :
    cam.cropRect.HasArea ∧ cam.cropRect.region ⊆ (Rect.unit : Rect ℚ).region := by
  obtain ⟨htiles, harea⟩ := Shows.crops h (List.mem_map_of_mem hcam)
  have hrow : cam ∈ s.rowsOf cam.cameraId := List.mem_filter.mpr ⟨hcam, decide_eq_true rfl⟩
  exact ⟨harea cam hrow, fun p hp => (htiles.cover p).mpr ⟨_, List.mem_map_of_mem hrow, hp⟩⟩

open VideoSurface

/-- **The surfaces of a camera.** Each point of its frame is shown by the surface of some row, none
in the inside of two, and each point of a surface shows exactly one. -/
theorem surfaces_show_frame (autoSplit : String → ℤ) (ops : List CameraModel.Op) (cid : String)
    (hcid : cid ∈ (Machine.final (CameraModel.step autoSplit) .empty ops).cameras.map
      CameraEntry.cameraId) {width height : CameraEntry → ℚ} (hw : ∀ cam, 0 < width cam)
    (hh : ∀ cam, 0 < height cam) :
    let rows := (Machine.final (CameraModel.step autoSplit) .empty ops).rowsOf cid
    let shown := fun cam : CameraEntry => videoOutput (width cam) (height cam) cam.cropRect
    (∀ q ∈ (Rect.unit : Rect ℚ).region, ∃ cam ∈ rows,
      (shown cam).place q ∈ (rootItem (width cam) (height cam)).region) ∧
    rows.Pairwise (fun cam cam' => ∀ q,
      (shown cam).place q ∈ (rootItem (width cam) (height cam)).interior →
        (shown cam').place q ∉ (rootItem (width cam') (height cam')).interior) ∧
    ∀ cam ∈ rows, ∀ p ∈ (rootItem (width cam) (height cam)).region,
      ∃! q, (shown cam).place q = p ∧ q ∈ (Rect.unit : Rect ℚ).region := by
  obtain ⟨l, h⟩ := CameraModel.exists_shows autoSplit ops
  obtain ⟨htiles, harea⟩ := Shows.crops h hcid
  dsimp only
  refine ⟨fun q hq => ?_, ?_, fun cam hcam p hp => ?_⟩
  · obtain ⟨r, hr, hqr⟩ := (htiles.cover q).mp hq
    obtain ⟨cam, hcam, rfl⟩ := List.mem_map.mp hr
    exact ⟨cam, hcam, (place_mem_rootItem_iff (hw cam) (hh cam) (harea cam hcam) q).mpr hqr⟩
  · have hdisjoint := htiles.disjoint
    rw [List.pairwise_map] at hdisjoint
    refine hdisjoint.imp_of_mem fun {cam cam'} hcam hcam' hd q hq hq' => ?_
    rw [place_mem_interior_iff (hw _) (hh _) (harea _ hcam)] at hq
    rw [place_mem_interior_iff (hw _) (hh _) (harea _ hcam')] at hq'
    exact Set.disjoint_left.mp hd hq hq'
  · have hc := harea cam hcam
    rw [← within_videoOutput _ _ hc] at hp
    obtain ⟨q, ⟨hq, hqc⟩, huniq⟩ := Rect.existsUnique_place
      (hasArea_videoOutput (hw cam) (hh cam) hc) hp
    have hunit := (htiles.cover q).mpr ⟨_, List.mem_map_of_mem hcam, hqc⟩
    refine ⟨q, ⟨hq, hunit⟩, fun q' hq' => huniq q' ⟨hq'.1, ?_⟩⟩
    rw [← hq'.1] at hp
    exact (Rect.place_mem_region_iff (hasArea_videoOutput (hw cam) (hh cam) hc) _ _).mp hp

/-- A camera split into a grid, on surfaces of two hundred by one hundred. -/
theorem surfaces_show_frame_grid :
    ∃ cam ∈ (Machine.final (CameraModel.step fun _ => 0) .empty
      [.onStoreUpdated ⟨id, HashOrder.perm_id⟩ [⟨"A", "", true, "10.0.0.1/0", .zero⟩],
        .splitSlot 0 4 2]).rowsOf "10.0.0.1/0",
      (videoOutput 200 100 cam.cropRect).place (3 / 4, 1 / 4) ∈ (rootItem 200 100).region :=
  (surfaces_show_frame _ _ "10.0.0.1/0" (by decide) (fun _ => by norm_num) fun _ => by
    norm_num).1 _ ⟨⟨by decide +kernel, by decide +kernel⟩, by decide +kernel, by decide +kernel⟩

end Front

end AnoMap
