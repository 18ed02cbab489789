import AnoMap.Lib.Machine
import AnoMap.Models.SlotLayout
import Mathlib.Data.List.GetD

/-!
# The grid of slots

The rows of the camera model always show a well-laid layout, whatever operations lead there.

* `Shows`: the rows of the model are the tiles of a layout; slot ids and group numbers are those
  given out.
* `exists_splitting`, `mergeRows_perm`: what a split and a merge do to the rows.
* `Shows.of_splitting`, `Shows.of_merge`, `Shows.appendNew`, …: each operation moves to another
  layout or keeps it.
* `SlotGrid`: distinct slot ids, and every camera present in one full row or in one complete group
  that tiles the picture.
* **`slot_grid`**: every reachable state is a slot grid.
-/

set_option autoImplicit false

namespace AnoMap

namespace Models

open Domain

namespace CameraModel

/-! ## The statement -/

/-- The rows of a camera. -/
def rowsOf (s : CameraModel) (cameraId : String) : List CameraEntry :=
  s.cameras.filter fun cam => cam.cameraId = cameraId

/-- The camera has exactly one row, which shows it whole. -/
def IsWhole (s : CameraModel) (cameraId : String) : Prop :=
  ∃ cam, s.rowsOf cameraId = [cam] ∧ cam.splitCount = 1 ∧ cam.splitGroupId = -1 ∧
    cam.splitIndex = 0 ∧ cam.cropRect = .unit

/-- The rows of the camera are exactly one complete split group. -/
structure IsSplit (s : CameraModel) (cameraId : String) (splitGroupId : ℤ)
    (direction : SplitDirection) : Prop where
  group_pos : 1 ≤ splitGroupId
  group_lt : splitGroupId < s.nextSplitGroupId
  group : ∀ cam ∈ s.cameras, cam.splitGroupId = splitGroupId ↔ cam.cameraId = cameraId
  count : ∀ cam ∈ s.rowsOf cameraId, cam.splitCount = (s.rowsOf cameraId).length
  direction : ∀ cam ∈ s.rowsOf cameraId, cam.splitDirection = direction
  indices : ((s.rowsOf cameraId).map CameraEntry.splitIndex).Perm
    ((List.range (s.rowsOf cameraId).length).map Nat.cast)
  crop : Rect.Tiles ((s.rowsOf cameraId).map CameraEntry.cropRect)

/-- **The slot grid.** -/
structure SlotGrid (s : CameraModel) : Prop where
  slotIds_nodup : (s.cameras.map CameraEntry.slotId).Nodup
  slotIds_lt : ∀ cam ∈ s.cameras, cam.slotId < s.nextSlotId
  camera : ∀ cam ∈ s.cameras, s.IsWhole cam.cameraId ∨ ∃ g d, s.IsSplit cam.cameraId g d

/-! ## Rows and layout -/

/-- **The rows show the layout.** -/
structure Shows (l : List (String × Layout)) (s : CameraModel) : Prop where
  laid : WellLaid l
  tiles : (s.cameras.map tile).Perm (allTiles l)
  groups : ∀ e ∈ l, ∀ g ∈ e.2.group, g < s.nextSplitGroupId
  nextGroup : 1 ≤ s.nextSplitGroupId
  slotIds : (s.cameras.map CameraEntry.slotId).Nodup
  slotIds_lt : ∀ cam ∈ s.cameras, cam.slotId < s.nextSlotId

variable {l : List (String × Layout)} {s : CameraModel}

theorem shows_empty : Shows [] empty :=
  ⟨.nil, List.Perm.nil, fun _ he => absurd he List.not_mem_nil, Int.le_refl 1, List.nodup_nil,
    fun _ hc => absurd hc List.not_mem_nil⟩

theorem Shows.perm (h : Shows l s) {l' : List (String × Layout)} (hp : l.Perm l') : Shows l' s where
  laid := h.laid.perm hp
  tiles := h.tiles.trans (allTiles_perm hp)
  groups := fun e he => h.groups e (hp.mem_iff.mpr he)
  nextGroup := h.nextGroup
  slotIds := h.slotIds
  slotIds_lt := h.slotIds_lt

theorem Shows.of_rows (h : Shows l s) {cameras : List CameraEntry}
    (ht : (cameras.map tile).Perm (s.cameras.map tile))
    (hi : cameras.map CameraEntry.slotId = s.cameras.map CameraEntry.slotId) (set : Finset ℤ) :
    Shows l { s with cameras := cameras, autoSplitAppliedSlotIds := set } where
  laid := h.laid
  tiles := ht.trans h.tiles
  groups := h.groups
  nextGroup := h.nextGroup
  slotIds := by rw [hi]; exact h.slotIds
  slotIds_lt := fun cam hc => by
    have hm : cam.slotId ∈ s.cameras.map CameraEntry.slotId := hi ▸ List.mem_map_of_mem hc
    obtain ⟨cam', hc', he⟩ := List.mem_map.mp hm
    rw [← he]
    exact h.slotIds_lt cam' hc'

theorem map_modify_of_eq {α β : Type} (g : α → β) {f : α → α} (h : ∀ a, g (f a) = g a) (l : List α)
    (i : ℕ) : (l.modify i f).map g = l.map g := by
  induction l generalizing i with
  | nil => rw [List.modify_nil]
  | cons a l ih =>
    cases i with
    | zero => rw [List.modify_zero_cons, List.map_cons, List.map_cons, h]
    | succ i => rw [List.modify_succ_cons, List.map_cons, List.map_cons, ih]

theorem Shows.modifyRow (h : Shows l s) (row : ℤ) {f : CameraEntry → CameraEntry}
    (ht : ∀ cam, tile (f cam) = tile cam) (hi : ∀ cam, (f cam).slotId = cam.slotId) :
    Shows l (s.modifyRow row f) :=
  h.of_rows (List.Perm.of_eq (map_modify_of_eq tile ht _ _))
    (map_modify_of_eq CameraEntry.slotId hi _ _) s.autoSplitAppliedSlotIds

theorem Shows.setOnline (h : Shows l s) (index : ℤ) (online : Bool) :
    Shows l (s.setOnline index online) := by
  unfold CameraModel.setOnline
  split_ifs
  · exact h.modifyRow index (fun _ => rfl) fun _ => rfl
  · exact h

theorem Shows.setData (h : Shows l s) (row : ℤ) (edit : EditRole) :
    Shows l (s.setData row edit) := by
  unfold CameraModel.setData
  split_ifs
  · cases edit with
    | title value => exact h.modifyRow row (fun _ => rfl) fun _ => rfl
    | isOnline value => exact h.modifyRow row (fun _ => rfl) fun _ => rfl
    | cameraType value => exact h.modifyRow row (fun _ => rfl) fun _ => rfl
    | other => exact h
  · exact h

theorem Shows.updateSensorInfo (h : Shows l s) (cameraId : String) (info : DeviceInfo) :
    Shows l (s.updateSensorInfo cameraId info).1 := by
  refine h.of_rows (List.Perm.of_eq ?_) ?_ s.autoSplitAppliedSlotIds
  · rw [List.map_map]
    refine List.map_congr_left fun cam _ => ?_
    simp only [Function.comp_apply]
    split_ifs <;> rfl
  · rw [List.map_map]
    refine List.map_congr_left fun cam _ => ?_
    simp only [Function.comp_apply]
    split_ifs <;> rfl

/-! ## Swaps -/

theorem tile_takeContent (a b : CameraEntry) : tile (takeContent a b) = tile b := rfl

theorem map_slotId_set (cameras : List CameraEntry) {i : ℕ} (hi : i < cameras.length)
    {cam : CameraEntry} (hc : cam.slotId = (cameras.getD i .default).slotId) :
    (cameras.set i cam).map CameraEntry.slotId = cameras.map CameraEntry.slotId := by
  rw [List.getD_eq_getElem _ _ hi] at hc
  rw [List.map_set, hc, ← List.map_set, List.set_getElem_self]

theorem Shows.swapSlots (h : Shows l s) (indexA indexB : ℤ) :
    Shows l (s.swapSlots indexA indexB).1 := by
  unfold CameraModel.swapSlots
  split_ifs with hr
  · obtain ⟨⟨ha0, ha⟩, ⟨hb0, hb⟩, hab⟩ := hr
    have ha' : indexA.toNat < s.cameras.length := by omega
    have hb' : indexB.toNat < s.cameras.length := by omega
    have hne : indexA.toNat ≠ indexB.toNat := by omega
    refine h.of_rows ?_ ?_ s.autoSplitAppliedSlotIds
    · have hA : indexA.toNat < (s.cameras.map tile).length := by rwa [List.length_map]
      have hB : indexB.toNat < (s.cameras.map tile).length := by rwa [List.length_map]
      have hp := List.set_set_perm hA hB
      rw [List.getElem_map, List.getElem_map] at hp
      rw [List.map_set, List.map_set, tile_takeContent, tile_takeContent,
        List.getD_eq_getElem _ _ ha', List.getD_eq_getElem _ _ hb']
      exact hp
    · have h1 : ((s.cameras.set indexA.toNat (takeContent (s.cameras.getD indexA.toNat .default)
          (s.cameras.getD indexB.toNat .default))).getD indexB.toNat .default) =
            s.cameras.getD indexB.toNat .default := by
        rw [List.getD_eq_getElem _ _ (by rwa [List.length_set]), List.getElem_set_ne hne,
          List.getD_eq_getElem _ _ hb']
      rw [map_slotId_set _ (by rwa [List.length_set]) (by rw [h1]; rfl)]
      exact map_slotId_set _ ha' rfl
  · exact h

/-! ## Splits -/

/-- The tiles of a split, with their slot ids. -/
def newTiles (original : CameraEntry) (slotId splitGroupId tileCount : ℤ)
    (direction : SplitDirection) (n i : ℕ) : List CameraEntry :=
  (List.range n).map fun k : ℕ =>
    tileEntry original (slotId + k) splitGroupId tileCount direction (i + k)

theorem newTiles_succ (original : CameraEntry) (slotId splitGroupId tileCount : ℤ)
    (direction : SplitDirection) (n i : ℕ) :
    newTiles original slotId splitGroupId tileCount direction (n + 1) i =
      tileEntry original slotId splitGroupId tileCount direction i ::
        newTiles original (slotId + 1) splitGroupId tileCount direction n (i + 1) := by
  unfold newTiles
  rw [List.range_succ_eq_map, List.map_cons, List.map_map]
  congr 1
  · simp
  · refine List.map_congr_left fun k _ => ?_
    simp only [Function.comp_apply]
    congr 1
    · push_cast; ring
    · omega

theorem insertIdx_length_append {α : Type} (xs ys : List α) (a : α) :
    (xs ++ ys).insertIdx xs.length a = xs ++ a :: ys := by
  induction xs with
  | nil => rfl
  | cons x xs ih => rw [List.cons_append, List.length_cons, List.insertIdx_succ_cons, ih]; rfl

/-- **The loop inserts the tiles one behind the other.** -/
theorem insertTiles_cameras (original : CameraEntry) (splitGroupId tileCount : ℤ)
    (direction : SplitDirection) (autoSplit : Bool) (rowIndex n i : ℕ) (s : CameraModel)
    (before after : List CameraEntry) (hs : s.cameras = before ++ after)
    (hb : before.length = rowIndex + i) :
    (insertTiles original splitGroupId tileCount direction autoSplit rowIndex n i s).cameras =
      before ++ newTiles original s.nextSlotId splitGroupId tileCount direction n i ++ after := by
  induction n generalizing i s before with
  | zero => simp [insertTiles, newTiles, hs]
  | succ n ih =>
    rw [insertTiles, newTiles_succ]
    rw [ih _ _ (before ++ [tileEntry original s.nextSlotId splitGroupId tileCount direction i])]
    · simp
    · simp only [hs]
      rw [← hb, insertIdx_length_append, List.append_assoc]
      rfl
    · rw [List.length_append, hb]
      rfl

theorem insertTiles_next (original : CameraEntry) (splitGroupId tileCount : ℤ)
    (direction : SplitDirection) (autoSplit : Bool) (rowIndex n i : ℕ) (s : CameraModel) :
    (insertTiles original splitGroupId tileCount direction autoSplit rowIndex n i s).nextSlotId =
        s.nextSlotId + n ∧
      (insertTiles original splitGroupId tileCount direction autoSplit rowIndex n i
        s).nextSplitGroupId = s.nextSplitGroupId := by
  induction n generalizing i s with
  | zero => simp [insertTiles]
  | succ n ih =>
    rw [insertTiles]
    obtain ⟨h1, h2⟩ := ih (i + 1) _
    rw [h1, h2]
    refine ⟨?_, rfl⟩
    push_cast
    ring

theorem mem_insertTiles_applied (original : CameraEntry) (splitGroupId tileCount : ℤ)
    (direction : SplitDirection) (autoSplit : Bool) (rowIndex n i : ℕ) (s : CameraModel) (id : ℤ) :
    id ∈ (insertTiles original splitGroupId tileCount direction autoSplit rowIndex n i
        s).autoSplitAppliedSlotIds ↔ id ∈ s.autoSplitAppliedSlotIds ∨ autoSplit = true ∧
      id ∈ (newTiles original s.nextSlotId splitGroupId tileCount direction n i).map
        CameraEntry.slotId := by
  induction n generalizing i s with
  | zero => simp [insertTiles, newTiles]
  | succ n ih =>
    rw [insertTiles, ih, newTiles_succ, List.map_cons, List.mem_cons]
    cases autoSplit with
    | false => simp
    | true =>
      simp only [if_true, Finset.mem_insert, true_and]
      exact (or_congr_left or_comm).trans or_assoc

/-- The tiles that a row is split into. -/
def tilesOf (s : CameraModel) (original : CameraEntry) (tileCount : ℤ)
    (direction : SplitDirection) : List CameraEntry :=
  newTiles original s.nextSlotId s.nextSplitGroupId tileCount direction tileCount.toNat 0

/-- A row's tiles are in its place. -/
structure Splitting (s : CameraModel) (before : List CameraEntry) (original : CameraEntry)
    (after : List CameraEntry) (tileCount : ℤ) (direction : SplitDirection) (autoSplit : Bool)
    (s' : CameraModel) : Prop where
  rows : s.cameras = before ++ original :: after
  cameras : s'.cameras = before ++ s.tilesOf original tileCount direction ++ after
  nextSlotId : s'.nextSlotId = s.nextSlotId + tileCount.toNat
  nextSplitGroupId : s'.nextSplitGroupId = s.nextSplitGroupId + 1
  applied : ∀ id, id ∈ s'.autoSplitAppliedSlotIds ↔ id ≠ original.slotId ∧
    (id ∈ s.autoSplitAppliedSlotIds ∨
      autoSplit = true ∧ id ∈ (s.tilesOf original tileCount direction).map CameraEntry.slotId)

theorem splitSlotAtIndex_of_not {s : CameraModel} {rowIndex tileCount : ℤ}
    {direction : SplitDirection} (autoSplit : Bool)
    (h : ¬ (s.IsRow rowIndex ∧ ValidCount tileCount direction ∧
      (s.cameras.getD rowIndex.toNat .default).splitCount = 1 ∧
      (s.cameras.getD rowIndex.toNat .default).isOnline = true)) :
    s.splitSlotAtIndex rowIndex tileCount direction autoSplit = (s, []) := if_neg h

theorem exists_splitting (s : CameraModel) {rowIndex tileCount : ℤ} {direction : SplitDirection}
    (autoSplit : Bool) (hr : s.IsRow rowIndex) (hv : ValidCount tileCount direction)
    (h1 : (s.cameras.getD rowIndex.toNat .default).splitCount = 1)
    (hon : (s.cameras.getD rowIndex.toNat .default).isOnline = true) :
    ∃ before after, before.length = rowIndex.toNat ∧
      Splitting s before (s.cameras.getD rowIndex.toNat .default) after tileCount direction autoSplit
        (s.splitSlotAtIndex rowIndex tileCount direction autoSplit).1 := by
  unfold CameraModel.splitSlotAtIndex
  dsimp only
  rw [if_pos ⟨hr, hv, h1, hon⟩]
  have hl : rowIndex.toNat < s.cameras.length := by
    have := hr.1
    have := hr.2
    omega
  have hlen : (s.cameras.take rowIndex.toNat).length = rowIndex.toNat := by
    rw [List.length_take]
    omega
  have hn := insertTiles_next (s.cameras.getD rowIndex.toNat .default) s.nextSplitGroupId tileCount
    direction autoSplit rowIndex.toNat tileCount.toNat 0
    { s with
      nextSplitGroupId := s.nextSplitGroupId + 1
      cameras := s.cameras.eraseIdx rowIndex.toNat }
  refine ⟨s.cameras.take rowIndex.toNat, s.cameras.drop (rowIndex.toNat + 1), hlen, ?_, ?_, hn.1,
    hn.2, fun id => ?_⟩
  · rw [List.getD_eq_getElem _ _ hl, List.getElem_cons_drop, List.take_append_drop]
  · exact insertTiles_cameras _ _ _ _ _ _ _ _ _ _ _ (List.eraseIdx_eq_take_drop_succ _ _)
      (by rw [hlen, Nat.add_zero])
  · rw [Finset.mem_erase, mem_insertTiles_applied]
    rfl

theorem tile_tileEntry (original : CameraEntry) (slotId splitGroupId : ℤ) {tileCount : ℤ}
    {direction : SplitDirection} (hv : ValidCount tileCount direction) (i : ℕ) :
    tile (tileEntry original slotId splitGroupId tileCount direction i) =
      splitTile original.cameraId splitGroupId tileCount direction i := by
  have hn := two_le_of_validCount hv
  have h1 : tileCount ≠ 1 := by omega
  simp only [tile, tileEntry, splitTile, h1, if_false]

theorem slotIds_newTiles (before after : List CameraEntry) (original : CameraEntry)
    (slotId splitGroupId tileCount : ℤ) (direction : SplitDirection) (n : ℕ)
    (hn : ((before ++ after).map CameraEntry.slotId).Nodup)
    (hlt : ∀ cam ∈ before ++ after, cam.slotId < slotId) :
    ((before ++ newTiles original slotId splitGroupId tileCount direction n 0 ++ after).map
        CameraEntry.slotId).Nodup ∧
      ∀ cam ∈ before ++ newTiles original slotId splitGroupId tileCount direction n 0 ++ after,
        cam.slotId < slotId + n := by
  have hnew : ∀ cam ∈ newTiles original slotId splitGroupId tileCount direction n 0,
      ∃ k < n, cam.slotId = slotId + (k : ℤ) := by
    intro cam hc
    obtain ⟨k, hk, rfl⟩ := List.mem_map.mp hc
    exact ⟨k, List.mem_range.mp hk, rfl⟩
  have hp : (before ++ newTiles original slotId splitGroupId tileCount direction n 0 ++
      after).Perm (newTiles original slotId splitGroupId tileCount direction n 0 ++
        (before ++ after)) := by
    rw [← List.append_assoc]
    exact List.perm_append_comm.append_right after
  constructor
  · rw [(hp.map _).nodup_iff, List.map_append, List.nodup_append']
    refine ⟨?_, hn, fun x hx hy => ?_⟩
    · rw [newTiles, List.map_map]
      refine List.nodup_range.map fun a b hab => ?_
      have hab' : slotId + (a : ℤ) = slotId + b := hab
      omega
    · obtain ⟨cam, hc, rfl⟩ := List.mem_map.mp hx
      obtain ⟨k, _, hk⟩ := hnew cam hc
      obtain ⟨cam', hc', he⟩ := List.mem_map.mp hy
      have := hlt cam' hc'
      omega
  · intro cam hc
    rcases List.mem_append.mp (hp.mem_iff.mp hc) with hc | hc
    · obtain ⟨k, hk, he⟩ := hnew cam hc
      omega
    · have := hlt cam hc
      omega

theorem Shows.whole_row (h : Shows l s) {before after : List CameraEntry} {cam : CameraEntry}
    (hs : s.cameras = before ++ cam :: after) (h1 : cam.splitCount = 1) :
    ∃ l', Shows ((cam.cameraId, .whole) :: l') s ∧
      ((before ++ after).map tile).Perm (allTiles l') := by
  have hm : tile cam ∈ allTiles l := h.tiles.mem_iff.mp (List.mem_map_of_mem (by rw [hs]; simp))
  obtain ⟨ly, l', hp, ht⟩ := exists_cons_of_mem_allTiles hm
  rcases splitCount_of_mem_tiles ht with ⟨_, rfl, hw⟩ | ⟨h2, _⟩
  · refine ⟨l', h.perm hp, ?_⟩
    have ht := (h.perm hp).tiles
    rw [hs, allTiles_cons, List.map_append, List.map_cons] at ht
    have ht' := List.perm_middle.symm.trans ht
    rw [show Layout.whole.tiles (tile cam).cameraId = [tile cam] by rw [hw]; rfl] at ht'
    rw [List.map_append]
    exact List.Perm.cons_inv ht'
  · rw [show (tile cam).splitCount = cam.splitCount from rfl] at h2
    omega

/-- **A split** replaces a whole camera by a new group. -/
theorem Shows.of_splitting (h : Shows l s) {before after : List CameraEntry}
    {original : CameraEntry} {tileCount : ℤ} {direction : SplitDirection} {autoSplit : Bool}
    {s' : CameraModel} (hs : Splitting s before original after tileCount direction autoSplit s')
    (h1 : original.splitCount = 1) (hv : ValidCount tileCount direction) : ∃ l', Shows l' s' := by
  obtain ⟨l', hl', hrest⟩ := h.whole_row hs.rows h1
  have hfresh : ∀ e ∈ l', e.2.group ≠ some s.nextSplitGroupId := fun e he hg =>
    absurd (hl'.groups e (List.mem_cons_of_mem _ he) _ hg) (lt_irrefl _)
  have hsub : (before ++ after).Sublist s.cameras := by
    rw [hs.rows]
    exact (List.sublist_cons_self original after).append_left before
  have hids := slotIds_newTiles before after original s.nextSlotId s.nextSplitGroupId tileCount
    direction tileCount.toNat (h.slotIds.sublist (hsub.map _)) fun cam hc =>
      h.slotIds_lt cam (hsub.subset hc)
  have hcams : s'.cameras = before ++ newTiles original s.nextSlotId s.nextSplitGroupId tileCount
      direction tileCount.toNat 0 ++ after := hs.cameras
  rw [← hcams, ← hs.nextSlotId] at hids
  refine ⟨(original.cameraId, .split s.nextSplitGroupId tileCount direction hv) :: l',
    hl'.laid.tail.cons_split hl'.laid.camera_notMem hv h.nextGroup hfresh, ?_, ?_, ?_, hids.1,
    hids.2⟩
  · rw [hcams, allTiles_cons, List.map_append, List.map_append, newTiles, List.map_map]
    refine (List.perm_append_comm.append_right _).trans ?_
    rw [List.append_assoc]
    refine List.Perm.append (List.Perm.of_eq (List.map_congr_left fun k _ => ?_)) ?_
    · rw [Function.comp_apply, tile_tileEntry _ _ _ hv, Nat.zero_add]
    · rw [← List.map_append]
      exact hrest
  · intro e he g hg
    rw [hs.nextSplitGroupId]
    rcases List.mem_cons.mp he with rfl | he
    · rw [← Option.some.inj hg]
      exact Int.lt_succ _
    · have := hl'.groups e (List.mem_cons_of_mem _ he) g hg
      omega
  · have := h.nextGroup
    rw [hs.nextSplitGroupId]
    omega

theorem Shows.splitSlotAtIndex (h : Shows l s) (rowIndex tileCount : ℤ)
    (direction : SplitDirection) (autoSplit : Bool) :
    ∃ l', Shows l' (s.splitSlotAtIndex rowIndex tileCount direction autoSplit).1 := by
  by_cases hc : s.IsRow rowIndex ∧ ValidCount tileCount direction ∧
      (s.cameras.getD rowIndex.toNat .default).splitCount = 1 ∧
      (s.cameras.getD rowIndex.toNat .default).isOnline = true
  · obtain ⟨hr, hv, h1, hon⟩ := hc
    obtain ⟨before, after, -, hs⟩ := s.exists_splitting autoSplit hr hv h1 hon
    exact h.of_splitting hs h1 hv
  · rw [splitSlotAtIndex_of_not autoSplit hc]
    exact ⟨l, h⟩

theorem Shows.splitSlot (h : Shows l s) (rowIndex tileCount direction : ℤ) :
    ∃ l', Shows l' (s.splitSlot rowIndex tileCount direction).1 :=
  h.splitSlotAtIndex _ _ _ _

theorem Shows.autoSplitForIndex (h : Shows l s) (autoSplit : String → ℤ) (rowIndex : ℤ) :
    ∃ l', Shows l' (CameraModel.autoSplitForIndex autoSplit s rowIndex).1 := by
  unfold CameraModel.autoSplitForIndex
  dsimp only
  split_ifs
  · exact ⟨l, h⟩
  · exact h.splitSlotAtIndex _ _ _ _

theorem Shows.applyAutoSplitForSlot (h : Shows l s) (autoSplit : String → ℤ) (slotId : ℤ) :
    ∃ l', Shows l' (CameraModel.applyAutoSplitForSlot autoSplit s slotId).1 := by
  unfold CameraModel.applyAutoSplitForSlot
  split
  · exact ⟨l, h⟩
  · exact h.autoSplitForIndex autoSplit _

/-! ## Merges -/

/-- **Removing rows from the back**: what is removed and what stays are the rows there were, and a
row in front of all the removed ones stays where it is. -/
theorem removeRows_perm (positions : List ℕ) (s : CameraModel)
    (hsorted : positions.Pairwise (· < ·)) (hlt : ∀ p ∈ positions, p < s.cameras.length) :
    s.cameras.Perm (positions.map (fun p => s.cameras.getD p .default) ++
        (s.removeRows positions).cameras) ∧
      (∀ k, (∀ p ∈ positions, k < p) →
        (s.removeRows positions).cameras[k]? = s.cameras[k]?) ∧
      (s.removeRows positions).cameras.Sublist s.cameras := by
  induction positions with
  | nil => exact ⟨List.Perm.refl _, fun _ _ => rfl, List.Sublist.refl _⟩
  | cons p ps ih =>
    obtain ⟨hp, hps⟩ := List.pairwise_cons.mp hsorted
    obtain ⟨h1, h2, h3⟩ := ih hps fun q hq => hlt q (List.mem_cons_of_mem _ hq)
    have hpl := hlt p List.mem_cons_self
    have hkeep := h2 p hp
    rw [List.getElem?_eq_getElem hpl] at hkeep
    obtain ⟨hpl', hpe⟩ := List.getElem?_eq_some_iff.mp hkeep
    have hstep : (s.removeRows (p :: ps)).cameras = (s.removeRows ps).cameras.eraseIdx p := rfl
    refine ⟨?_, fun k hk => ?_, ?_⟩
    · rw [hstep, List.map_cons, List.getD_eq_getElem _ _ hpl, ← hpe]
      refine h1.trans ?_
      rw [List.cons_append]
      refine List.Perm.trans ?_ List.perm_middle
      refine List.Perm.append_left _ ?_
      rw [List.eraseIdx_eq_take_drop_succ]
      refine List.Perm.trans (List.Perm.of_eq ?_) List.perm_middle
      rw [List.getElem_cons_drop, List.take_append_drop]
    · rw [hstep, List.getElem?_eraseIdx_of_lt (hk p List.mem_cons_self)]
      exact h2 k fun q hq => hk q (List.mem_cons_of_mem _ hq)
    · rw [hstep]
      exact (List.eraseIdx_sublist _ _).trans h3

theorem map_getD_range {α : Type} (l : List α) (d : α) :
    (List.range l.length).map (fun i => l.getD i d) = l := by
  refine List.ext_getElem (by simp) fun i h1 h2 => ?_
  rw [List.getElem_map, List.getElem_range, List.getD_eq_getElem _ _ h2]

theorem map_groupIndices (s : CameraModel) (g : ℤ) :
    (s.groupIndices g).map (fun i => s.cameras.getD i .default) =
      s.cameras.filter fun cam => cam.splitGroupId = g := by
  conv_rhs => rw [← map_getD_range s.cameras .default, List.filter_map]
  rfl

theorem groupIndices_sorted (s : CameraModel) (g : ℤ) :
    (s.groupIndices g).Pairwise (· < ·) := List.pairwise_lt_range.filter _

theorem groupIndices_lt (s : CameraModel) (g : ℤ) {p : ℕ} (h : p ∈ s.groupIndices g) :
    p < s.cameras.length := List.mem_range.mp (List.mem_filter.mp h).1

/-- **What a merge does to the rows**: the group's first row is rewritten, its other rows go. -/
theorem mergeRows_perm (s : CameraModel) (g : ℤ) {firstPos : ℕ} {rest : List ℕ}
    (hi : s.groupIndices g = firstPos :: rest) :
    ∃ before after first,
      ((s.removeRows rest).modifyRow firstPos mergedEntry).cameras =
        before ++ mergedEntry first :: after ∧
      (before ++ first :: after).Sublist s.cameras ∧
      first.splitGroupId = g ∧
      s.cameras.Perm ((s.cameras.filter fun cam => cam.splitGroupId = g) ++ (before ++ after)) ∧
      before.length = firstPos := by
  have hsorted := groupIndices_sorted s g
  have hmap := map_groupIndices s g
  have hlt : ∀ p ∈ firstPos :: rest, p < s.cameras.length := fun p hp =>
    groupIndices_lt s g (hi ▸ hp)
  rw [hi] at hsorted hmap
  obtain ⟨hfirst, hrest⟩ := List.pairwise_cons.mp hsorted
  obtain ⟨hperm, hkeep, hsub⟩ := removeRows_perm rest s hrest fun p hp =>
    hlt p (List.mem_cons_of_mem _ hp)
  have hf := hlt firstPos List.mem_cons_self
  have hk := hkeep firstPos hfirst
  rw [List.getElem?_eq_getElem hf] at hk
  obtain ⟨hf', hfe⟩ := List.getElem?_eq_some_iff.mp hk
  have hsplit : (s.removeRows rest).cameras = (s.removeRows rest).cameras.take firstPos ++
      s.cameras[firstPos] :: (s.removeRows rest).cameras.drop (firstPos + 1) := by
    rw [← hfe, List.getElem_cons_drop, List.take_append_drop]
  refine ⟨(s.removeRows rest).cameras.take firstPos, (s.removeRows rest).cameras.drop (firstPos + 1),
    s.cameras[firstPos], ?_, ?_, ?_, ?_, ?_⟩
  · change (s.removeRows rest).cameras.modify firstPos mergedEntry = _
    rw [List.modify_eq_take_cons_drop hf', hfe]
  · rw [← hsplit]
    exact hsub
  · have hm : s.cameras.getD firstPos .default ∈ s.cameras.filter fun cam => cam.splitGroupId = g := by
      rw [← hmap]
      exact List.mem_map_of_mem List.mem_cons_self
    rw [List.getD_eq_getElem _ _ hf] at hm
    exact of_decide_eq_true (List.mem_filter.mp hm).2
  · rw [← hmap, List.map_cons, List.getD_eq_getElem _ _ hf]
    refine hperm.trans ((List.Perm.of_eq (congrArg (_ ++ ·) hsplit)).trans ?_)
    refine (List.Perm.append_left _ List.perm_middle).trans ?_
    exact List.perm_middle
  · rw [List.length_take]
    omega

theorem group_ne_of_mem_allTiles {l' : List (String × Layout)} {g : ℤ} (hg : 1 ≤ g)
    (h : ∀ e ∈ l', e.2.group ≠ some g) {t : Tile} (ht : t ∈ allTiles l') : t.splitGroupId ≠ g := by
  obtain ⟨e, he, hte⟩ := List.mem_flatMap.mp ht
  exact fun hc => h e he ((group_of_mem_tiles hg hte).mp hc)

/-- **The group's rows are the tiles of its camera**, the other rows those of the other cameras. -/
theorem Shows.group_rows {cid : String} {ly : Layout} {g : ℤ} (h : Shows ((cid, ly) :: l) s)
    (hg : ly.group = some g) :
    ((s.cameras.filter fun cam => cam.splitGroupId = g).map tile).Perm (ly.tiles cid) ∧
      ((s.cameras.filter fun cam => cam.splitGroupId ≠ g).map tile).Perm (allTiles l) := by
  have hpos : 1 ≤ g := h.laid.pos _ List.mem_cons_self g hg
  have hin : ∀ t ∈ ly.tiles cid, t.splitGroupId = g := fun t ht =>
    (group_of_mem_tiles hpos ht).mpr hg
  have hout : ∀ t ∈ allTiles l, t.splitGroupId ≠ g := fun t ht =>
    group_ne_of_mem_allTiles hpos (h.laid.group_ne hg) ht
  have ht := h.tiles
  rw [allTiles_cons] at ht
  have hp := ht.filter fun t => t.splitGroupId = g
  have hn := ht.filter fun t => t.splitGroupId ≠ g
  have hin1 : (ly.tiles cid).filter (fun t => t.splitGroupId = g) = ly.tiles cid :=
    List.filter_eq_self.mpr fun t ht => decide_eq_true (hin t ht)
  have hin2 : (ly.tiles cid).filter (fun t => t.splitGroupId ≠ g) = [] :=
    List.filter_eq_nil_iff.mpr fun t ht => by simpa using hin t ht
  have hout1 : (allTiles l).filter (fun t => t.splitGroupId = g) = [] :=
    List.filter_eq_nil_iff.mpr fun t ht => by simpa using hout t ht
  have hout2 : (allTiles l).filter (fun t => t.splitGroupId ≠ g) = allTiles l :=
    List.filter_eq_self.mpr fun t ht => by simpa using hout t ht
  rw [List.filter_map, List.filter_append, hin1, hout1, List.append_nil] at hp
  rw [List.filter_map, List.filter_append, hin2, hout2, List.nil_append] at hn
  exact ⟨hp, hn⟩

theorem removeRows_next (positions : List ℕ) (s : CameraModel) :
    (s.removeRows positions).nextSlotId = s.nextSlotId ∧
      (s.removeRows positions).nextSplitGroupId = s.nextSplitGroupId := by
  induction positions with
  | nil => exact ⟨rfl, rfl⟩
  | cons p ps ih => exact ih

theorem others_of_perm {α : Type} {p : α → Prop} [DecidablePred p] {as bs : List α}
    (h : as.Perm (as.filter (fun a => p a) ++ bs)) :
    bs.filter (fun a => ¬ p a) = bs ∧ (as.filter fun a => ¬ p a).Perm (bs.filter fun a => ¬ p a) := by
  have hp := (h.filter fun a => decide (p a)).length_eq
  rw [List.filter_append, List.filter_filter, List.length_append] at hp
  simp only [Bool.and_self] at hp
  have hnil : bs.filter (fun a => decide (p a)) = [] := List.length_eq_zero_iff.mp (by omega)
  constructor
  · rw [List.filter_eq_self]
    intro b hb
    have := List.filter_eq_nil_iff.mp hnil b hb
    simpa using this
  · have hn := h.filter fun a => decide (¬ p a)
    have hnone : (as.filter fun a => p a).filter (fun a => decide (¬ p a)) = [] :=
      List.filter_eq_nil_iff.mpr fun a ha => by simpa using (List.mem_filter.mp ha).2
    rw [List.filter_append, hnone, List.nil_append] at hn
    exact hn

/-- The merged first row in the place of a group's rows. -/
theorem Shows.of_merge {cid : String} {ly : Layout} (h : Shows ((cid, ly) :: l) s) {g : ℤ}
    (hly : ly.group = some g) {before after : List CameraEntry} {first : CameraEntry}
    (hsub : (before ++ first :: after).Sublist s.cameras) (hfirst : first.splitGroupId = g)
    (hperm : s.cameras.Perm
      ((s.cameras.filter fun cam => cam.splitGroupId = g) ++ (before ++ after)))
    {s' : CameraModel} (hrows : s'.cameras = before ++ mergedEntry first :: after)
    (hnext : s'.nextSlotId = s.nextSlotId) (hgroup : s'.nextSplitGroupId = s.nextSplitGroupId) :
    Shows ((cid, .whole) :: l) s' := by
  obtain ⟨hin, hout⟩ := h.group_rows hly
  have hothers := others_of_perm hperm
  have hfm : first ∈ s.cameras := hsub.subset (by simp)
  have hcid : first.cameraId = cid := by
    have hm := hin.mem_iff.mp (List.mem_map_of_mem (List.mem_filter.mpr
      ⟨hfm, decide_eq_true hfirst⟩))
    exact cameraId_of_mem_tiles hm
  refine ⟨h.laid.tail.cons_whole h.laid.camera_notMem, ?_, fun e he g hg => ?_, ?_, ?_,
    fun cam hc => ?_⟩
  · rw [hrows, List.map_append, List.map_cons, allTiles_cons]
    refine List.perm_middle.trans ?_
    rw [← List.map_append, show tile (mergedEntry first) = wholeTile first.cameraId from rfl, hcid]
    refine List.Perm.cons _ ?_
    rw [← hothers.1]
    exact (hothers.2.map tile).symm.trans hout
  · rw [hgroup]
    rcases List.mem_cons.mp he with rfl | he
    · cases hg
    · exact h.groups e (List.mem_cons_of_mem _ he) g hg
  · rw [hgroup]
    exact h.nextGroup
  · rw [hrows, List.map_append, List.map_cons]
    have hids := h.slotIds.sublist (hsub.map CameraEntry.slotId)
    rw [List.map_append, List.map_cons] at hids
    exact hids
  · rw [hnext]
    rw [hrows] at hc
    rcases List.mem_append.mp hc with hc | hc
    · exact h.slotIds_lt cam (hsub.subset (List.mem_append_left _ hc))
    · rcases List.mem_cons.mp hc with rfl | hc
      · exact h.slotIds_lt first hfm
      · exact h.slotIds_lt cam (hsub.subset (List.mem_append_right _ (List.mem_cons_of_mem _ hc)))

/-- **A merge** replaces a group by its whole camera. -/
theorem Shows.mergeGroupByIndex (h : Shows l s) (anyTileRowIndex : ℤ) :
    ∃ l', Shows l' (s.mergeGroupByIndex anyTileRowIndex).1 := by
  unfold CameraModel.mergeGroupByIndex
  dsimp only
  split_ifs with hc
  · exact ⟨l, h⟩
  rw [not_or, not_or, not_not] at hc
  obtain ⟨⟨h0, hlt⟩, hcount, hgroup⟩ := hc
  have hr : anyTileRowIndex.toNat < s.cameras.length := by omega
  rw [List.getD_eq_getElem _ _ hr] at hcount hgroup ⊢
  generalize htarget : s.cameras[anyTileRowIndex.toNat] = target at *
  have hmem : target ∈ s.cameras := htarget ▸ List.getElem_mem hr
  obtain ⟨ly, l', hp, htile⟩ := exists_cons_of_mem_allTiles
    (h.tiles.mem_iff.mp (List.mem_map_of_mem hmem))
  have hly : ly.group = some target.splitGroupId := by
    rcases splitCount_of_mem_tiles htile with ⟨h1, _, _⟩ | ⟨_, hg⟩
    · exact absurd (show target.splitCount ≤ 1 from Int.le_of_eq h1) hcount
    · exact hg
  split
  · exact ⟨l, h⟩
  · exact ⟨l, h⟩
  · rename_i firstPos rest _ hi
    obtain ⟨before, after, first, hrows, hsub, hfirst, hperm, -⟩ := mergeRows_perm s _ hi
    obtain ⟨hnext, hnextGroup⟩ : ((s.removeRows rest).modifyRow firstPos mergedEntry).nextSlotId =
        s.nextSlotId ∧ ((s.removeRows rest).modifyRow firstPos mergedEntry).nextSplitGroupId =
          s.nextSplitGroupId := removeRows_next rest s
    exact ⟨(target.cameraId, .whole) :: l',
      (h.perm hp).of_merge hly hsub hfirst hperm hrows hnext hnextGroup⟩

/-! ## The store's snapshot -/

theorem Shows.mem_cameras_iff (h : Shows l s) (cid : String) :
    cid ∈ l.map Prod.fst ↔ cid ∈ s.cameras.map CameraEntry.cameraId := by
  constructor
  · intro hc
    obtain ⟨⟨_, ly⟩, he, rfl⟩ := List.mem_map.mp hc
    obtain ⟨t, ht⟩ := List.exists_mem_of_ne_nil _ (tiles_ne_nil _ ly)
    have hm := h.tiles.mem_iff.mpr (List.mem_flatMap.mpr ⟨_, he, ht⟩)
    obtain ⟨cam, hcam, rfl⟩ := List.mem_map.mp hm
    exact List.mem_map.mpr ⟨cam, hcam, cameraId_of_mem_tiles ht⟩
  · intro hc
    obtain ⟨cam, hcam, rfl⟩ := List.mem_map.mp hc
    obtain ⟨e, he, ht⟩ := List.mem_flatMap.mp (h.tiles.mem_iff.mp (List.mem_map_of_mem hcam))
    exact List.mem_map.mpr ⟨e, he, (cameraId_of_mem_tiles ht).symm⟩

theorem keys_hashInsert {β : Type} {h : List (String × β)} (hn : (h.map Prod.fst).Nodup)
    (key : String) (value : β) : ((hashInsert h key value).map Prod.fst).Nodup := by
  unfold hashInsert
  split_ifs with hk
  · have hmap : (h.map fun e => if e.1 = key then (key, value) else e).map Prod.fst =
        h.map Prod.fst := by
      rw [List.map_map]
      refine List.map_congr_left fun e _ => ?_
      simp only [Function.comp_apply]
      split_ifs with he
      · exact he.symm
      · rfl
    rw [hmap]
    exact hn
  · rw [List.map_append, List.nodup_append']
    exact ⟨hn, List.nodup_singleton _, fun x hx hy => by
      rw [List.mem_singleton.mp hy] at hx
      exact hk hx⟩

theorem keys_snapshotByCid (snapshot : List CameraData) :
    ((snapshotByCid snapshot).map Prod.fst).Nodup := by
  unfold snapshotByCid
  refine List.foldlRecOn (motive := fun (h : List (String × CameraData)) => (h.map Prod.fst).Nodup)
    snapshot _ List.nodup_nil fun h hn cam _ => ?_
  split_ifs
  · exact hn
  · exact keys_hashInsert hn _ _

theorem lookup_isSome_of_mem {β : Type} {h : List (String × β)} {e : String × β} (he : e ∈ h) :
    (h.lookup e.1).isSome = true :=
  List.lookup_isSome_iff.mpr ⟨e, he, beq_self_eq_true _⟩

theorem Shows.append_newEntry (h : Shows l s) {cid : String} (hc : cid ∉ l.map Prod.fst)
    (snap : CameraData) :
    Shows ((cid, .whole) :: l) { s with
      nextSlotId := s.nextSlotId + 1
      cameras := s.cameras ++ [newEntry s.nextSlotId cid snap] } where
  laid := h.laid.cons_whole hc
  tiles := by
    rw [List.map_append, allTiles_cons]
    exact List.perm_append_comm.trans (List.Perm.append_left _ h.tiles)
  groups := fun e he g hg => by
    rcases List.mem_cons.mp he with rfl | he
    · cases hg
    · exact h.groups e he g hg
  nextGroup := h.nextGroup
  slotIds := by
    rw [List.map_append, List.nodup_append']
    refine ⟨h.slotIds, List.nodup_singleton _, fun x hx hy => ?_⟩
    obtain ⟨cam, hcam, rfl⟩ := List.mem_map.mp hx
    have hlt := h.slotIds_lt cam hcam
    have he : cam.slotId = s.nextSlotId := List.mem_singleton.mp hy
    omega
  slotIds_lt := fun cam hcam => by
    change cam.slotId < s.nextSlotId + 1
    rcases List.mem_append.mp hcam with hcam | hcam
    · exact (h.slotIds_lt cam hcam).trans (Int.lt_succ _)
    · rw [List.mem_singleton.mp hcam]
      exact Int.lt_succ _

theorem Shows.appendNew (h : Shows l s) (streams : List (String × CameraData))
    (hn : (streams.map Prod.fst).Nodup) (hd : ∀ e ∈ streams, e.1 ∉ l.map Prod.fst) :
    ∃ l', Shows l' (s.appendNew streams) := by
  induction streams generalizing l s with
  | nil => exact ⟨l, h⟩
  | cons e streams ih =>
    obtain ⟨he, hn'⟩ := List.nodup_cons.mp hn
    refine ih (h.append_newEntry (hd e List.mem_cons_self) e.2) hn' fun e' he' hm => ?_
    rcases List.mem_cons.mp hm with hm | hm
    · exact he (List.mem_map.mpr ⟨e', he', hm⟩)
    · exact hd e' (List.mem_cons_of_mem _ he') hm

theorem tile_updateEntry (byCid : List (String × CameraData)) (cam : CameraEntry) :
    tile (updateEntry byCid cam) = tile cam := by
  unfold updateEntry
  split <;> rfl

theorem cameraId_updateEntry (byCid : List (String × CameraData)) (cam : CameraEntry) :
    (updateEntry byCid cam).cameraId = cam.cameraId := by
  unfold updateEntry
  split <;> rfl

theorem slotId_updateEntry (byCid : List (String × CameraData)) (cam : CameraEntry) :
    (updateEntry byCid cam).slotId = cam.slotId := by
  unfold updateEntry
  split <;> rfl

theorem Shows.mergeSnapshot (h : Shows l s) (order : HashOrder CameraData)
    (snapshot : List CameraData) : ∃ l', Shows l' (mergeSnapshot order s snapshot) := by
  unfold CameraModel.mergeSnapshot
  have hu : Shows l { s with cameras := s.cameras.map (updateEntry (snapshotByCid snapshot)) } := by
    refine h.of_rows (List.Perm.of_eq ?_) ?_ s.autoSplitAppliedSlotIds
    · rw [List.map_map]
      exact List.map_congr_left fun cam _ => tile_updateEntry _ cam
    · rw [List.map_map]
      exact List.map_congr_left fun cam _ => slotId_updateEntry _ cam
  have hwalk := order.perm (snapshotByCid snapshot)
  refine hu.appendNew _ ?_ fun e he hm => ?_
  · refine List.Nodup.sublist (List.filter_sublist.map _) ?_
    rw [(hwalk.map _).nodup_iff]
    exact keys_snapshotByCid snapshot
  · obtain ⟨he, hrep⟩ := List.mem_filter.mp he
    rw [decide_eq_true_eq] at hrep
    refine hrep (List.mem_filter.mpr ⟨(h.mem_cameras_iff e.1).mp hm, ?_⟩)
    exact lookup_isSome_of_mem (hwalk.mem_iff.mp he)

theorem Shows.applyAutoSplits (h : Shows l s) (autoSplit : String → ℤ) (slotIds : List ℤ) :
    ∃ l', Shows l' (CameraModel.applyAutoSplits autoSplit s slotIds).1 := by
  unfold CameraModel.applyAutoSplits
  refine List.foldlRecOn (motive := fun (r : CameraModel × List CameraSignal) => ∃ l', Shows l' r.1)
    slotIds _ ⟨l, h⟩ fun r hr slotId _ => ?_
  obtain ⟨l', h'⟩ := hr
  exact h'.applyAutoSplitForSlot autoSplit slotId

theorem Shows.onStoreUpdated (h : Shows l s) (autoSplit : String → ℤ)
    (order : HashOrder CameraData) (snapshot : List CameraData) :
    ∃ l', Shows l' (s.onStoreUpdated autoSplit order snapshot).1 := by
  obtain ⟨l', h'⟩ := h.mergeSnapshot order snapshot
  exact h'.applyAutoSplits autoSplit _

/-! ## Runs -/

theorem Shows.step (h : Shows l s) (autoSplit : String → ℤ) (op : Op) :
    ∃ l', Shows l' (s.step autoSplit op).1 := by
  cases op with
  | onStoreUpdated order snapshot => exact h.onStoreUpdated autoSplit order snapshot
  | splitSlot rowIndex tileCount direction => exact h.splitSlot rowIndex tileCount direction
  | mergeSlots anyTileRowIndex => exact h.mergeGroupByIndex anyTileRowIndex
  | swapSlots indexA indexB => exact ⟨l, h.swapSlots indexA indexB⟩
  | applyAutoSplitForSlot slotId => exact h.applyAutoSplitForSlot autoSplit slotId
  | setOnline index online => exact ⟨l, h.setOnline index online⟩
  | setData row edit => exact ⟨l, h.setData row edit⟩
  | updateSensorInfo cameraId info => exact ⟨l, h.updateSensorInfo cameraId info⟩
  | clearAll => exact ⟨[], shows_empty⟩

theorem exists_shows (autoSplit : String → ℤ) (ops : List Op) :
    ∃ l, Shows l (Machine.final (CameraModel.step autoSplit) empty ops) := by
  refine Machine.invariant (CameraModel.step autoSplit) (fun s => ∃ l, Shows l s) (fun _ => True)
    ⟨[], shows_empty⟩ (fun s op _ hs => ?_) ops fun _ _ => trivial
  obtain ⟨l, h⟩ := hs
  exact h.step autoSplit op

/-- **The rows of a camera are its tiles.** -/
theorem Shows.camera_rows {cid : String} {ly : Layout} (h : Shows ((cid, ly) :: l) s) :
    ((s.rowsOf cid).map tile).Perm (ly.tiles cid) := by
  have hin : (ly.tiles cid).filter (fun t => t.cameraId = cid) = ly.tiles cid :=
    List.filter_eq_self.mpr fun t ht => decide_eq_true (cameraId_of_mem_tiles ht)
  have hout : (allTiles l).filter (fun t => t.cameraId = cid) = [] := by
    refine List.filter_eq_nil_iff.mpr fun t ht => ?_
    obtain ⟨e, he, hte⟩ := List.mem_flatMap.mp ht
    have hne : t.cameraId ≠ cid := fun hc => h.laid.camera_notMem
      (List.mem_map.mpr ⟨e, he, (cameraId_of_mem_tiles hte).symm.trans hc⟩)
    simpa using hne
  have ht := h.tiles.filter fun t => t.cameraId = cid
  rw [List.filter_map, allTiles_cons, List.filter_append, hin, hout, List.append_nil] at ht
  exact ht

theorem Shows.isWhole {cid : String} (h : Shows ((cid, .whole) :: l) s) : s.IsWhole cid := by
  have hp := List.perm_singleton.mp h.camera_rows
  match hrows : s.rowsOf cid with
  | [] => rw [hrows] at hp; cases hp
  | [cam] =>
    rw [hrows] at hp
    have ht : tile cam = wholeTile cid := (List.cons.inj hp).1
    exact ⟨cam, hrows, congrArg Tile.splitCount ht, congrArg Tile.splitGroupId ht,
      congrArg Tile.splitIndex ht, congrArg Tile.cropRect ht⟩
  | _ :: _ :: _ => rw [hrows] at hp; cases (List.cons.inj hp).2

theorem Shows.isSplit {cid : String} {g n : ℤ} {d : SplitDirection} {hv : ValidCount n d}
    (h : Shows ((cid, .split g n d hv) :: l) s) : s.IsSplit cid g d := by
  have hp := h.camera_rows
  have hn := two_le_of_validCount hv
  have hlen : (s.rowsOf cid).length = n.toNat := by
    have := hp.length_eq
    simpa [Layout.tiles] using this
  have hrow : ∀ cam ∈ s.rowsOf cid, ∃ i < n.toNat, tile cam = splitTile cid g n d i := by
    intro cam hc
    obtain ⟨i, hi, he⟩ := List.mem_map.mp (hp.mem_iff.mp (List.mem_map_of_mem hc))
    exact ⟨i, List.mem_range.mp hi, he.symm⟩
  have hcount : ∀ cam ∈ s.rowsOf cid, cam.splitCount = n := fun cam hc => by
    obtain ⟨i, _, hi⟩ := hrow cam hc
    exact congrArg Tile.splitCount hi
  refine ⟨h.laid.pos _ List.mem_cons_self g rfl, h.groups _ List.mem_cons_self g rfl,
    fun cam hc => ?_, fun cam hc => ?_, fun cam hc => ?_, ?_, ?_⟩
  · constructor
    · intro hg
      have hm := (h.group_rows rfl).1.mem_iff.mp
        (List.mem_map_of_mem (List.mem_filter.mpr ⟨hc, decide_eq_true hg⟩))
      exact cameraId_of_mem_tiles hm
    · intro hcid
      obtain ⟨i, _, hi⟩ := hrow cam (List.mem_filter.mpr ⟨hc, decide_eq_true hcid⟩)
      exact congrArg Tile.splitGroupId hi
  · rw [hcount cam hc, hlen]
    omega
  · obtain ⟨i, _, hi⟩ := hrow cam hc
    have hd := congrArg Tile.direction hi
    have h1 : cam.splitCount ≠ 1 := by rw [hcount cam hc]; omega
    simp only [tile, h1, if_false] at hd
    exact hd
  · have := hp.map Tile.splitIndex
    rw [List.map_map, Layout.tiles, List.map_map] at this
    rw [hlen]
    exact this
  · have := hp.map Tile.cropRect
    rw [List.map_map, Layout.tiles, List.map_map] at this
    exact (tiles_cropRects hv).perm this.symm

theorem Shows.slotGrid (h : Shows l s) : SlotGrid s := by
  refine ⟨h.slotIds, h.slotIds_lt, fun cam hc => ?_⟩
  obtain ⟨ly, l', hp, _⟩ := exists_cons_of_mem_allTiles
    (h.tiles.mem_iff.mp (List.mem_map_of_mem hc))
  cases ly with
  | whole => exact Or.inl (h.perm hp).isWhole
  | split g n d hv => exact Or.inr ⟨g, d, (h.perm hp).isSplit⟩

/-- **Every reachable state is a slot grid.** -/
theorem slot_grid (autoSplit : String → ℤ) (ops : List Op) :
    SlotGrid (Machine.final (CameraModel.step autoSplit) empty ops) := by
  obtain ⟨l, h⟩ := exists_shows autoSplit ops
  exact h.slotGrid

end CameraModel

end Models

end AnoMap
