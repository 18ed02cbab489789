import AnoMap.Models.SlotGrid
import Mathlib.Logic.Function.Basic

/-!
# The sensor readings of a camera

Readings are stored in the rows, and asked for by camera. Neither a swap nor a split moves them
along with the camera.

* `lastReading`: the readings that were last reported for a camera while it had a row.
* `Follows`: every row holds the readings of its camera.
* `Keeps`: a swap is one of rows with the same readings or the same camera, and a row that is split
  holds zeros.
* **`sensor_readings`**: in a run whose operations all meet `Keeps`, the camera model answers with
  the last readings of the camera asked for.
-/

set_option autoImplicit false

namespace AnoMap

namespace Models

open Domain

namespace CameraModel

/-! ## The statement -/

/-- What is known of the readings after an operation. -/
def record (s : CameraModel) (m : String → DeviceInfo) : Op → String → DeviceInfo
  | .updateSensorInfo cameraId info =>
    if cameraId ∈ s.cameras.map CameraEntry.cameraId then Function.update m cameraId info else m
  | .clearAll => fun _ => .zero
  | _ => m

/-- The model with what is known of the readings. -/
def recordStep (autoSplit : String → ℤ) (s : CameraModel × (String → DeviceInfo)) (op : Op) :
    (CameraModel × (String → DeviceInfo)) × List CameraSignal :=
  (((s.1.step autoSplit op).1, record s.1 s.2 op), (s.1.step autoSplit op).2)

/-- The values of the last `updateSensorInfo` for the camera while it had a row, since the last
`clearAll`. -/
def lastReading (autoSplit : String → ℤ) (ops : List Op) : String → DeviceInfo :=
  (Machine.final (recordStep autoSplit) (empty, fun _ => .zero) ops).2

/-- The model after a run. -/
def reach (autoSplit : String → ℤ) (ops : List Op) : CameraModel :=
  Machine.final (step autoSplit) empty ops

/-- **The readings follow the cameras.** -/
def ReadingsFollow (autoSplit : String → ℤ) (ops : List Op) : Prop :=
  ∀ cam ∈ (reach autoSplit ops).cameras,
    (reach autoSplit ops).sensorInfoForCameraId cam.cameraId =
      some (lastReading autoSplit ops cam.cameraId)

instance (autoSplit : String → ℤ) (ops : List Op) : Decidable (ReadingsFollow autoSplit ops) :=
  inferInstanceAs (Decidable (∀ _ ∈ _, _))

/-- The row is split when it is asked to. -/
def Splits (entry : CameraEntry) (tileCount : ℤ) (direction : SplitDirection) : Prop :=
  ValidCount tileCount direction ∧ entry.splitCount = 1 ∧ entry.isOnline = true

instance (entry : CameraEntry) (tileCount : ℤ) (direction : SplitDirection) :
    Decidable (Splits entry tileCount direction) := inferInstanceAs (Decidable (_ ∧ _))

/-- The row is split automatically. -/
def AutoSplits (autoSplit : String → ℤ) (s : CameraModel) (entry : CameraEntry) : Prop :=
  entry.slotId ∉ s.autoSplitAppliedSlotIds ∧ Splits entry (autoSplit entry.cameraId) .col

instance (autoSplit : String → ℤ) (s : CameraModel) (entry : CameraEntry) :
    Decidable (AutoSplits autoSplit s entry) := inferInstanceAs (Decidable (_ ∧ _))

/-- `cameras_[row]`. -/
def rowAt (s : CameraModel) (row : ℤ) : CameraEntry := s.cameras.getD row.toNat .default

theorem IsRow.rowAt_mem {s : CameraModel} {row : ℤ} (h : s.IsRow row) :
    s.rowAt row ∈ s.cameras := by
  have hl : row.toNat < s.cameras.length := by
    have := h.1
    have := h.2
    omega
  rw [rowAt, List.getD_eq_getElem _ _ hl]
  exact List.getElem_mem hl

/-- The direction that `splitSlot` reads from its argument. -/
def directionOf (direction : ℤ) : SplitDirection :=
  if direction = 2 then .grid else if direction = 1 then .row else .col

/-- The two rows have the same camera or the same readings. -/
def SwapKeeps (s : CameraModel) (indexA indexB : ℤ) : Prop :=
  s.IsRow indexA → s.IsRow indexB → (s.rowAt indexA).cameraId = (s.rowAt indexB).cameraId ∨
    (s.rowAt indexA).deviceInfo = (s.rowAt indexB).deviceInfo

instance (s : CameraModel) (indexA indexB : ℤ) : Decidable (s.SwapKeeps indexA indexB) := by
  unfold SwapKeeps
  infer_instance

/-- If the row is split, it holds zeros. -/
def SplitKeeps (s : CameraModel) (rowIndex tileCount : ℤ) (direction : SplitDirection) : Prop :=
  s.IsRow rowIndex → Splits (s.rowAt rowIndex) tileCount direction →
    (s.rowAt rowIndex).deviceInfo = .zero

instance (s : CameraModel) (rowIndex tileCount : ℤ) (direction : SplitDirection) :
    Decidable (s.SplitKeeps rowIndex tileCount direction) := by
  unfold SplitKeeps
  infer_instance

/-- The rows satisfying `p` that are split automatically, as `f` leaves them, hold zeros. -/
def AutoKeeps (autoSplit : String → ℤ) (s : CameraModel) (p : CameraEntry → Bool)
    (f : CameraEntry → CameraEntry) : Prop :=
  ∀ entry ∈ s.cameras, p entry = true → AutoSplits autoSplit s (f entry) → entry.deviceInfo = .zero

instance (autoSplit : String → ℤ) (s : CameraModel) (p : CameraEntry → Bool)
    (f : CameraEntry → CameraEntry) : Decidable (AutoKeeps autoSplit s p f) := by
  unfold AutoKeeps
  infer_instance

/-- **The condition.** Two rows change places only with the same camera or the same readings, and a
row that is split holds zeros. -/
def Keeps (autoSplit : String → ℤ) (s : CameraModel) : Op → Prop
  | .swapSlots indexA indexB => s.SwapKeeps indexA indexB
  | .splitSlot rowIndex tileCount direction =>
    s.SplitKeeps rowIndex tileCount (directionOf direction)
  | .applyAutoSplitForSlot slotId => AutoKeeps autoSplit s (·.slotId = slotId) id
  | .onStoreUpdated _ snapshot =>
    AutoKeeps autoSplit s (fun _ => true) (updateEntry (snapshotByCid snapshot))
  | .mergeSlots _ | .setOnline _ _ | .setData _ _ | .updateSensorInfo _ _ | .clearAll => True

instance (autoSplit : String → ℤ) (s : CameraModel) : ∀ op, Decidable (Keeps autoSplit s op)
  | .swapSlots indexA indexB => (inferInstance : Decidable (s.SwapKeeps indexA indexB))
  | .splitSlot rowIndex tileCount direction =>
    (inferInstance : Decidable (s.SplitKeeps rowIndex tileCount (directionOf direction)))
  | .applyAutoSplitForSlot slotId =>
    (inferInstance : Decidable (AutoKeeps autoSplit s (·.slotId = slotId) id))
  | .onStoreUpdated _ snapshot => (inferInstance :
      Decidable (AutoKeeps autoSplit s (fun _ => true) (updateEntry (snapshotByCid snapshot))))
  | .mergeSlots _ | .setOnline _ _ | .setData _ _ | .updateSensorInfo _ _ | .clearAll =>
    isTrue trivial

/-! ## What follows the cameras -/

/-- Every row holds the readings of its camera, and nothing is known of a camera without a row. -/
structure Follows (s : CameraModel) (m : String → DeviceInfo) : Prop where
  rows : ∀ cam ∈ s.cameras, cam.deviceInfo = m cam.cameraId
  absent : ∀ cid, cid ∉ s.cameras.map CameraEntry.cameraId → m cid = .zero

variable {s : CameraModel} {m : String → DeviceInfo}

theorem follows_empty : Follows empty fun _ => .zero := 
  ⟨fun _ hc => absurd hc List.not_mem_nil, fun _ _ => rfl⟩

theorem Follows.sensorInfo (h : s.Follows m) {cam : CameraEntry} (hc : cam ∈ s.cameras) :
    s.sensorInfoForCameraId cam.cameraId = some (m cam.cameraId) := by
  unfold sensorInfoForCameraId
  cases hf : s.cameras.find? fun entry => entry.cameraId = cam.cameraId with
  | none =>
    have := List.find?_eq_none.mp hf cam hc
    simp at this
  | some first =>
    have hid : first.cameraId = cam.cameraId := by simpa using List.find?_some hf
    rw [Option.map_some, h.rows first (List.mem_of_find?_eq_some hf), hid]

theorem Follows.of_mem (h : s.Follows m) {t : CameraModel}
    (hsub : ∀ cam ∈ t.cameras, ∃ old ∈ s.cameras, cam.cameraId = old.cameraId ∧
      cam.deviceInfo = old.deviceInfo)
    (hsup : ∀ old ∈ s.cameras, ∃ cam ∈ t.cameras, cam.cameraId = old.cameraId) : t.Follows m where
  rows := fun cam hc => by
    obtain ⟨old, ho, hid, hinfo⟩ := hsub cam hc
    rw [hid, hinfo]
    exact h.rows old ho
  absent := fun cid hc => h.absent cid fun hm => by
    obtain ⟨old, ho, rfl⟩ := List.mem_map.mp hm
    obtain ⟨cam, hcam, hid⟩ := hsup old ho
    exact hc (List.mem_map.mpr ⟨cam, hcam, hid⟩)

theorem Follows.of_map (h : s.Follows m) {t : CameraModel} {f : CameraEntry → CameraEntry}
    (ht : t.cameras = s.cameras.map f) (hid : ∀ cam, (f cam).cameraId = cam.cameraId)
    (hinfo : ∀ cam, (f cam).deviceInfo = cam.deviceInfo) : t.Follows m := by
  refine h.of_mem (fun cam hc => ?_) fun old ho => ?_
  · rw [ht] at hc
    obtain ⟨old, ho, rfl⟩ := List.mem_map.mp hc
    exact ⟨old, ho, hid old, hinfo old⟩
  · exact ⟨f old, by rw [ht]; exact List.mem_map_of_mem ho, hid old⟩

theorem Follows.modifyRow (h : s.Follows m) (row : ℤ) {f : CameraEntry → CameraEntry}
    (hid : ∀ cam, (f cam).cameraId = cam.cameraId)
    (hinfo : ∀ cam, (f cam).deviceInfo = cam.deviceInfo) : (s.modifyRow row f).Follows m := by
  have hids : (s.modifyRow row f).cameras.map CameraEntry.cameraId =
      s.cameras.map CameraEntry.cameraId := map_modify_of_eq _ hid _ _
  have hpairs : (s.modifyRow row f).cameras.map (fun cam => (cam.cameraId, cam.deviceInfo)) =
      s.cameras.map fun cam => (cam.cameraId, cam.deviceInfo) :=
    map_modify_of_eq (fun cam : CameraEntry => (cam.cameraId, cam.deviceInfo))
      (fun cam => by rw [hid, hinfo]) _ _
  refine ⟨fun cam hc => ?_, fun cid hc => h.absent cid (by rwa [hids] at hc)⟩
  have hm := List.mem_map_of_mem (f := fun cam : CameraEntry => (cam.cameraId, cam.deviceInfo)) hc
  rw [hpairs] at hm
  obtain ⟨old, ho, he⟩ := List.mem_map.mp hm
  obtain ⟨h1, h2⟩ := Prod.mk.inj he
  rw [← h1, ← h2]
  exact h.rows old ho

theorem Follows.setOnline (h : s.Follows m) (index : ℤ) (online : Bool) :
    (s.setOnline index online).Follows m := by
  unfold CameraModel.setOnline
  split_ifs
  · exact h.modifyRow _ (fun _ => rfl) fun _ => rfl
  · exact h

theorem Follows.setData (h : s.Follows m) (row : ℤ) (edit : EditRole) :
    (s.setData row edit).Follows m := by
  unfold CameraModel.setData
  split_ifs
  · cases edit <;> first | exact h.modifyRow _ (fun _ => rfl) fun _ => rfl | exact h
  · exact h

theorem Follows.updateSensorInfo (h : s.Follows m) (cameraId : String) (info : DeviceInfo) :
    (s.updateSensorInfo cameraId info).1.Follows
      (s.record m (.updateSensorInfo cameraId info)) := by
  have hids : (s.updateSensorInfo cameraId info).1.cameras.map CameraEntry.cameraId =
      s.cameras.map CameraEntry.cameraId := by
    simp only [CameraModel.updateSensorInfo, List.map_map]
    refine List.map_congr_left fun cam _ => ?_
    simp only [Function.comp_apply]
    split_ifs <;> rfl
  refine ⟨fun cam hc => ?_, fun cid hc => ?_⟩
  · obtain ⟨old, ho, rfl⟩ := List.mem_map.mp hc
    by_cases he : old.cameraId = cameraId
    · have hm : cameraId ∈ s.cameras.map CameraEntry.cameraId := he ▸ List.mem_map_of_mem ho
      simp only [record, hm, if_true, he, Function.update_self]
    · simp only [record, he, if_false]
      split_ifs
      · rw [Function.update_of_ne he]
        exact h.rows old ho
      · exact h.rows old ho
  · rw [hids] at hc
    simp only [record]
    split_ifs with hm
    · have hne : cid ≠ cameraId := fun he => hc (by rwa [he])
      rw [Function.update_of_ne hne]
      exact h.absent cid hc
    · exact h.absent cid hc

/-! ## Swaps -/

/-- **A swap** of rows with the same camera or the same readings. -/
theorem Follows.swapSlots (h : s.Follows m) {indexA indexB : ℤ}
    (hk : s.SwapKeeps indexA indexB) :
    (s.swapSlots indexA indexB).1.Follows m := by
  unfold CameraModel.swapSlots
  split_ifs with hc
  · obtain ⟨hA, hB, hne⟩ := hc
    have hk := hk hA hB
    have hlA : indexA.toNat < s.cameras.length := by have := hA.2; have := hA.1; omega
    have hlB : indexB.toNat < s.cameras.length := by have := hB.2; have := hB.1; omega
    have hij : indexA.toNat ≠ indexB.toNat := by have := hA.1; have := hB.1; omega
    rw [rowAt, rowAt, List.getD_eq_getElem _ _ hlA, List.getD_eq_getElem _ _ hlB] at hk
    rw [List.getD_eq_getElem _ _ hlA, List.getD_eq_getElem _ _ hlB]
    have ha := List.getElem_mem hlA
    have hb := List.getElem_mem hlB
    refine h.of_mem (fun cam hcam => ?_) fun old ho => ?_
    · rcases List.mem_or_eq_of_mem_set hcam with hcam | rfl
      · rcases List.mem_or_eq_of_mem_set hcam with hcam | rfl
        · exact ⟨cam, hcam, rfl, rfl⟩
        · rcases hk with hk | hk
          · exact ⟨_, ha, hk.symm, rfl⟩
          · exact ⟨_, hb, rfl, hk⟩
      · rcases hk with hk | hk
        · exact ⟨_, hb, hk, rfl⟩
        · exact ⟨_, ha, rfl, hk.symm⟩
    · obtain ⟨j, hj, rfl⟩ := List.getElem_of_mem ho
      by_cases hjA : j = indexA.toNat
      · subst hjA
        exact ⟨_, List.mem_set (by rwa [List.length_set]) _, rfl⟩
      by_cases hjB : j = indexB.toNat
      · subst hjB
        refine ⟨takeContent (s.cameras[indexA.toNat]) (s.cameras[indexB.toNat]),
          List.mem_iff_getElem.mpr ⟨indexA.toNat, by simpa using hlA, ?_⟩, rfl⟩
        rw [List.getElem_set_ne hij.symm, List.getElem_set_self]
      · refine ⟨_, List.mem_iff_getElem.mpr ⟨j, by simpa using hj, ?_⟩, rfl⟩
        rw [List.getElem_set_ne (Ne.symm hjB), List.getElem_set_ne (Ne.symm hjA)]
  · exact h

/-! ## Splits -/

/-- **A split** of a row that holds zeros. -/
theorem Follows.of_splitting (h : s.Follows m) {before after : List CameraEntry}
    {original : CameraEntry} {tileCount : ℤ} {direction : SplitDirection} {autoSplit : Bool}
    {s' : CameraModel} (hs : Splitting s before original after tileCount direction autoSplit s')
    (hv : ValidCount tileCount direction) (hz : original.deviceInfo = .zero) : s'.Follows m := by
  have hn := two_le_of_validCount hv
  have hmem : ∀ cam, cam ∈ s.cameras ↔ cam ∈ before ∨ cam = original ∨ cam ∈ after := by
    simp [hs.rows]
  have hmem' : ∀ cam, cam ∈ s'.cameras ↔
      cam ∈ before ∨ cam ∈ s.tilesOf original tileCount direction ∨ cam ∈ after := by
    simp [hs.cameras]
  refine h.of_mem (fun cam hcam => ?_) fun old ho => ?_
  · rcases (hmem' cam).mp hcam with hcam | hcam | hcam
    · exact ⟨cam, (hmem cam).mpr (.inl hcam), rfl, rfl⟩
    · -- a tile holds zeros, as the row did
      obtain ⟨k, -, rfl⟩ := List.mem_map.mp hcam
      exact ⟨original, (hmem original).mpr (.inr (.inl rfl)), rfl, hz.symm⟩
    · exact ⟨cam, (hmem cam).mpr (.inr (.inr hcam)), rfl, rfl⟩
  · rcases (hmem old).mp ho with ho | rfl | ho
    · exact ⟨old, (hmem' old).mpr (.inl ho), rfl⟩
    · have hfirst : tileEntry old (s.nextSlotId + (0 : ℕ)) s.nextSplitGroupId tileCount direction
          (0 + 0) ∈ s.tilesOf old tileCount direction :=
        List.mem_map.mpr ⟨0, List.mem_range.mpr (by omega), rfl⟩
      exact ⟨_, (hmem' _).mpr (.inr (.inl hfirst)), rfl⟩
    · exact ⟨old, (hmem' old).mpr (.inr (.inr ho)), rfl⟩

theorem Follows.splitSlotAtIndex (h : s.Follows m) {rowIndex tileCount : ℤ}
    {direction : SplitDirection} (hk : s.SplitKeeps rowIndex tileCount direction)
    (autoSplit : Bool) :
    (s.splitSlotAtIndex rowIndex tileCount direction autoSplit).1.Follows m := by
  by_cases hc : s.IsRow rowIndex ∧ Splits (s.rowAt rowIndex) tileCount direction
  · obtain ⟨hr, hs⟩ := hc
    obtain ⟨before, after, -, hsplit⟩ := s.exists_splitting autoSplit hr hs.1 hs.2.1 hs.2.2
    exact h.of_splitting hsplit hs.1 (hk hr hs)
  · rw [splitSlotAtIndex_of_not autoSplit hc]
    exact h

/-- The rows that are split automatically hold zeros. -/
def AllKeep (autoSplit : String → ℤ) (s : CameraModel) : Prop :=
  ∀ entry ∈ s.cameras, AutoSplits autoSplit s entry → entry.deviceInfo = .zero

theorem exists_auto_splitting {autoSplit : String → ℤ} {rowIndex : ℤ} (hr : s.IsRow rowIndex)
    (ha : AutoSplits autoSplit s (s.rowAt rowIndex)) :
    ∃ before after, before.length = rowIndex.toNat ∧
      Splitting s before (s.rowAt rowIndex) after (autoSplit (s.rowAt rowIndex).cameraId) .col true
        (CameraModel.autoSplitForIndex autoSplit s rowIndex).1 := by
  have hsplit := s.exists_splitting true hr ha.2.1 ha.2.2.1 ha.2.2.2
  unfold CameraModel.autoSplitForIndex
  dsimp only
  rw [if_neg]
  · exact hsplit
  · rw [not_or, not_or, not_or, not_not]
    exact ⟨hr, by rw [show (s.cameras.getD _ _).isOnline = true from ha.2.2.2]; decide,
      fun h => h ha.2.2.1, ha.1⟩

theorem autoSplitForIndex_of_not {autoSplit : String → ℤ} {rowIndex : ℤ}
    (h : s.IsRow rowIndex → ¬ AutoSplits autoSplit s (s.rowAt rowIndex)) :
    CameraModel.autoSplitForIndex autoSplit s rowIndex = (s, []) := by
  unfold CameraModel.autoSplitForIndex
  dsimp only
  split_ifs with hc
  · rfl
  · rw [not_or, not_or, not_or, not_not] at hc
    exact splitSlotAtIndex_of_not true fun hs => h hs.1 ⟨hc.2.2.2, hs.2⟩

/-- An automatic split leaves fewer rows to be split. -/
theorem AllKeep.autoSplitForIndex {autoSplit : String → ℤ} (h : AllKeep autoSplit s) (rowIndex : ℤ) :
    AllKeep autoSplit (CameraModel.autoSplitForIndex autoSplit s rowIndex).1 := by
  by_cases hc : s.IsRow rowIndex ∧ AutoSplits autoSplit s (s.rowAt rowIndex)
  · obtain ⟨before, after, -, hsplit⟩ := exists_auto_splitting hc.1 hc.2
    rintro entry hm ⟨hid, hsp⟩
    rw [hsplit.applied, not_and_or, not_not] at hid
    -- a row that was there before could be split before
    have hold : entry ∈ s.cameras → entry.deviceInfo = .zero := fun hm => by
      refine h entry hm ⟨fun hin => ?_, hsp⟩
      rcases hid with he | hid
      · exact hc.2.1 (he ▸ hin)
      · exact hid (.inl hin)
    rw [hsplit.cameras, List.append_assoc, List.mem_append, List.mem_append] at hm
    rcases hm with hm | hm | hm
    · exact hold (by rw [hsplit.rows]; simp [hm])
    · obtain ⟨k, -, rfl⟩ := List.mem_map.mp hm
      rfl
    · exact hold (by rw [hsplit.rows]; simp [hm])
  · rw [autoSplitForIndex_of_not fun hr ha => hc ⟨hr, ha⟩]
    exact h

theorem Follows.autoSplitForIndex (h : s.Follows m) {autoSplit : String → ℤ} {rowIndex : ℤ}
    (hk : s.IsRow rowIndex → AutoSplits autoSplit s (s.rowAt rowIndex) →
      (s.rowAt rowIndex).deviceInfo = .zero) :
    (CameraModel.autoSplitForIndex autoSplit s rowIndex).1.Follows m := by
  by_cases hc : s.IsRow rowIndex ∧ AutoSplits autoSplit s (s.rowAt rowIndex)
  · obtain ⟨before, after, -, hsplit⟩ := exists_auto_splitting hc.1 hc.2
    exact h.of_splitting hsplit hc.2.2.1 (hk hc.1 hc.2)
  · rw [autoSplitForIndex_of_not fun hr ha => hc ⟨hr, ha⟩]
    exact h

theorem Follows.applyAutoSplitForSlot (h : s.Follows m) {autoSplit : String → ℤ} {slotId : ℤ}
    (hk : AutoKeeps autoSplit s (·.slotId = slotId) id) :
    (CameraModel.applyAutoSplitForSlot autoSplit s slotId).1.Follows m := by
  unfold CameraModel.applyAutoSplitForSlot indexBySlotId
  split
  · exact h
  · next idx hi =>
    obtain ⟨hl, hid, -⟩ := List.findIdx?_eq_some_iff_getElem.mp hi
    refine h.autoSplitForIndex fun _ => ?_
    rw [rowAt, Int.toNat_natCast, List.getD_eq_getElem _ _ hl]
    exact hk _ (List.getElem_mem hl) hid

theorem Follows.applyAutoSplits (h : s.Follows m) {autoSplit : String → ℤ}
    (hk : AllKeep autoSplit s) (slotIds : List ℤ) :
    (CameraModel.applyAutoSplits autoSplit s slotIds).1.Follows m := by
  unfold CameraModel.applyAutoSplits
  refine (List.foldlRecOn (motive := fun (r : CameraModel × List CameraSignal) =>
    r.1.Follows m ∧ AllKeep autoSplit r.1) slotIds _ ⟨h, hk⟩ fun r hr slotId _ => ?_).1
  refine ⟨hr.1.applyAutoSplitForSlot fun entry hm _ => hr.2 entry hm, ?_⟩
  dsimp only
  unfold CameraModel.applyAutoSplitForSlot
  split
  · exact hr.2
  · exact hr.2.autoSplitForIndex _

/-! ## Merges -/

/-- **A merge** keeps the first row of the group, and every row of the group has its camera. -/
theorem Follows.mergeGroupByIndex (h : s.Follows m) (hg : SlotGrid s) (anyTileRowIndex : ℤ) :
    (s.mergeGroupByIndex anyTileRowIndex).1.Follows m := by
  unfold CameraModel.mergeGroupByIndex
  dsimp only
  split_ifs with hc
  · exact h
  rw [not_or, not_or, not_not] at hc
  obtain ⟨-, -, hgroup⟩ := hc
  generalize s.cameras.getD anyTileRowIndex.toNat .default = target at *
  split
  · exact h
  · exact h
  · next firstPos rest _ hi =>
    obtain ⟨before, after, first, hrows, hsub, hfirst, hperm, -⟩ := mergeRows_perm s _ hi
    have hfm : first ∈ s.cameras := hsub.subset (by simp)
    have hcamera : ∀ cam ∈ s.cameras, cam.splitGroupId = target.splitGroupId →
        cam.cameraId = first.cameraId := by
      intro cam hcam heq
      rcases hg.camera first hfm with ⟨only, honly, -, hminus, -⟩ | ⟨g, d, hsplit⟩
      · have hin : first ∈ s.rowsOf first.cameraId :=
          List.mem_filter.mpr ⟨hfm, decide_eq_true rfl⟩
        rw [honly] at hin
        rw [← List.mem_singleton.mp hin, hfirst] at hminus
        omega
      · have := (hsplit.group first hfm).mpr rfl
        exact (hsplit.group cam hcam).mp (by rw [heq, ← hfirst, this])
    refine h.of_mem (fun cam hcam => ?_) fun old ho => ?_
    · rw [hrows] at hcam
      rcases List.mem_append.mp hcam with hcam | hcam
      · exact ⟨cam, hsub.subset (List.mem_append_left _ hcam), rfl, rfl⟩
      · rcases List.mem_cons.mp hcam with rfl | hcam
        · exact ⟨first, hfm, rfl, rfl⟩
        · exact ⟨cam, hsub.subset (List.mem_append_right _ (List.mem_cons_of_mem _ hcam)), rfl, rfl⟩
    · rw [hrows]
      rcases List.mem_append.mp (hperm.mem_iff.mp ho) with ho' | ho'
      · have heq : old.splitGroupId = target.splitGroupId := by
          simpa using (List.mem_filter.mp ho').2
        exact ⟨mergedEntry first, by simp, (hcamera old ho heq).symm⟩
      · refine ⟨old, ?_, rfl⟩
        rcases List.mem_append.mp ho' with ho' | ho' <;> simp [ho']

/-! ## The store's snapshot -/

theorem deviceInfo_updateEntry (byCid : List (String × CameraData)) (cam : CameraEntry) :
    (updateEntry byCid cam).deviceInfo = cam.deviceInfo := by
  unfold updateEntry
  split <;> rfl

theorem Follows.appendNew (h : s.Follows m) {streams : List (String × CameraData)}
    (hs : ∀ e ∈ streams, m e.1 = .zero) : (s.appendNew streams).Follows m := by
  unfold CameraModel.appendNew
  refine List.foldlRecOn (motive := fun s => Follows s m) streams _ h fun s h e he => ?_
  refine ⟨fun cam hc => ?_, fun cid hc => h.absent cid fun hm => hc ?_⟩
  · rcases List.mem_append.mp hc with hc | hc
    · exact h.rows cam hc
    · rw [List.mem_singleton.mp hc]
      exact (hs e he).symm
  · rw [List.map_append]
    exact List.mem_append_left _ hm

theorem appendNew_applied (s : CameraModel) (streams : List (String × CameraData)) :
    (s.appendNew streams).autoSplitAppliedSlotIds = s.autoSplitAppliedSlotIds := by
  unfold CameraModel.appendNew
  exact List.foldlRecOn (motive := fun (t : CameraModel) =>
    t.autoSplitAppliedSlotIds = s.autoSplitAppliedSlotIds) streams _ rfl fun t ht e _ => ht

theorem mem_appendNew {streams : List (String × CameraData)} {cam : CameraEntry}
    (h : cam ∈ (s.appendNew streams).cameras) : cam ∈ s.cameras ∨ cam.deviceInfo = .zero := by
  revert h
  unfold CameraModel.appendNew
  refine List.foldlRecOn (motive := fun (t : CameraModel) =>
    cam ∈ t.cameras → cam ∈ s.cameras ∨ cam.deviceInfo = .zero) streams _ Or.inl fun t ht e _ hc => ?_
  rcases List.mem_append.mp hc with hc | hc
  · exact ht hc
  · rw [List.mem_singleton.mp hc]
    exact Or.inr rfl

theorem Follows.mergeSnapshot (h : s.Follows m) (order : HashOrder CameraData)
    (snapshot : List CameraData) : (CameraModel.mergeSnapshot order s snapshot).Follows m := by
  unfold CameraModel.mergeSnapshot
  refine Follows.appendNew (h.of_map rfl (cameraId_updateEntry _) (deviceInfo_updateEntry _))
    fun e he => h.absent e.1 fun hm => ?_
  obtain ⟨he, hrep⟩ := List.mem_filter.mp he
  rw [decide_eq_true_eq] at hrep
  refine hrep (List.mem_filter.mpr ⟨hm, ?_⟩)
  exact lookup_isSome_of_mem ((order.perm _).mem_iff.mp he)

theorem allKeep_mergeSnapshot {autoSplit : String → ℤ} (order : HashOrder CameraData)
    {snapshot : List CameraData}
    (hk : AutoKeeps autoSplit s (fun _ => true) (updateEntry (snapshotByCid snapshot))) :
    AllKeep autoSplit (CameraModel.mergeSnapshot order s snapshot) := by
  unfold CameraModel.mergeSnapshot
  rintro entry hm ⟨hid, hsp⟩
  rw [appendNew_applied] at hid
  rcases mem_appendNew hm with hm | hz
  · obtain ⟨old, ho, rfl⟩ := List.mem_map.mp hm
    rw [deviceInfo_updateEntry]
    exact hk old ho rfl ⟨hid, hsp⟩
  · exact hz

/-! ## Runs -/

/-- **One operation** that meets the condition keeps the readings with their cameras. -/
theorem Follows.step (h : s.Follows m) (hg : SlotGrid s) {autoSplit : String → ℤ} {op : Op}
    (hk : Keeps autoSplit s op) : (s.step autoSplit op).1.Follows (s.record m op) := by
  cases op with
  | onStoreUpdated order snapshot =>
    exact (h.mergeSnapshot order snapshot).applyAutoSplits (allKeep_mergeSnapshot order hk) _
  | splitSlot rowIndex tileCount direction => exact h.splitSlotAtIndex hk false
  | mergeSlots anyTileRowIndex => exact h.mergeGroupByIndex hg anyTileRowIndex
  | swapSlots indexA indexB => exact h.swapSlots hk
  | applyAutoSplitForSlot slotId => exact h.applyAutoSplitForSlot hk
  | setOnline index online => exact h.setOnline index online
  | setData row edit => exact h.setData row edit
  | updateSensorInfo cameraId info => exact h.updateSensorInfo cameraId info
  | clearAll => exact follows_empty

theorem follows_reach {autoSplit : String → ℤ} {ops pre : List Op}
    (hk : Machine.Along (CameraModel.step autoSplit) (Keeps autoSplit) empty ops)
    (hpre : pre <+: ops) : (reach autoSplit pre).Follows (lastReading autoSplit pre) := by
  have hmap : ∀ (p : CameraModel × (String → DeviceInfo)) op,
      (recordStep autoSplit p op).1.1 = (CameraModel.step autoSplit p.1 op).1 := fun _ _ => rfl
  have h := Machine.invariant_along (recordStep autoSplit)
    (P := fun p => p.1.Follows p.2 ∧ ∃ l, Shows l p.1) (Q := fun p => Keeps autoSplit p.1)
    (s := (empty, fun _ => .zero)) ⟨follows_empty, [], shows_empty⟩
    (fun p op hop hp => by
      obtain ⟨hf, l, hl⟩ := hp
      exact ⟨hf.step hl.slotGrid hop, hl.step autoSplit op⟩)
    ((Machine.along_map (CameraModel.step autoSplit) Prod.fst hmap).mpr hk) pre hpre
  have hfst := Machine.final_map (CameraModel.step autoSplit) Prod.fst hmap
    (empty, fun _ => .zero) pre
  rw [hfst] at h
  exact h.1

/-- **Sensor readings.** In a run that swaps only rows with the same camera or the same readings,
and splits only rows that hold zeros, the readings follow the cameras at every point. -/
theorem sensor_readings (autoSplit : String → ℤ) (ops : List Op)
    (hk : Machine.Along (CameraModel.step autoSplit) (Keeps autoSplit) empty ops) :
    ∀ pre, pre <+: ops → ReadingsFollow autoSplit pre :=
  fun _ hpre _ hc => (follows_reach hk hpre).sensorInfo hc

/-- Two cameras in the store. -/
def sampleSnapshot : Op :=
  .onStoreUpdated ⟨id, HashOrder.perm_id⟩
    [⟨"A", "", true, "10.0.0.1/0", .zero⟩, ⟨"B", "", true, "10.0.0.2/0", .zero⟩]

/-- One camera is split and its tiles change places; then it reports, and so does the other. -/
theorem sensor_readings_split :
    ReadingsFollow (fun _ => 0) [sampleSnapshot, .splitSlot 0 2 0, .swapSlots 0 1,
      .updateSensorInfo "10.0.0.1/0" ⟨1, 2, 3, 4⟩, .updateSensorInfo "10.0.0.2/0" ⟨5, 6, 7, 8⟩,
      .mergeSlots 0] :=
  sensor_readings _ _ (by decide) _ List.prefix_rfl

/-- A camera reports; then it changes places with another, or is split. -/
theorem sensor_readings_fails :
    ¬ ReadingsFollow (fun _ => 0)
        [sampleSnapshot, .updateSensorInfo "10.0.0.1/0" ⟨1, 2, 3, 4⟩, .swapSlots 0 1] ∧
      ¬ ReadingsFollow (fun _ => 0)
        [sampleSnapshot, .updateSensorInfo "10.0.0.1/0" ⟨1, 2, 3, 4⟩, .splitSlot 0 2 0] := by
  decide

end CameraModel

end Models

end AnoMap
