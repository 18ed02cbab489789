import AnoMap.Models.StoreUpdates

/-!
# Cameras merged by hand

A user who merges a camera's tiles does not want them back. The model remembers by slot which rows
have been split automatically; a swap moves cameras between slots, and a split by hand brings slots
that are not remembered.

* `merged`: the cameras whose tiles were turned back into one row since the last `clearAll`.
* `Respects`: the operation does not split them again of its own accord.
* `Remembers`: the slots of those that it would split are remembered.
* `oneRow_iff`: a camera has one row if and only if it has a whole one.
* **`merge_respected_iff`**: a run respects every merge if and only if every operation of it meets
  `Remembers`.
-/

set_option autoImplicit false

namespace AnoMap

namespace Models

open Domain

namespace CameraModel

/-! ## The statement -/

/-- The camera has one row. -/
def OneRow (s : CameraModel) (cameraId : String) : Prop := (s.rowsOf cameraId).length = 1

instance (s : CameraModel) (cameraId : String) : Decidable (s.OneRow cameraId) :=
  inferInstanceAs (Decidable (_ = _))

/-- The tiles of the row's camera are turned back into one row. -/
def Merges (s : CameraModel) (row : ℤ) : Prop :=
  1 < (s.rowsOf (s.rowAt row).cameraId).length ∧
    (s.mergeSlots row).1.OneRow (s.rowAt row).cameraId

instance (s : CameraModel) (row : ℤ) : Decidable (s.Merges row) :=
  inferInstanceAs (Decidable (_ ∧ _))

/-- The merged cameras after an operation. -/
def merged (s : CameraModel) (m : List String) : Op → List String
  | .mergeSlots row => if s.Merges row then (s.rowAt row).cameraId :: m else m
  | .clearAll => []
  | _ => m

/-- The model with the cameras that have been merged. -/
def mergedStep (autoSplit : String → ℤ) (s : CameraModel × List String) (op : Op) :
    (CameraModel × List String) × List CameraSignal :=
  (((s.1.step autoSplit op).1, merged s.1 s.2 op), (s.1.step autoSplit op).2)

/-- No merged camera is split. -/
def Unsplit (m : List String) (s s' : CameraModel) : Prop :=
  ∀ cid ∈ m, s.OneRow cid → s'.OneRow cid

instance (m : List String) (s s' : CameraModel) : Decidable (Unsplit m s s') :=
  inferInstanceAs (Decidable (∀ _ ∈ _, _))

/-- **The user's merges are respected** by an operation that is no edit of the user's. -/
def Respects (autoSplit : String → ℤ) (s : CameraModel × List String) : Op → Prop
  | .onStoreUpdated order snapshot =>
    Unsplit s.2 s.1 (s.1.onStoreUpdated autoSplit order snapshot).1
  | .applyAutoSplitForSlot slotId => Unsplit s.2 s.1 (s.1.applyAutoSplitForSlot autoSplit slotId).1
  | _ => True

instance (autoSplit : String → ℤ) (s : CameraModel × List String) :
    ∀ op, Decidable (Respects autoSplit s op)
  | .onStoreUpdated _ _ => (inferInstance : Decidable (Unsplit _ _ _))
  | .applyAutoSplitForSlot _ => (inferInstance : Decidable (Unsplit _ _ _))
  | .splitSlot _ _ _ | .mergeSlots _ | .swapSlots _ _ | .setOnline _ _ | .setData _ _
  | .updateSensorInfo _ _ | .clearAll => isTrue trivial

/-- The rows of merged cameras that satisfy `p` and could be split, as `f` leaves them, are at slots
that are remembered. -/
def SlotsKnown (autoSplit : String → ℤ) (s : CameraModel × List String) (p : CameraEntry → Bool)
    (f : CameraEntry → CameraEntry) : Prop :=
  ∀ row ∈ s.1.cameras, p row = true → row.cameraId ∈ s.2 →
    Splits (f row) (autoSplit row.cameraId) .col → row.slotId ∈ s.1.autoSplitAppliedSlotIds

instance (autoSplit : String → ℤ) (s : CameraModel × List String) (p : CameraEntry → Bool)
    (f : CameraEntry → CameraEntry) : Decidable (SlotsKnown autoSplit s p f) := by
  unfold SlotsKnown
  infer_instance

/-- **The condition.** A merged camera that an automatic split would meet whole, online and
configured to be split is at a slot that is remembered. -/
def Remembers (autoSplit : String → ℤ) (s : CameraModel × List String) : Op → Prop
  | .onStoreUpdated _ snapshot =>
    SlotsKnown autoSplit s (fun _ => true) (updateEntry (snapshotByCid snapshot))
  | .applyAutoSplitForSlot slotId => SlotsKnown autoSplit s (·.slotId = slotId) id
  | _ => True

/-! ## One row -/

variable {l : List (String × Layout)} {s : CameraModel}

theorem mem_rowsOf (s : CameraModel) (cid : String) (row : CameraEntry) :
    row ∈ s.rowsOf cid ↔ row ∈ s.cameras ∧ row.cameraId = cid := by
  rw [rowsOf, List.mem_filter, decide_eq_true_eq]

theorem IsWhole.oneRow {cid : String} (h : s.IsWhole cid) : s.OneRow cid := by
  obtain ⟨cam, hrows, -⟩ := h
  rw [OneRow, hrows]
  rfl

/-- **A camera has one row** if and only if it has a whole one. -/
theorem Shows.oneRow_iff (h : Shows l s) (cid : String) :
    s.OneRow cid ↔ ∃ row ∈ s.cameras, row.cameraId = cid ∧ row.splitCount = 1 := by
  constructor
  · intro hone
    obtain ⟨row, hrows⟩ := List.length_eq_one_iff.mp hone
    obtain ⟨hr, hid⟩ := (mem_rowsOf s cid row).mp (hrows ▸ List.mem_singleton_self row)
    refine ⟨row, hr, hid, ?_⟩
    rcases h.slotGrid.camera row hr with ⟨cam, hcam, h1, -⟩ | ⟨g, d, hs⟩
    · rw [hid, hrows] at hcam
      rw [(List.cons.inj hcam).1, h1]
    · rw [hid] at hs
      rw [hs.count row (hrows ▸ List.mem_singleton_self row), hrows]
      rfl
  · rintro ⟨row, hr, rfl, h1⟩
    obtain ⟨before, after, hs⟩ := List.append_of_mem hr
    obtain ⟨l', h', -⟩ := h.whole_row hs h1
    exact h'.isWhole.oneRow

theorem Shows.not_oneRow (h : Shows l s) {row : CameraEntry} (hr : row ∈ s.cameras)
    (h1 : row.splitCount ≠ 1) : ¬ s.OneRow row.cameraId := by
  intro hone
  obtain ⟨other, ho, hid, h1'⟩ := (h.oneRow_iff _).mp hone
  obtain ⟨only, hrows⟩ := List.length_eq_one_iff.mp hone
  have heq : ∀ cam ∈ s.cameras, cam.cameraId = row.cameraId → cam = only := fun cam hc hcid =>
    List.mem_singleton.mp (hrows ▸ (mem_rowsOf s _ cam).mpr ⟨hc, hcid⟩)
  rw [heq row hr rfl, ← heq other ho hid] at h1
  exact h1 h1'

/-! ## Automatic splits -/

theorem Shows.not_oneRow_of_tiles (h : Shows l s) {row : CameraEntry} {slotId splitGroupId : ℤ}
    {tileCount : ℤ} {direction : SplitDirection} (hv : ValidCount tileCount direction)
    (hsub : newTiles row slotId splitGroupId tileCount direction tileCount.toNat 0 ⊆ s.cameras) :
    ¬ s.OneRow row.cameraId := by
  have hn := two_le_of_validCount hv
  have hm : tileEntry row (slotId + (0 : ℕ)) splitGroupId tileCount direction (0 + 0) ∈ s.cameras :=
    hsub (List.mem_map.mpr ⟨0, List.mem_range.mpr (by omega), rfl⟩)
  have hcount : (tileEntry row (slotId + (0 : ℕ)) splitGroupId tileCount direction
      (0 + 0)).splitCount ≠ 1 := by
    show tileCount ≠ 1
    omega
  have hmore := h.not_oneRow hm hcount
  exact hmore

theorem splitCount_updateEntry (byCid : List (String × CameraData)) (cam : CameraEntry) :
    (updateEntry byCid cam).splitCount = cam.splitCount := by
  unfold updateEntry
  split <;> rfl

theorem Shows.exists_part (h : Shows l s) (autoSplit : String → ℤ) (order : HashOrder CameraData)
    (snapshot : List CameraData) {row : CameraEntry} (hr : row ∈ s.cameras) :
    ∃ part, Part autoSplit s (updateEntry (snapshotByCid snapshot) row) part ∧
      part ⊆ (s.onStoreUpdated autoSplit order snapshot).1.cameras := by
  obtain ⟨added, hcams, -⟩ := mergeSnapshot_cameras order s snapshot
  obtain ⟨parts, hparts, hall, -⟩ := h.updated_parts autoSplit order snapshot
  have hm : updateEntry (snapshotByCid snapshot) row ∈
      (CameraModel.mergeSnapshot order s snapshot).cameras := by
    rw [hcams]
    exact List.mem_append_left _ (List.mem_map_of_mem hr)
  obtain ⟨part, hp, hin⟩ := (mem_flatten_parts hall).2 _ hm
  exact ⟨part, hp, fun cam hc => hparts ▸ hin cam hc⟩

/-- **An update** splits a merged camera, or its slot is remembered. -/
theorem Shows.respects_onStoreUpdated (h : Shows l s) (autoSplit : String → ℤ) (m : List String)
    (order : HashOrder CameraData) (snapshot : List CameraData) :
    Respects autoSplit (s, m) (.onStoreUpdated order snapshot) ↔
      Remembers autoSplit (s, m) (.onStoreUpdated order snapshot) := by
  obtain ⟨l', h'⟩ := h.onStoreUpdated autoSplit order snapshot
  constructor
  · intro hkeep row hr _ hm hs
    by_contra hnot
    have hone := hkeep row.cameraId hm ((h.oneRow_iff _).mpr
      ⟨row, hr, rfl, (splitCount_updateEntry _ row).symm.trans hs.2.1⟩)
    obtain ⟨part, ⟨hn, -⟩ | ⟨ha, slotId, g, rfl⟩, hsub⟩ :=
      h.exists_part autoSplit order snapshot hr
    · refine hn ⟨?_, ?_⟩
      · rwa [slotId_updateEntry]
      · rwa [cameraId_updateEntry]
    · exact h'.not_oneRow_of_tiles ha.2.1 hsub (by rwa [cameraId_updateEntry])
  · intro hslots cid hm hone
    obtain ⟨row, hr, rfl, h1⟩ := (h.oneRow_iff _).mp hone
    obtain ⟨part, ⟨-, rfl⟩ | ⟨ha, -⟩, hsub⟩ := h.exists_part autoSplit order snapshot hr
    · exact (h'.oneRow_iff _).mpr ⟨_, hsub (List.mem_singleton_self _), cameraId_updateEntry _ row,
        (splitCount_updateEntry _ row).trans h1⟩
    · have hs := ha.2
      rw [cameraId_updateEntry] at hs
      exact absurd (slotId_updateEntry _ row ▸ hslots row hr rfl hm hs) ha.1

theorem applyAutoSplitForSlot_of_notMem (autoSplit : String → ℤ) (s : CameraModel) {slotId : ℤ}
    (h : slotId ∉ s.cameras.map CameraEntry.slotId) :
    s.applyAutoSplitForSlot autoSplit slotId = (s, []) := by
  have hnone : s.indexBySlotId slotId = none := by
    rw [indexBySlotId, List.findIdx?_eq_none_iff]
    intro cam hc
    exact decide_eq_false fun he => h (List.mem_map.mpr ⟨cam, hc, he⟩)
  rw [applyAutoSplitForSlot, hnone]

theorem Shows.respects_applyAutoSplitForSlot (h : Shows l s) (autoSplit : String → ℤ)
    (m : List String) (slotId : ℤ) : Respects autoSplit (s, m) (.applyAutoSplitForSlot slotId) ↔
      Remembers autoSplit (s, m) (.applyAutoSplitForSlot slotId) := by
  obtain ⟨l', h'⟩ := h.applyAutoSplitForSlot autoSplit slotId
  show Unsplit m s (CameraModel.applyAutoSplitForSlot autoSplit s slotId).1 ↔ _
  by_cases hslot : slotId ∈ s.cameras.map CameraEntry.slotId
  · obtain ⟨row, hr, rfl⟩ := List.mem_map.mp hslot
    obtain ⟨before, after, hs⟩ := List.append_of_mem hr
    have honly : ∀ cam ∈ s.cameras, cam.slotId = row.slotId → cam = row := fun cam hc he =>
      List.inj_on_of_nodup_map h.slotIds hc hr he
    rcases applyAutoSplitForSlot_row autoSplit h hs with ⟨hn, heq⟩ | ⟨ha, hsplit⟩
    · rw [heq]
      refine iff_of_true (fun _ _ hone => hone) fun cam hc hid _ hsp => ?_
      obtain rfl := honly cam hc (of_decide_eq_true hid)
      by_contra hnot
      exact hn ⟨hnot, hsp⟩
    · have hold : s.OneRow row.cameraId := (h.oneRow_iff _).mpr ⟨row, hr, rfl, ha.2.2.1⟩
      have htiles : s.tilesOf row (autoSplit row.cameraId) .col ⊆
          (CameraModel.applyAutoSplitForSlot autoSplit s row.slotId).1.cameras := fun cam hc => by
        rw [hsplit.cameras]
        exact List.mem_append_left _ (List.mem_append_right _ hc)
      have hnew := h'.not_oneRow_of_tiles ha.2.1 htiles
      constructor
      · intro hkeep cam hc hid hm
        obtain rfl := honly cam hc (of_decide_eq_true hid)
        exact absurd (hkeep _ hm hold) hnew
      · intro hslots cid hm hone
        obtain ⟨other, ho, rfl, h1⟩ := (h.oneRow_iff _).mp hone
        have hne : other ≠ row := by
          rintro rfl
          exact ha.1 (hslots other hr (decide_eq_true rfl) hm ha.2)
        refine (h'.oneRow_iff _).mpr ⟨other, ?_, rfl, h1⟩
        rw [hs, List.mem_append, List.mem_cons, or_iff_right hne] at ho
        rw [hsplit.cameras, List.mem_append, List.mem_append]
        exact ho.imp_left Or.inl
  · rw [applyAutoSplitForSlot_of_notMem autoSplit s hslot]
    refine iff_of_true (fun _ _ hone => hone) fun cam hc hid => ?_
    exact absurd (List.mem_map.mpr ⟨cam, hc, of_decide_eq_true hid⟩) hslot

/-! ## The theorem -/

/-- **Merges are respected** in a run if and only if every merged camera that an automatic split
would meet is at a slot that is remembered. -/
theorem merge_respected_iff (autoSplit : String → ℤ) (ops : List Op) :
    Machine.Along (mergedStep autoSplit) (Respects autoSplit) (empty, []) ops ↔
      Machine.Along (mergedStep autoSplit) (Remembers autoSplit) (empty, []) ops := by
  refine Machine.along_congr (mergedStep autoSplit) (P := fun s => ∃ l, Shows l s.1)
    (fun t op ht => ?_) ⟨[], shows_empty⟩ ops
  obtain ⟨s, m⟩ := t
  obtain ⟨l, h⟩ := ht
  refine ⟨?_, fun _ => h.step autoSplit op⟩
  cases op with
  | onStoreUpdated order snapshot => exact h.respects_onStoreUpdated autoSplit m order snapshot
  | applyAutoSplitForSlot slotId => exact h.respects_applyAutoSplitForSlot autoSplit m slotId
  | splitSlot | mergeSlots | swapSlots | setOnline | setData | updateSensorInfo | clearAll =>
    exact Iff.rfl

/-- The camera of the first of two hosts is split in two. -/
def sampleSplits (cameraId : String) : ℤ := if cameraId = "10.0.0.1/0" then 2 else 1

/-- A camera is split automatically and merged. Then it changes places with another, or it is split
and merged by hand: the next update splits it. -/
theorem merge_respected_fails :
    ¬ Machine.Along (mergedStep sampleSplits) (Respects sampleSplits) (empty, [])
        [sampleSnapshot, .mergeSlots 0, .swapSlots 0 1, sampleSnapshot] ∧
      ¬ Machine.Along (mergedStep sampleSplits) (Respects sampleSplits) (empty, [])
        [sampleSnapshot, .mergeSlots 0, .splitSlot 0 2 0, .mergeSlots 0, sampleSnapshot] := by
  decide +kernel

/-- Left where it is, the merged camera stays in one row. -/
example : Machine.Along (mergedStep sampleSplits) (Respects sampleSplits) (empty, [])
    [sampleSnapshot, .mergeSlots 0, sampleSnapshot, .setOnline 0 false, sampleSnapshot] := by
  decide +kernel

end CameraModel

end Models

end AnoMap
