import AnoMap.Models.StoreUpdates
import AnoMap.Services.VideoManager

/-!
# Restarts on reconnection

A camera that comes back online has its stream restarted. The model says so row by row, and a split
camera has several.

* `count_onSignals`: a stream is restarted once for every signal that its camera is online.
* `count_onStoreUpdated`: an update emits one for every offline row of a camera that is online in
  the snapshot.
* `Returns`, `RestartsOnce`: the cameras that come back, and what is claimed of their streams.
* **`one_restart_iff`**: every update of a run restarts each camera that comes back once if and only
  if every camera it has online has no offline row, or a single row.
-/

set_option autoImplicit false

namespace AnoMap

open Domain Models Services

namespace Services

namespace VideoManager

/-! ## Restarts -/

theorem count_onSignal (p : Providers) {m : VideoManager} {cid : String} (h : cid ∈ m.workers)
    (signal : CameraSignal) : cid ∈ (m.onSignal p signal).1.workers ∧
      (m.onSignal p signal).2.count cid = if signal = .cameraOnline cid then 1 else 0 := by
  have hregister : ∀ (m : VideoManager) (cameraIds : List String), cid ∈ m.workers →
      cid ∈ (m.registerCameraIds p cameraIds).1.workers ∧
        (m.registerCameraIds p cameraIds).2.count cid = 0 := fun m cameraIds h =>
    ⟨(mem_registerCameraIds p m cameraIds cid).mpr (.inl h), List.count_eq_zero.mpr fun hm =>
      (of_mem_registerCameraIds hm).2.2 h⟩
  cases signal with
  | slotsUpdated slots =>
    simp only [reduceCtorEq, if_false]
    exact hregister { m with slotToCameraId := _ } (slots.map SlotInfo.cameraId) h
  | cameraIdsUpdated cameraIds =>
    simp only [reduceCtorEq, if_false]
    exact hregister m cameraIds h
  | cameraOnline cameraId =>
    have heq : (CameraSignal.cameraOnline cameraId = .cameraOnline cid) ↔ cameraId = cid :=
      ⟨CameraSignal.cameraOnline.inj, congrArg _⟩
    simp only [heq]
    rcases restartWorker_cases p m cameraId with ⟨-, hnot, hr⟩ | ⟨-, w, hr⟩
    · have hne : cameraId ≠ cid := fun he => hnot (he ▸ h)
      rw [onSignal, hr, if_neg hne]
      exact ⟨h, rfl⟩
    · rw [onSignal, hr, List.count_singleton]
      refine ⟨(KeyMap.mem_set _ _ _ _).mpr (.inr h), ?_⟩
      simp only [beq_iff_eq]
  | sensorDataUpdated cameraId =>
    simp only [reduceCtorEq, if_false]
    exact ⟨h, rfl⟩

/-- **A stream is restarted** once for every signal that its camera is online. -/
theorem count_onSignals (p : Providers) {m : VideoManager} {cid : String} (h : cid ∈ m.workers)
    (signals : List CameraSignal) :
    (m.onSignals p signals).2.count cid = signals.count (.cameraOnline cid) := by
  rw [onSignals_eq]
  induction signals generalizing m with
  | nil => rfl
  | cons signal signals ih =>
    obtain ⟨hmem, hcount⟩ := count_onSignal p h signal
    rw [Machine.outputs_cons, List.count_append, hcount, List.count_cons]
    simp only [beq_iff_eq]
    rw [ih hmem, Nat.add_comm]

end VideoManager

end Services

namespace Models

namespace CameraModel

/-! ## The statement -/

/-- The camera has rows, which are all offline, and is online in the snapshot. -/
structure Returns (s : CameraModel) (snapshot : List CameraData) (cid : String) : Prop where
  shown : s.rowsOf cid ≠ []
  offline : ∀ row ∈ s.rowsOf cid, row.isOnline = false
  online : ∃ cam, lastEntry snapshot cid = some cam ∧ cam.isOnline = true

/-- The signals report each camera that returns once, and no other, and restart its stream so. -/
structure RestartsOnce (s : CameraModel) (snapshot : List CameraData)
    (signals : List CameraSignal) : Prop where
  returning : ∀ cid, s.Returns snapshot cid → signals.count (.cameraOnline cid) = 1
  other : ∀ cid, ¬ s.Returns snapshot cid → signals.count (.cameraOnline cid) = 0
  restarts : ∀ (p : Providers) (m : VideoManager) (cid : String), cid ∈ m.workers →
    (m.onSignals p signals).2.count cid = signals.count (.cameraOnline cid)

/-- **One restart** per camera and update. -/
def OneRestart (autoSplit : String → ℤ) (s : CameraModel) : Op → Prop
  | .onStoreUpdated order snapshot =>
    RestartsOnce s snapshot (s.onStoreUpdated autoSplit order snapshot).2
  | _ => True

/-- **The condition.** A camera that is online in the snapshot has no offline row, or one row. -/
def ReturnsWhole (s : CameraModel) : Op → Prop
  | .onStoreUpdated _ snapshot => ∀ cid cam, lastEntry snapshot cid = some cam →
    cam.isOnline = true → (∀ row ∈ s.rowsOf cid, row.isOnline = true) ∨ (s.rowsOf cid).length = 1
  | _ => True

/-! ## The signals of an update -/

variable {s : CameraModel}

theorem count_slotsSignals (s : CameraModel) (cid : String) :
    s.slotsSignals.count (.cameraOnline cid) = 0 :=
  List.count_eq_zero.mpr (by simp [slotsSignals])

theorem count_onlineSignals (byCid : List (String × CameraData)) (entry : CameraEntry)
    (cid : String) : (onlineSignals byCid entry).count (.cameraOnline cid) =
      if entry.cameraId = cid ∧ entry.isOnline = false ∧
        ((byCid.lookup cid).any CameraData.isOnline) = true then 1 else 0 := by
  unfold onlineSignals
  by_cases hid : entry.cameraId = cid
  · subst hid
    cases byCid.lookup entry.cameraId with
    | none => simp
    | some snap =>
      simp only [Option.any_some, true_and]
      split_ifs
      · exact List.count_singleton_self
      · rfl
  · rw [if_neg fun h => hid h.1]
    refine List.count_eq_zero.mpr fun hm => hid ?_
    cases hl : byCid.lookup entry.cameraId with
    | none =>
      rw [hl] at hm
      cases hm
    | some snap =>
      rw [hl] at hm
      dsimp only at hm
      split_ifs at hm
      · exact (CameraSignal.cameraOnline.inj (List.mem_singleton.mp hm)).symm
      · cases hm

/-- **An update** emits a signal for every offline row of a camera that is online. -/
theorem count_onStoreUpdated (autoSplit : String → ℤ) (order : HashOrder CameraData)
    (s : CameraModel) (snapshot : List CameraData) (cid : String) :
    (s.onStoreUpdated autoSplit order snapshot).2.count (.cameraOnline cid) =
      if (((snapshotByCid snapshot).lookup cid).any CameraData.isOnline) = true then
        (s.rowsOf cid).countP fun row => row.isOnline = false
      else 0 := by
  have hsplits : (applyAutoSplits autoSplit (mergeSnapshot order s snapshot)
      (mergeSnapshot order s snapshot).candidateSlots).2.count (.cameraOnline cid) = 0 := by
    refine List.count_eq_zero.mpr fun h => ?_
    obtain ⟨s', h'⟩ := mem_applyAutoSplits _ _ _ _ h
    exact List.count_eq_zero.mp (count_slotsSignals s' cid) h'
  show List.count _ (_ ++ _ ++ _) = _
  rw [List.count_append, List.count_append, hsplits, count_slotsSignals, Nat.add_zero]
  unfold rowsOf
  induction s.cameras with
  | nil => simp
  | cons row rows ih =>
    rw [List.flatMap_cons, List.count_append, ih, count_onlineSignals]
    by_cases hid : row.cameraId = cid
    · by_cases hon : (((snapshotByCid snapshot).lookup cid).any CameraData.isOnline) = true
      · by_cases hoff : row.isOnline = false <;> simp [hid, hon, hoff, Nat.add_comm]
      · simp [hon]
    · simp [hid]

/-- The offline rows of a camera are all its rows, or none of them. -/
theorem countP_offline_eq_length (s : CameraModel) (cid : String) :
    ((s.rowsOf cid).countP fun row => row.isOnline = false) = (s.rowsOf cid).length ↔
      ∀ row ∈ s.rowsOf cid, row.isOnline = false := by
  rw [List.countP_eq_length]
  simp only [decide_eq_true_iff]

theorem countP_offline_eq_zero (s : CameraModel) (cid : String) :
    ((s.rowsOf cid).countP fun row => row.isOnline = false) = 0 ↔
      ∀ row ∈ s.rowsOf cid, row.isOnline = true := by
  rw [List.countP_eq_zero]
  simp only [decide_eq_true_iff, Bool.not_eq_false]

theorem Sound.count_onStoreUpdated (h : Sound s) (autoSplit : String → ℤ)
    (order : HashOrder CameraData) (snapshot : List CameraData) (cid : String) :
    (s.onStoreUpdated autoSplit order snapshot).2.count (.cameraOnline cid) =
      if ∃ cam, lastEntry snapshot cid = some cam ∧ cam.isOnline = true then
        (s.rowsOf cid).countP fun row => row.isOnline = false
      else 0 := by
  rw [CameraModel.count_onStoreUpdated]
  by_cases hid : cid = ""
  · have hnil : s.rowsOf cid = [] := List.filter_eq_nil_iff.mpr fun row hr hc =>
      h.cameraIds row hr ((of_decide_eq_true hc).trans hid)
    rw [hnil, List.countP_nil, ite_self, ite_self]
  · rw [lookup_snapshotByCid snapshot hid]
    refine if_congr ?_ rfl rfl
    show (Option.any _ (lastEntry snapshot cid)) = true ↔ _
    cases lastEntry snapshot cid <;> simp

/-- A camera that does not return is not reported, when it has no offline row or a single one. -/
theorem Sound.count_eq_zero_of_not_returns (h : Sound s) (autoSplit : String → ℤ)
    (order : HashOrder CameraData) {snapshot : List CameraData} {cid : String}
    (hw : ∀ cam, lastEntry snapshot cid = some cam → cam.isOnline = true →
      (∀ row ∈ s.rowsOf cid, row.isOnline = true) ∨ (s.rowsOf cid).length = 1)
    (hret : ¬ s.Returns snapshot cid) :
    (s.onStoreUpdated autoSplit order snapshot).2.count (.cameraOnline cid) = 0 := by
  rw [h.count_onStoreUpdated]
  split_ifs with hon
  · obtain ⟨cam, hc, hcam⟩ := hon
    rcases hw cam hc hcam with hon' | hone
    · exact (s.countP_offline_eq_zero cid).mpr hon'
    · -- the one row is not offline, or the camera would return
      by_contra hpos
      have hall : ((s.rowsOf cid).countP fun row => row.isOnline = false) =
          (s.rowsOf cid).length := by
        have := List.countP_le_length (p := fun row : CameraEntry => decide (row.isOnline = false))
          (l := s.rowsOf cid)
        omega
      refine hret ⟨fun hnil => ?_, (s.countP_offline_eq_length cid).mp hall, cam, hc, hcam⟩
      rw [hnil] at hone
      cases hone
  · rfl

/-! ## The theorem -/

theorem restartsOnce_iff (h : Sound s) (autoSplit : String → ℤ) (order : HashOrder CameraData)
    (snapshot : List CameraData) :
    RestartsOnce s snapshot (s.onStoreUpdated autoSplit order snapshot).2 ↔
      ∀ cid cam, lastEntry snapshot cid = some cam → cam.isOnline = true →
        (∀ row ∈ s.rowsOf cid, row.isOnline = true) ∨ (s.rowsOf cid).length = 1 := by
  constructor
  · intro ho cid cam hc hon
    have hthis := h.count_onStoreUpdated autoSplit order snapshot cid
    rw [if_pos ⟨cam, hc, hon⟩] at hthis
    by_cases hret : s.Returns snapshot cid
    · right
      rw [ho.returning cid hret] at hthis
      rw [← (s.countP_offline_eq_length cid).mpr hret.offline, ← hthis]
    · left
      rw [ho.other cid hret] at hthis
      exact (s.countP_offline_eq_zero cid).mp hthis.symm
  · intro hw
    refine ⟨fun cid hret => ?_, fun cid hret => ?_, fun p m cid hm =>
      VideoManager.count_onSignals p hm _⟩
    · obtain ⟨cam, hc, hon⟩ := hret.online
      have hall := (s.countP_offline_eq_length cid).mpr hret.offline
      rw [h.count_onStoreUpdated, if_pos hret.online, hall]
      refine (hw cid cam hc hon).resolve_left fun hon' => ?_
      obtain ⟨row, hr⟩ := List.exists_mem_of_ne_nil _ hret.shown
      cases (hon' row hr).symm.trans (hret.offline row hr)
    · exact h.count_eq_zero_of_not_returns autoSplit order (hw cid) hret

/-- **One restart, exactly.** Every update of a run restarts each camera that returns once, and no
other, if and only if every camera it has online has no offline row, or a single row. -/
theorem one_restart_iff (autoSplit : String → ℤ) (ops : List Op) :
    Machine.Along (step autoSplit) (OneRestart autoSplit) empty ops ↔
      Machine.Along (step autoSplit) ReturnsWhole empty ops := by
  refine Machine.along_congr (step autoSplit) (P := Sound)
    (fun s op h => ⟨?_, fun _ => h.step autoSplit op⟩) sound_empty ops
  cases op with
  | onStoreUpdated order snapshot => exact restartsOnce_iff h autoSplit order snapshot
  | _ => exact Iff.rfl

/-- The camera `10.0.0.1/0`, online or not. -/
def sampleUpdate (isOnline : Bool) : Op :=
  .onStoreUpdated ⟨id, HashOrder.perm_id⟩ [⟨"A", "", isOnline, "10.0.0.1/0", .zero⟩]

/-- **Two tiles.** A camera that went offline split in two is reported twice when it returns. -/
theorem one_restart_fails :
    ¬ Machine.Along (step fun _ => 0) (OneRestart fun _ => 0) empty
      [sampleUpdate true, .splitSlot 0 2 0, sampleUpdate false, sampleUpdate true] ∧
    ((reach (fun _ => 0) [sampleUpdate true, .splitSlot 0 2 0, sampleUpdate false]).step (fun _ => 0)
      (sampleUpdate true)).2.count (.cameraOnline "10.0.0.1/0") = 2 := by
  refine ⟨fun h => ?_, by decide +kernel⟩
  have hlast := (Machine.along_iff _ _ _).mp h
    [sampleUpdate true, .splitSlot 0 2 0, sampleUpdate false] (sampleUpdate true) [] rfl
  have hone := hlast.returning "10.0.0.1/0" ⟨by decide +kernel, by decide +kernel, _, rfl, rfl⟩
  exact absurd hone (by decide +kernel)

end CameraModel

end Models

end AnoMap
