import AnoMap.Lib.Machine
import AnoMap.Models.CameraModel

/-!
# The video manager

`VideoManager`: a worker for every stream, and the map from slots to streams. The URL of a stream
and the frame limit come from providers.

* `registerSlots`, `registerCameraIds`, `restartWorker`, `clearAll`: the operations, with the ids
  each reports as registered.
* `onSignal`: what the signals of the camera model are connected to.
* `mem_registerCameraIds`, `of_mem_registerCameraIds`, `restartWorker_cases`: what the operations do
  to the workers.
* `get?_slotMap_iff`: the slot map of a list of slots.
* **`connectionString?_onSignals`**: the URLs of the workers after the signals of one operation.
-/

set_option autoImplicit false

namespace AnoMap

namespace Services

open Models

/-- A worker, and the URL it is streaming. -/
structure VideoWorker where
  connectionString : String
  fpsLimit : ℤ
  streaming : Option String
  deriving DecidableEq, Repr

namespace VideoWorker

def new : VideoWorker := ⟨"", 30, none⟩

def startStream (w : VideoWorker) : VideoWorker :=
  if w.connectionString = "" then w else { w with streaming := some w.connectionString }

def stopStream (w : VideoWorker) : VideoWorker := { w with streaming := none }

end VideoWorker

/-- `urlProvider_` and `fpsProvider_`. -/
structure Providers where
  url : String → String
  fps : ℤ

structure VideoManager where
  workers : KeyMap String VideoWorker
  slotToCameraId : KeyMap ℤ String

namespace VideoManager

def empty : VideoManager := ⟨∅, ∅⟩

def clearAll (_ : VideoManager) : VideoManager := empty

/-- The settings of a worker are those the providers give, and its stream is started. -/
def configure (p : Providers) (cameraId : String) (w : VideoWorker) : VideoWorker :=
  { w with connectionString := p.url cameraId, fpsLimit := p.fps }.startStream

/-- A new worker, unless the id is empty or has one. -/
def addWorker (p : Providers) (m : VideoManager) (cameraId : String) :
    VideoManager × List String :=
  if cameraId = "" ∨ cameraId ∈ m.workers then (m, [])
  else ({ m with workers := m.workers.set cameraId (configure p cameraId .new) }, [cameraId])

def registerCameraIds (p : Providers) (m : VideoManager) (cameraIds : List String) :
    VideoManager × List String :=
  cameraIds.foldl (fun acc cameraId =>
    let r := addWorker p acc.1 cameraId
    (r.1, acc.2 ++ r.2)) (m, [])

def registerSlots (p : Providers) (m : VideoManager) (slots : List SlotInfo) :
    VideoManager × List String :=
  registerCameraIds p
    { m with slotToCameraId := slots.foldl (fun map si => map.set si.slotId si.cameraId) ∅ }
    (slots.map SlotInfo.cameraId)

def restartWorker (p : Providers) (m : VideoManager) (cameraId : String) :
    VideoManager × List String :=
  match m.workers.get? cameraId with
  | some w =>
    ({ m with workers := m.workers.set cameraId (configure p cameraId w.stopStream) }, [cameraId])
  | none => addWorker p m cameraId

/-- The slots connected to the signals of the camera model. -/
def onSignal (p : Providers) (m : VideoManager) : CameraSignal → VideoManager × List String
  | .slotsUpdated slots => m.registerSlots p slots
  | .cameraIdsUpdated cameraIds => m.registerCameraIds p cameraIds
  | .cameraOnline cameraId => m.restartWorker p cameraId
  | .sensorDataUpdated _ => (m, [])

/-- The signals of one operation, in the order they are emitted. -/
def onSignals (p : Providers) (m : VideoManager) (signals : List CameraSignal) :
    VideoManager × List String :=
  signals.foldl (fun acc signal =>
    let r := acc.1.onSignal p signal
    (r.1, acc.2 ++ r.2)) (m, [])

/-! ## What the operations keep -/

theorem addWorker_cases (p : Providers) (m : VideoManager) (cameraId : String) :
    ((cameraId = "" ∨ cameraId ∈ m.workers) ∧ addWorker p m cameraId = (m, [])) ∨
      (cameraId ≠ "" ∧ cameraId ∉ m.workers ∧ addWorker p m cameraId =
        ({ m with workers := m.workers.set cameraId (configure p cameraId .new) }, [cameraId])) := by
  by_cases h : cameraId = "" ∨ cameraId ∈ m.workers
  · exact Or.inl ⟨h, if_pos h⟩
  · have hn := not_or.mp h
    exact Or.inr ⟨hn.1, hn.2, if_neg h⟩

theorem registerCameraIds_eq (p : Providers) (m : VideoManager) (cameraIds : List String) :
    registerCameraIds p m cameraIds = (Machine.final (addWorker p) m cameraIds,
      Machine.outputs (addWorker p) m cameraIds) := Machine.foldl_collect_eq (addWorker p) m cameraIds

theorem slots_registerCameraIds (p : Providers) (m : VideoManager) (cameraIds : List String) :
    (registerCameraIds p m cameraIds).1.slotToCameraId = m.slotToCameraId := by
  rw [registerCameraIds_eq]
  induction cameraIds generalizing m with
  | nil => rfl
  | cons id ids ih =>
    rw [Machine.final_cons, ih]
    rcases addWorker_cases p m id with ⟨-, heq⟩ | ⟨-, -, heq⟩ <;> rw [heq]

theorem mem_registerCameraIds (p : Providers) (m : VideoManager) (cameraIds : List String)
    (id : String) : id ∈ (registerCameraIds p m cameraIds).1.workers ↔
      id ∈ m.workers ∨ id ∈ cameraIds ∧ id ≠ "" := by
  rw [registerCameraIds_eq]
  induction cameraIds generalizing m with
  | nil => simp
  | cons j ids ih =>
    rw [Machine.final_cons, ih, List.mem_cons]
    rcases addWorker_cases p m j with ⟨hj, heq⟩ | ⟨hj, -, heq⟩
    · rw [heq]
      by_cases hid : id = j
      · subst hid
        tauto
      · tauto
    · rw [heq, KeyMap.mem_set]
      by_cases hid : id = j
      · subst hid
        tauto
      · tauto

/-- The slot map of a list of slots. -/
def slotMap (slots : List SlotInfo) : KeyMap ℤ String :=
  slots.foldl (fun map si => map.set si.slotId si.cameraId) ∅

theorem slotMap_concat (slots : List SlotInfo) (si : SlotInfo) :
    slotMap (slots ++ [si]) = (slotMap slots).set si.slotId si.cameraId := by
  rw [slotMap, List.foldl_append]
  rfl

theorem get?_slotMap_iff {slots : List SlotInfo} (hn : (slots.map SlotInfo.slotId).Nodup)
    {slotId : ℤ} {id : String} :
    (slotMap slots).get? slotId = some id ↔ ⟨slotId, id⟩ ∈ slots := by
  induction slots using List.reverseRecOn with
  | nil => exact iff_of_false nofun List.not_mem_nil
  | append_singleton slots si ih =>
    rw [List.map_append, List.nodup_append'] at hn
    rw [slotMap_concat, KeyMap.get?_set, List.mem_append, List.mem_singleton]
    by_cases hslot : slotId = si.slotId
    · have hnot : ⟨slotId, id⟩ ∉ slots := fun hm =>
        hn.2.2 (List.mem_map_of_mem hm) (List.mem_singleton.mpr hslot)
      rw [if_pos hslot, or_iff_right hnot, Option.some_inj]
      exact ⟨fun h => h ▸ hslot ▸ rfl, fun h => (congrArg SlotInfo.cameraId h).symm⟩
    · rw [if_neg hslot, ih hn.1]
      exact (or_iff_left fun h => hslot (congrArg SlotInfo.slotId h)).symm

theorem exists_slotInfo {slots : List SlotInfo} {slotId : ℤ} {id : String}
    (h : (slotMap slots).get? slotId = some id) :
    ∃ si ∈ slots, si.slotId = slotId ∧ si.cameraId = id := by
  induction slots using List.reverseRecOn with
  | nil => cases h
  | append_singleton slots si ih =>
    rw [slotMap_concat, KeyMap.get?_set] at h
    by_cases hslot : slotId = si.slotId
    · rw [if_pos hslot] at h
      exact ⟨si, List.mem_append_right _ List.mem_cons_self, hslot.symm, Option.some.inj h⟩
    · rw [if_neg hslot] at h
      obtain ⟨sj, hsj, hj⟩ := ih h
      exact ⟨sj, List.mem_append_left _ hsj, hj⟩

theorem of_mem_registerCameraIds {p : Providers} {m : VideoManager} {cameraIds : List String}
    {id : String} (h : id ∈ (registerCameraIds p m cameraIds).2) :
    id ∈ cameraIds ∧ id ≠ "" ∧ id ∉ m.workers := by
  rw [registerCameraIds_eq] at h
  induction cameraIds generalizing m with
  | nil => exact absurd h List.not_mem_nil
  | cons j ids ih =>
    rw [Machine.outputs_cons, List.mem_append] at h
    rcases addWorker_cases p m j with ⟨-, heq⟩ | ⟨hj, hnot, heq⟩ <;> rw [heq] at h
    · obtain ⟨hid, hrest⟩ := ih (h.resolve_left List.not_mem_nil)
      exact ⟨List.mem_cons_of_mem j hid, hrest⟩
    · rcases h with h | h
      · rw [List.mem_singleton.mp h]
        exact ⟨List.mem_cons_self, hj, hnot⟩
      · obtain ⟨hid, hne, hmem⟩ := ih h
        exact ⟨List.mem_cons_of_mem j hid, hne, fun hin =>
          hmem ((KeyMap.mem_set _ _ _ _).mpr (Or.inr hin))⟩

theorem restartWorker_cases (p : Providers) (m : VideoManager) (cameraId : String) :
    (cameraId = "" ∧ cameraId ∉ m.workers ∧ restartWorker p m cameraId = (m, [])) ∨
      ((cameraId = "" → cameraId ∈ m.workers) ∧ ∃ w, restartWorker p m cameraId =
        ({ m with workers := m.workers.set cameraId w }, [cameraId])) := by
  unfold restartWorker
  cases hw : m.workers.get? cameraId with
  | some w => exact Or.inr ⟨fun _ => (KeyMap.mem_iff_get? _ _).mpr ⟨w, hw⟩, _, rfl⟩
  | none =>
    have hnot := (KeyMap.get?_eq_none_iff _ _).mp hw
    rcases addWorker_cases p m cameraId with ⟨h, heq⟩ | ⟨hne, -, heq⟩
    · exact Or.inl ⟨h.resolve_right hnot, hnot, heq⟩
    · exact Or.inr ⟨fun h => absurd h hne, _, heq⟩

/-! ## The URLs of the workers -/

def connectionString? (m : VideoManager) (cameraId : String) : Option String :=
  (m.workers.get? cameraId).map VideoWorker.connectionString

theorem connectionString_configure (p : Providers) (cameraId : String) (w : VideoWorker) :
    (configure p cameraId w).connectionString = p.url cameraId := by
  unfold configure VideoWorker.startStream
  split_ifs <;> rfl

theorem connectionString?_addWorker (p : Providers) (m : VideoManager) (j : String) {id : String}
    (hid : id ≠ "") : (addWorker p m j).1.connectionString? id =
      (m.connectionString? id).or (if id = j then some (p.url id) else none) := by
  rcases addWorker_cases p m j with ⟨hj, heq⟩ | ⟨-, hnot, heq⟩
  · rw [heq]
    by_cases hmem : id ∈ m.workers
    · obtain ⟨w, hw⟩ := (KeyMap.mem_iff_get? _ _).mp hmem
      rw [connectionString?, hw]
      rfl
    · have hne : id ≠ j := fun he => hj.elim (fun h => hid (he.trans h)) fun h => hmem (he ▸ h)
      rw [if_neg hne, Option.or_none]
  · rw [heq]
    show ((m.workers.set j _).get? id).map _ = _
    rw [KeyMap.get?_set]
    by_cases hj : id = j
    · have hnone : m.connectionString? id = none := by
        rw [connectionString?, hj, (KeyMap.get?_eq_none_iff _ _).mpr hnot]
        rfl
      rw [if_pos hj, if_pos hj, hnone, Option.none_or, Option.map_some, connectionString_configure,
        hj]
    · rw [if_neg hj, if_neg hj, Option.or_none]
      rfl

theorem connectionString?_registerCameraIds (p : Providers) (m : VideoManager)
    (cameraIds : List String) {id : String} (hid : id ≠ "") :
    (registerCameraIds p m cameraIds).1.connectionString? id =
      (m.connectionString? id).or (if id ∈ cameraIds then some (p.url id) else none) := by
  rw [registerCameraIds_eq]
  induction cameraIds generalizing m with
  | nil => exact (Option.or_none).symm
  | cons j ids ih =>
    rw [Machine.final_cons, ih, connectionString?_addWorker p m j hid, Option.or_assoc]
    congr 1
    by_cases hj : id = j <;> simp [hj]

theorem connectionString?_restartWorker (p : Providers) (m : VideoManager) (j : String)
    {id : String} (hid : id ≠ "") : (restartWorker p m j).1.connectionString? id =
      if id = j then some (p.url id) else m.connectionString? id := by
  unfold restartWorker
  cases hw : m.workers.get? j with
  | some w =>
    show ((m.workers.set j _).get? id).map _ = _
    rw [KeyMap.get?_set]
    by_cases hj : id = j
    · rw [if_pos hj, if_pos hj, Option.map_some, connectionString_configure, hj]
    · rw [if_neg hj, if_neg hj]
      rfl
  | none =>
    show (addWorker p m j).1.connectionString? id = _
    rw [connectionString?_addWorker p m j hid]
    by_cases hj : id = j
    · have hnone : m.connectionString? id = none := by
        rw [connectionString?, hj, hw]
        rfl
      rw [if_pos hj, if_pos hj, hnone, Option.none_or]
    · rw [if_neg hj, if_neg hj, Option.or_none]

/-- The ids a signal has a worker made for. -/
def Names : CameraSignal → String → Prop
  | .slotsUpdated slots, id => id ∈ slots.map SlotInfo.cameraId
  | .cameraIdsUpdated cameraIds, id => id ∈ cameraIds
  | .cameraOnline cameraId, id => id = cameraId
  | .sensorDataUpdated _, _ => False

instance (signal : CameraSignal) (id : String) : Decidable (Names signal id) := by
  cases signal <;> unfold Names <;> infer_instance

theorem connectionString?_onSignal (p : Providers) (m : VideoManager) (signal : CameraSignal)
    {id : String} (hid : id ≠ "") : (m.onSignal p signal).1.connectionString? id =
      if signal = .cameraOnline id then some (p.url id)
      else (m.connectionString? id).or (if Names signal id then some (p.url id) else none) := by
  cases signal with
  | slotsUpdated slots =>
    rw [if_neg nofun]
    exact connectionString?_registerCameraIds p _ _ hid
  | cameraIdsUpdated cameraIds =>
    rw [if_neg nofun]
    exact connectionString?_registerCameraIds p m cameraIds hid
  | cameraOnline cameraId =>
    rw [onSignal, connectionString?_restartWorker p m cameraId hid]
    by_cases hj : id = cameraId
    · rw [if_pos hj, if_pos (congrArg CameraSignal.cameraOnline hj.symm)]
    · have hnot : ¬ Names (.cameraOnline cameraId) id := hj
      rw [if_neg hj, if_neg fun he => hj (CameraSignal.cameraOnline.inj he).symm, if_neg hnot,
        Option.or_none]
  | sensorDataUpdated cameraId =>
    rw [if_neg nofun, onSignal]
    exact (Option.or_none).symm

theorem onSignals_eq (p : Providers) (m : VideoManager) (signals : List CameraSignal) :
    m.onSignals p signals = (Machine.final (onSignal p) m signals,
      Machine.outputs (onSignal p) m signals) := Machine.foldl_collect_eq (onSignal p) m signals

/-- **The URLs of the workers** after some signals: a stream that came online has its URL now, and so
has one that has been given a worker; the others keep theirs. -/
theorem connectionString?_onSignals (p : Providers) (m : VideoManager)
    (signals : List CameraSignal) {id : String} (hid : id ≠ "") :
    (m.onSignals p signals).1.connectionString? id =
      if .cameraOnline id ∈ signals then some (p.url id)
      else (m.connectionString? id).or
        (if ∃ signal ∈ signals, Names signal id then some (p.url id) else none) := by
  rw [onSignals_eq]
  induction signals generalizing m with
  | nil => simp
  | cons signal signals ih =>
    rw [Machine.final_cons, ih, connectionString?_onSignal p m signal hid]
    by_cases hon : CameraSignal.cameraOnline id = signal
    · subst hon
      simp
    · have hon' := Ne.symm hon
      by_cases hn : Names signal id <;> simp [hon, hon', hn]

/-- **No rows.** What a camera model without rows emits leaves a manager without workers empty. -/
theorem onSignals_slotsSignals_empty (p : Providers) :
    empty.onSignals p CameraModel.empty.slotsSignals = (empty, []) := rfl

end VideoManager

end Services

end AnoMap
