import AnoMap.Core.Wiring
import Mathlib.Data.List.Basic

/-!
# Two sessions

What the second session shows of the first. Logout resets the camera model and the device model; the
stores and the server status model keep what they hold.

* `contents`: what the models show; `afterSessions`: a session, a logout and another session.
* `Agree`: two states that differ in nothing the second session shows; `Agree.process`: a packet
  keeps them so.
* `session_isolation_iff`: two first sessions cannot be told apart afterwards exactly when they
  leave the same devices in the store and the same server status.
-/

set_option autoImplicit false

namespace AnoMap

open Domain Models Services

namespace Data

/-- What the models show. -/
structure Contents where
  cameras : List CameraEntry
  devices : List DeviceEntry
  serverStatus : ServerStatusModel

def contents (d : Data) : Contents := ⟨d.cameraModel.cameras, d.deviceModel.devices, d.serverStatus⟩

/-- A session, a logout and another session, each packet fully processed. -/
def afterSessions (env : Env) (first second : List Packet) : Data :=
  processAll env ((processAll env init first).logout env).1 second

/-- The same devices in the store and the same in every model. -/
structure Agree (d d' : Data) : Prop where
  deviceStore : d.deviceStore = d'.deviceStore
  cameraModel : d.cameraModel = d'.cameraModel
  deviceModel : d.deviceModel = d'.deviceModel
  serverStatus : d.serverStatus = d'.serverStatus

variable {env : Env} {d d' : Data}

theorem Agree.contents (h : d.Agree d') : d.contents = d'.contents := by
  unfold Data.contents
  rw [h.cameraModel, h.deviceModel, h.serverStatus]

theorem Agree.runStore (h : d.Agree d') (t : Task) :
    (d.runStore t).1.Agree (d'.runStore t).1 ∧ (d.runStore t).2 = (d'.runStore t).2 := by
  obtain ⟨hd, hc, hm, hs⟩ := h
  cases t with
  | camera json =>
    refine ⟨⟨hd, hc, hm, hs⟩, ?_⟩
    exact congrArg (Except.map (Option.map Snapshot.cameras))
      (CameraStore.updateFromJson_snd d.cameraStore d'.cameraStore json)
  | deviceCamera json =>
    unfold Data.runStore
    dsimp only
    rw [hd]
    exact ⟨⟨rfl, hc, hm, hs⟩, rfl⟩
  | deviceAvailable json clock =>
    unfold Data.runStore
    dsimp only
    rw [hd]
    exact ⟨⟨rfl, hc, hm, hs⟩, rfl⟩
  | serverStatus json clock =>
    refine ⟨⟨hd, hc, hm, hs⟩, ?_⟩
    exact congrArg (Except.map (Option.map Snapshot.server))
      (ServerStatusStore.updateFromJson_snd d.serverStatusStore d'.serverStatusStore clock json)

theorem Agree.applySnapshot (h : d.Agree d') (snap : Snapshot) :
    (d.applySnapshot env snap).1.Agree (d'.applySnapshot env snap).1 := by
  obtain ⟨hd, hc, hm, hs⟩ := h
  cases snap with
  | cameras data =>
    refine ⟨hd, ?_, hm, hs⟩
    show (d.cameraModel.onStoreUpdated _ _ data).1 = (d'.cameraModel.onStoreUpdated _ _ data).1
    rw [hc]
  | devices data =>
    refine ⟨hd, hc, ?_, hs⟩
    show d.deviceModel.onStoreUpdated data = d'.deviceModel.onStoreUpdated data
    rw [hm]
  | server data =>
    refine ⟨hd, hc, hm, ?_⟩
    show d.serverStatus.onStoreUpdated data = d'.serverStatus.onStoreUpdated data
    rw [hs]

theorem Agree.runTask (h : d.Agree d') (t : Task) : (d.runTask env t).Agree (d'.runTask env t) := by
  obtain ⟨hr, ho⟩ := h.runStore t
  unfold Data.runTask
  cases hd : d.runStore t with
  | mk e o =>
  cases hd' : d'.runStore t with
  | mk e' o' =>
    rw [hd, hd'] at hr ho
    obtain rfl : o = o' := ho
    cases o with
    | error err => exact hr
    | ok o =>
      cases o with
      | none => exact hr
      | some snap => exact hr.applySnapshot snap

theorem Agree.process (h : d.Agree d') (p : Packet) : (d.process env p).Agree (d'.process env p) :=
  List.foldl_rel h fun t _ _ _ h => h.runTask t

theorem Agree.processAll (h : d.Agree d') (ps : List Packet) :
    (d.processAll env ps).Agree (d'.processAll env ps) :=
  List.foldl_rel h fun p _ _ _ h => h.process p

/-! ## What tells two first sessions apart -/

/-- A status packet without members. -/
def emptyStatus : Packet := .available (.object []) 0 0

theorem wellTyped_emptyStatus : emptyStatus.WellTyped := by
  intro t ht d
  obtain rfl | ht := List.mem_cons.mp ht
  · exact ⟨some (.devices d.deviceStore.devices), rfl⟩
  · obtain rfl := List.mem_singleton.mp ht
    exact ⟨some (.server .default), rfl⟩

theorem devices_process_emptyStatus (h : d.deviceModel = .empty) :
    (d.process env emptyStatus).deviceModel.devices = d.deviceStore.devices.map .ofDevice := by
  show (d.deviceModel.onStoreUpdated d.deviceStore.devices).devices = _
  rw [h, DeviceModel.devices_onStoreUpdated_empty]

/-- **Session isolation.** Two first sessions show nothing of themselves in the second one exactly
when they leave the same devices in the store and the same server status. -/
theorem session_isolation_iff (env : Env) (first first' : List Packet) :
    (∀ second, (∀ p ∈ second, p.WellTyped) →
      (afterSessions env first second).contents = (afterSessions env first' second).contents) ↔
    (processAll env init first).deviceStore = (processAll env init first').deviceStore ∧
      (processAll env init first).serverStatus = (processAll env init first').serverStatus := by
  constructor
  · intro h
    have hnil := h [] fun p hp => absurd hp List.not_mem_nil
    have hone := h [emptyStatus] fun p hp => by
      rw [List.mem_singleton.mp hp]
      exact wellTyped_emptyStatus
    have hdev : ∀ first, (afterSessions env first [emptyStatus]).deviceModel.devices =
        (processAll env init first).deviceStore.devices.map .ofDevice :=
      fun first => devices_process_emptyStatus rfl
    refine ⟨?_, congrArg Contents.serverStatus hnil⟩
    have hrows := congrArg Contents.devices hone
    rw [show (afterSessions env first [emptyStatus]).contents.devices = _ from hdev first,
      show (afterSessions env first' [emptyStatus]).contents.devices = _ from hdev first'] at hrows
    have hd := List.map_injective_iff.mpr DeviceEntry.ofDevice_injective hrows
    cases hs : (processAll env init first).deviceStore
    cases hs' : (processAll env init first').deviceStore
    rw [hs, hs'] at hd
    exact congrArg DeviceStore.mk hd
  · rintro ⟨hd, hs⟩ second -
    have hstart : ((processAll env init first).logout env).1.Agree
        ((processAll env init first').logout env).1 := ⟨hd, rfl, rfl, hs⟩
    exact (hstart.processAll second).contents

/-- **A leak.** After a session with one camera and a logout, an empty camera list shows the device
of that session. -/
theorem session_isolation_fails :
    ¬ ∀ (env : Env) (first first' second : List Packet), (∀ p ∈ second, p.WellTyped) →
      (afterSessions env first second).contents = (afterSessions env first' second).contents := by
  intro h
  have hw : ∀ p ∈ [Packet.camera (.array [])], p.WellTyped := by
    intro p hp t ht d
    obtain rfl := List.mem_singleton.mp hp
    obtain rfl | ht := List.mem_cons.mp ht
    · exact ⟨some (.cameras []), rfl⟩
    · obtain rfl := List.mem_singleton.mp ht
      exact ⟨some (.devices _), rfl⟩
  have hrows := congrArg (fun c => c.devices.length)
    (h .sample [.camera (sampleCamera true)] [] [.camera (.array [])] hw)
  exact absurd hrows (by decide)

end Data

end AnoMap
