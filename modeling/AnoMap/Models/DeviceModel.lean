import AnoMap.Domain.Device

/-!
# The device model

`DeviceModel`: a row for every device of the snapshots it was given. The row notifications of the
Qt model interface and `historyUpdated` are left out.

* `onStoreUpdated`, `clearAll`: the operations; the lookups by address and by camera id.
* `devices_onStoreUpdated_empty`: on a model without rows a snapshot becomes one row per entry.
-/

set_option autoImplicit false

namespace AnoMap

namespace Models

open Domain

structure DeviceEntry where
  ip : String
  cameraId : String
  type : String
  isOnline : Bool
  cpu : Double
  memory : Double
  temp : Double
  uptime : ℤ
  lastUpdate : ℤ
  hasMotor : Bool
  hasIr : Bool
  hasHeater : Bool
  history : List DeviceSnapshot
  deriving DecidableEq, Repr

/-- The row of a device. -/
def DeviceEntry.ofDevice (snap : DeviceIntegrated) : DeviceEntry where
  ip := snap.ip
  cameraId := snap.cameraId
  type := snap.type
  isOnline := snap.isOnline
  cpu := snap.cpu
  memory := snap.memory
  temp := snap.temp
  uptime := snap.uptime
  lastUpdate := snap.lastUpdate
  hasMotor := snap.hasMotor
  hasIr := snap.hasIr
  hasHeater := snap.hasHeater
  history := snap.history

theorem DeviceEntry.ofDevice_injective : Function.Injective DeviceEntry.ofDevice := by
  intro a b h
  cases a
  cases b
  simpa only [ofDevice, DeviceEntry.mk.injEq, DeviceIntegrated.mk.injEq] using h

structure DeviceModel where
  devices : List DeviceEntry
  byIp : KeyMap String ℕ
  deriving DecidableEq

namespace DeviceModel

def empty : DeviceModel := ⟨[], ∅⟩

def clearAll (_ : DeviceModel) : DeviceModel := empty

/-- `findIndexByIp`; `none` for `-1`. -/
def findIndexByIp (m : DeviceModel) (ip : String) : Option ℕ := m.byIp.get? ip

/-- One entry of a snapshot: the row found under its address is updated, or a row is appended. -/
def updateRow (m : DeviceModel) (snap : DeviceIntegrated) : DeviceModel :=
  match m.findIndexByIp snap.ip with
  | some idx =>
    { m with devices := m.devices.modify idx fun entry =>
        { DeviceEntry.ofDevice snap with ip := entry.ip } }
  | none => { m with devices := m.devices ++ [.ofDevice snap] }

/-- The row numbers by address; a later row replaces an earlier one. -/
def indexRows (devices : List DeviceEntry) : KeyMap String ℕ :=
  devices.zipIdx.foldl (fun byIp e => byIp.set e.1.ip e.2) ∅

def onStoreUpdated (m : DeviceModel) (snapshot : List DeviceIntegrated) : DeviceModel :=
  let m := snapshot.foldl updateRow m
  { m with byIp := indexRows m.devices }

def row? (m : DeviceModel) (ip : String) : Option DeviceEntry :=
  (m.findIndexByIp ip).bind fun idx => m.devices[idx]?

def getHistory (m : DeviceModel) (ip : String) : List DeviceSnapshot :=
  match m.row? ip with
  | some d => d.history
  | none => []

theorem foldl_updateRow {m : DeviceModel} (h : m.byIp = ∅) (snapshot : List DeviceIntegrated) :
    snapshot.foldl updateRow m = ⟨m.devices ++ snapshot.map .ofDevice, ∅⟩ := by
  induction snapshot generalizing m with
  | nil =>
    rw [List.foldl_nil, List.map_nil, List.append_nil, ← h]
  | cons snap snapshot ih =>
    have hu : updateRow m snap = ⟨m.devices ++ [.ofDevice snap], ∅⟩ := by
      unfold updateRow findIndexByIp
      rw [h, KeyMap.get?_empty]
    rw [List.foldl_cons, hu, ih rfl, List.append_assoc, List.map_cons]
    rfl

/-- **The first snapshot.** On a model without rows a snapshot becomes one row per entry. -/
theorem devices_onStoreUpdated_empty (snapshot : List DeviceIntegrated) :
    (empty.onStoreUpdated snapshot).devices = snapshot.map .ofDevice := by
  unfold onStoreUpdated
  rw [foldl_updateRow rfl]
  exact List.nil_append _

@[simp] theorem onStoreUpdated_empty_nil : empty.onStoreUpdated [] = empty := rfl

end DeviceModel

end Models

end AnoMap
