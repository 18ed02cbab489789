import AnoMap.Lib.Machine
import AnoMap.Lib.RowView
import AnoMap.Models.DeviceModel

/-!
# The device model for its views

`DeviceModel` as a model of the Qt model interface: the cells of its rows and the row notifications
of `onStoreUpdated` and `clearAll`.

* `data`, `rows`: the cells; `updateRowsRows`, `observed`: the notifications.
* `Ranged`: the index leads to rows that are there, also while a snapshot is walked.
* **`views_in_sync`**: a view that goes by the notifications shows the rows, after any run from any
  moment on, whatever addresses a snapshot repeats.
-/

set_option autoImplicit false

namespace AnoMap

namespace Models

open Domain RowView

namespace DeviceModel

inductive Role where
  | ip | cameraId | type | isOnline | cpu | memory | temp | uptime | hasMotor | hasIr | hasHeater
  deriving DecidableEq, Repr

inductive Cell where
  | string (value : String)
  | bool (value : Bool)
  | double (value : Double)
  | int (value : ℤ)
  deriving DecidableEq, Repr

def data (d : DeviceEntry) : Role → Cell
  | .ip => .string d.ip
  | .cameraId => .string d.cameraId
  | .type => .string d.type
  | .isOnline => .bool d.isOnline
  | .cpu => .double d.cpu
  | .memory => .double d.memory
  | .temp => .double d.temp
  | .uptime => .int d.uptime
  | .hasMotor => .bool d.hasMotor
  | .hasIr => .bool d.hasIr
  | .hasHeater => .bool d.hasHeater

def rows (m : DeviceModel) : List (Role → Cell) := m.devices.map data

/-- The notification of one entry of a snapshot. -/
def updateRowRows (m : DeviceModel) (snap : DeviceIntegrated) : Emission Role Cell :=
  match m.findIndexByIp snap.ip with
  | some idx => ⟨.dataChanged ⟨idx, idx, []⟩, (m.updateRow snap).rows⟩
  | none => ⟨.rowsInserted m.devices.length m.devices.length, (m.updateRow snap).rows⟩

/-- The loop over a snapshot. -/
def updateRowsRows (m : DeviceModel) : List DeviceIntegrated → List (Emission Role Cell)
  | [] => []
  | snap :: snapshot => m.updateRowRows snap :: (m.updateRow snap).updateRowsRows snapshot

inductive Op where
  | onStoreUpdated (snapshot : List DeviceIntegrated)
  | clearAll

/-- One operation with the notifications it makes. -/
def observed (m : DeviceModel) : Op → DeviceModel × List (Emission Role Cell)
  | .onStoreUpdated snapshot => (m.onStoreUpdated snapshot, m.updateRowsRows snapshot)
  | .clearAll => (m.clearAll, [⟨.modelReset, m.clearAll.rows⟩])

/-! ## The index -/

/-- The index leads to rows that are there. -/
def Ranged (m : DeviceModel) : Prop :=
  ∀ ip idx, m.findIndexByIp ip = some idx → idx < m.devices.length

variable {m : DeviceModel}

theorem Ranged.updateRow (h : m.Ranged) (snap : DeviceIntegrated) : (m.updateRow snap).Ranged := by
  intro ip idx hidx
  have hold : ∀ idx, m.findIndexByIp ip = some idx → idx < m.devices.length := h ip
  unfold DeviceModel.updateRow at hidx ⊢
  cases hf : m.findIndexByIp snap.ip with
  | some at_ =>
    rw [hf] at hidx
    have := hold idx hidx
    simpa using this
  | none =>
    rw [hf] at hidx
    have := hold idx hidx
    simp only [List.length_append, List.length_singleton]
    omega

theorem indexRows_lt {devices : List DeviceEntry} {ip : String} {idx : ℕ}
    (h : (indexRows devices).get? ip = some idx) : idx < devices.length := by
  unfold indexRows at h
  induction devices using List.reverseRecOn generalizing idx with
  | nil => simp at h
  | append_singleton devices d ih =>
    rw [List.zipIdx_append, List.foldl_append] at h
    simp only [List.zipIdx_singleton, List.foldl_cons, List.foldl_nil] at h
    rw [KeyMap.get?_set] at h
    rw [List.length_append, List.length_singleton]
    split_ifs at h
    · have := Option.some.inj h
      omega
    · have := ih h
      omega

theorem ranged_onStoreUpdated (m : DeviceModel) (snapshot : List DeviceIntegrated) :
    (m.onStoreUpdated snapshot).Ranged := fun _ _ h => indexRows_lt h

/-! ## Notifications -/

theorem announces_updateRow (h : m.Ranged) (snap : DeviceIntegrated) :
    Announces Role.ip m.rows [m.updateRowRows snap] (m.updateRow snap).rows := by
  unfold updateRowRows DeviceModel.updateRow
  cases hf : m.findIndexByIp snap.ip with
  | some idx =>
    have hlt := h _ _ hf
    have hkey : data { DeviceEntry.ofDevice snap with ip := m.devices[idx].ip } Role.ip =
        data m.devices[idx] Role.ip := rfl
    have hu := Announces.update_row ((m.devices.take idx).map data)
      ((m.devices.drop (idx + 1)).map data) [] hkey fun _ => Or.inr (Or.inl rfl)
    rw [← List.map_cons, ← List.map_cons, ← List.map_append, ← List.map_append,
      List.getElem_cons_drop, List.take_append_drop, List.length_map, List.length_take,
      Nat.min_eq_left hlt.le] at hu
    unfold rows
    dsimp only
    rw [List.modify_eq_take_cons_drop hlt]
    exact hu
  | none =>
    have hi : Announces Role.ip _ _ _ := Announces.insert (m.devices.map data)
      [data (.ofDevice snap)] [] Nat.one_pos
    rw [List.append_nil, List.append_nil, List.length_map] at hi
    unfold rows
    dsimp only
    rw [List.map_append]
    exact hi

theorem announces_updateRows (h : m.Ranged) (snapshot : List DeviceIntegrated) :
    Announces Role.ip m.rows (m.updateRowsRows snapshot) (snapshot.foldl updateRow m).rows := by
  induction snapshot generalizing m with
  | nil => exact Announces.refl _
  | cons snap snapshot ih => exact (announces_updateRow h snap).trans (ih (h.updateRow snap))

theorem announces_observed (h : m.Ranged) (op : Op) :
    Announces Role.ip m.rows (m.observed op).2 (m.observed op).1.rows := by
  cases op with
  | onStoreUpdated snapshot => exact announces_updateRows h snapshot
  | clearAll => exact Announces.reset _ _

theorem ranged_empty : empty.Ranged := by
  intro ip idx h
  cases h

theorem Ranged.observed (m : DeviceModel) (op : Op) : (m.observed op).1.Ranged := by
  cases op with
  | onStoreUpdated snapshot => exact m.ranged_onStoreUpdated snapshot
  | clearAll => exact ranged_empty

/-- **Views are in sync.** -/
theorem views_in_sync (pre ops : List Op) :
    replay (Machine.final observed empty pre).rows
        (Machine.outputs observed (Machine.final observed empty pre) ops) =
      some (Machine.final observed empty (pre ++ ops)).rows := by
  have hpre : (Machine.final observed empty pre).Ranged :=
    Machine.invariant _ Ranged (fun _ => True) ranged_empty (fun m op _ _ => .observed m op) pre
      fun _ _ => trivial
  rw [Machine.final_append]
  exact (Announces.run observed rows
    (fun m op h => ⟨Ranged.observed m op, announces_observed h op⟩) hpre ops).replay_eq

end DeviceModel

end Models

end AnoMap
