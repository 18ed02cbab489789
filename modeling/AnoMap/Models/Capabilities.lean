import AnoMap.Domain.FailedUpdates
import AnoMap.Models.DeviceModel

/-!
# Capability flags

What a device can do is said by its type, and kept in three flags that a camera list sets. A status
packet may make a device of its own, whose flags are those of a new object.

* `FlagsMatch`: the flags say what the type says; no new device has flags that do.
* `DeviceDelivery`: the store, the snapshots it has handed on, and the model, which gets them in any
  order.
* `forall_cameraDevices`, `forall_updateItems_iff`, `forall_onStoreUpdated`: the flags after a camera
  list, a status packet and a snapshot.
* **`capabilities_match_iff`**: the flags match in every state of a run if and only if no status
  packet of the run names a device that the store does not have.
-/

set_option autoImplicit false

namespace AnoMap

namespace Domain

/-- Only a `SUB_PI` has a motor, and nothing has infrared light or a heater. -/
def FlagsMatch (type : String) (hasMotor hasIr hasHeater : Bool) : Prop :=
  (hasMotor = true ↔ type = "SUB_PI") ∧ hasIr = false ∧ hasHeater = false

def DeviceMatches (d : DeviceIntegrated) : Prop := FlagsMatch d.type d.hasMotor d.hasIr d.hasHeater

/-! ## The store -/

namespace DeviceStore

/-- A new device is said to have a motor, and has no type. -/
theorem not_matches_new (ip : String) : ¬ DeviceMatches (.new ip) := by
  rintro ⟨hmotor, -⟩
  have htype : "" = "SUB_PI" := hmotor.mp rfl
  exact absurd htype (by decide)

theorem matches_mergeCamera (devices : List DeviceIntegrated) (c : CameraItem) :
    DeviceMatches (mergeCamera devices c) := ⟨decide_eq_true_iff, rfl, rfl⟩

theorem matches_writeStatus_iff (timestamp : ℤ) (item : Json) (d : DeviceIntegrated) :
    DeviceMatches (writeStatus timestamp item d) ↔ DeviceMatches d := by
  rw [writeStatus_eq]
  exact Iff.rfl

theorem forall_cameraDevices {devices : List DeviceIntegrated} (h : ∀ d ∈ devices, DeviceMatches d)
    (cs : List CameraItem) : ∀ d ∈ cameraDevices devices cs, DeviceMatches d := by
  rw [cameraDevices, appendOffline_eq]
  refine Keyed.forall_mem_appendAbsent (fun d hd => ?_) h
  obtain ⟨c, -, rfl⟩ := List.mem_map.mp hd
  exact matches_mergeCamera devices c

/-- **A status packet** leaves flags that match if it makes no device, and only then. -/
theorem forall_updateItems_iff (timestamp : ℤ) (items : List Json)
    (devices : List DeviceIntegrated) :
    (∀ d ∈ (updateItems timestamp items devices).1, DeviceMatches d) ↔
      (∀ d ∈ devices, DeviceMatches d) ∧
        ∀ ip ∈ (filed timestamp items).map Prod.fst, ip ∈ ips devices := by
  rw [updateItems_fst, Keyed.forall_mem_upsertAll_iff (ip_writeStatus timestamp) (fun _ => rfl)
    (matches_writeStatus_iff timestamp)]
  refine and_congr_right fun _ => forall₂_congr fun ip _ => ?_
  rw [imp_iff_not (not_matches_new ip), not_not]
  rfl

theorem devices_step_available (s : DeviceStore) (timestamp : ℤ) (parsed : Json) :
    (s.step (.available timestamp parsed)).1.devices =
      (updateItems timestamp (statusItems parsed) s.devices).1 := by
  rw [step, updateFromAvailableJson]
  split_ifs with ho
  · have hnone : statusItems parsed = [] := by
      cases parsed <;> first | rfl | cases ho
    rw [hnone]
    rfl
  · rcases updateItems timestamp (statusItems parsed) s.devices with
      ⟨devices, e | ⟨⟩⟩ <;> rfl

end DeviceStore

end Domain

namespace Models

open Domain

def RowMatches (r : DeviceEntry) : Prop := FlagsMatch r.type r.hasMotor r.hasIr r.hasHeater

/-! ## The run -/

/-- The store, the snapshots handed on so far, and the model. -/
structure DeviceDelivery where
  store : DeviceStore
  posted : List (List DeviceIntegrated)
  model : DeviceModel

/-- An update of the store, the delivery of a snapshot handed on, or the model's `clearAll`. -/
inductive DeliveryEvent where
  | update (op : DeviceStore.Op)
  | deliver (k : ℕ)
  | clearAll

namespace DeviceDelivery

def init : DeviceDelivery := ⟨.empty, [], .empty⟩

/-- Snapshots reach the model in any order, each any number of times. -/
def step (s : DeviceDelivery) : DeliveryEvent → DeviceDelivery × List (List DeviceIntegrated)
  | .update op =>
    let r := s.store.step op
    ({ s with store := r.1, posted := s.posted ++ r.2 }, r.2)
  | .deliver k =>
    match s.posted[k]? with
    | some snapshot => ({ s with model := s.model.onStoreUpdated snapshot }, [])
    | none => (s, [])
  | .clearAll => ({ s with model := s.model.clearAll }, [])

abbrev reach (es : List DeliveryEvent) : DeviceDelivery := Machine.final step init es

/-- The flags match in the store and in the model. -/
def Matches (s : DeviceDelivery) : Prop :=
  (∀ d ∈ s.store.devices, DeviceMatches d) ∧ ∀ r ∈ s.model.devices, RowMatches r

/-- **The condition.** A status packet names, up to its first item that throws, devices of the
store. -/
def NamesKnown (s : DeviceDelivery) : DeliveryEvent → Prop
  | .update (.available timestamp parsed) =>
    ∀ ip ∈ (DeviceStore.filed timestamp (DeviceStore.statusItems parsed)).map Prod.fst,
      ip ∈ DeviceStore.ips s.store.devices
  | _ => True

end DeviceDelivery

/-! ## The model -/

namespace DeviceModel

theorem forall_updateRow {m : DeviceModel} (h : ∀ r ∈ m.devices, RowMatches r)
    {d : DeviceIntegrated} (hd : DeviceMatches d) : ∀ r ∈ (m.updateRow d).devices, RowMatches r := by
  unfold updateRow
  split
  · intro r hr
    obtain ⟨i, hi⟩ := List.getElem?_of_mem hr
    rw [List.getElem?_modify] at hi
    obtain ⟨r₀, hr₀, rfl⟩ := Option.map_eq_some_iff.mp hi
    dsimp only
    split_ifs
    · exact hd
    · exact h r₀ (List.mem_of_getElem? hr₀)
  · exact List.forall_mem_append.mpr ⟨h, List.forall_mem_singleton.mpr hd⟩

/-- **A snapshot** whose flags match leaves rows whose flags match. -/
theorem forall_onStoreUpdated {m : DeviceModel} (h : ∀ r ∈ m.devices, RowMatches r)
    {snapshot : List DeviceIntegrated} (hs : ∀ d ∈ snapshot, DeviceMatches d) :
    ∀ r ∈ (m.onStoreUpdated snapshot).devices, RowMatches r := by
  show ∀ r ∈ (snapshot.foldl updateRow m).devices, RowMatches r
  induction snapshot generalizing m with
  | nil => exact h
  | cons d snapshot ih =>
    obtain ⟨hd, hs⟩ := List.forall_mem_cons.mp hs
    exact ih (forall_updateRow h hd) hs

end DeviceModel

/-! ## The theorem -/

namespace DeviceDelivery

/-- The invariant: the snapshots on their way match as well. -/
structure Sound (s : DeviceDelivery) : Prop where
  store : ∀ d ∈ s.store.devices, DeviceMatches d
  posted : ∀ snapshot ∈ s.posted, ∀ d ∈ snapshot, DeviceMatches d
  model : ∀ r ∈ s.model.devices, RowMatches r

variable {s : DeviceDelivery}

theorem sound_init : init.Sound where
  store _ h := absurd h List.not_mem_nil
  posted _ h := absurd h List.not_mem_nil
  model _ h := absurd h List.not_mem_nil

theorem Sound.update (h : s.Sound) {op : DeviceStore.Op}
    (hop : ∀ d ∈ (s.store.step op).1.devices, DeviceMatches d) : (s.step (.update op)).1.Sound := by
  refine ⟨hop, List.forall_mem_append.mpr ⟨h.posted, fun snapshot hs => ?_⟩, h.model⟩
  rw [DeviceStore.mem_step_snd hs]
  exact hop

theorem Sound.step (h : s.Sound) {e : DeliveryEvent} (hn : s.NamesKnown e) :
    (s.step e).1.Sound := by
  cases e with
  | update op =>
    refine h.update ?_
    cases op with
    | camera parsed =>
      cases hl : DeviceStore.listed parsed with
      | none =>
        rw [DeviceStore.step_camera_not_listed hl]
        exact h.store
      | some cs =>
        rw [DeviceStore.step_camera_listed hl]
        exact DeviceStore.forall_cameraDevices h.store cs
    | available timestamp parsed =>
      rw [DeviceStore.devices_step_available]
      exact (DeviceStore.forall_updateItems_iff timestamp _ _).mpr ⟨h.store, hn⟩
    | clear => exact fun _ hd => absurd hd List.not_mem_nil
  | deliver k =>
    cases hk : s.posted[k]? with
    | none =>
      simp only [DeviceDelivery.step, hk]
      exact h
    | some snapshot =>
      simp only [DeviceDelivery.step, hk]
      have hsnapshot := h.posted snapshot (List.mem_of_getElem? hk)
      exact ⟨h.store, h.posted, DeviceModel.forall_onStoreUpdated h.model hsnapshot⟩
  | clearAll => exact ⟨h.store, h.posted, fun _ hr => absurd hr List.not_mem_nil⟩

/-- **Capability flags, exactly.** The flags match the types throughout a run if and only if no
status packet names a device that the store does not have. -/
theorem capabilities_match_iff (es : List DeliveryEvent) :
    (∀ pre, pre <+: es → (reach pre).Matches) ↔ Machine.Along step NamesKnown init es := by
  constructor
  · intro h
    refine (Machine.along_iff step init es).mpr fun pre e post hcut => ?_
    have hafter := (h (pre ++ [e]) ⟨post, by rw [hcut, List.append_assoc]; rfl⟩).1
    rw [reach, Machine.final_concat] at hafter
    cases e with
    | update op =>
      cases op with
      | available timestamp parsed =>
        replace hafter : ∀ d ∈ ((reach pre).store.step (.available timestamp parsed)).1.devices,
            DeviceMatches d := hafter
        rw [DeviceStore.devices_step_available] at hafter
        exact ((DeviceStore.forall_updateItems_iff timestamp _ _).mp hafter).2
      | _ => trivial
    | _ => trivial
  · intro h pre hpre
    have hs := Machine.invariant_along step sound_init (fun s e hn hs => hs.step hn) h pre hpre
    exact ⟨hs.store, hs.model⟩

/-- A status packet of one device. -/
def sampleStatus : Json := .object [("devices", .array [.object [("ip", .string "10.0.0.1")]])]

/-- **A status packet first**: its device has no type, and a motor, in the store and in the model. -/
theorem capabilities_match_fails :
    ¬ ∀ pre, pre <+: [.update (.available 0 sampleStatus), .deliver 0] → (reach pre).Matches := by
  intro h
  have hlast := (h _ List.prefix_rfl).2
  have hmotor := (hlast (.ofDevice (DeviceStore.sampled (.new "10.0.0.1") ⟨0, 0, 0, 0, 0⟩))
    (by decide +kernel)).1.mp rfl
  exact absurd hmotor (by decide)

end DeviceDelivery

end Models

end AnoMap
