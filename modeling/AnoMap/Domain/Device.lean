import AnoMap.Domain.Camera

/-!
# Devices

`DeviceStore`: the devices by address, as the camera list and the status packets describe them.

* `updateFromCameraJson`, `updateFromAvailableJson`: the updates. The clock reading of a status
  packet is an argument. The deprecated `updateFromJson` is left out, nothing calls it.
* `AcceptsCamera`, `ListsCamera`, `AcceptsAvailable`, `ListsAvailable`: the texts that make an
  update call its callback, and those that name a device.
* `updateFromCameraJson_quiet`, `updateFromAvailableJson_quiet`: on an empty store a text that names
  no device hands on no device.
-/

set_option autoImplicit false

namespace AnoMap

namespace Domain

structure DeviceSnapshot where
  timestamp : ℤ
  cpu : Double
  memory : Double
  temp : Double
  uptime : ℤ
  deriving DecidableEq, Repr

structure DeviceIntegrated where
  ip : String
  cameraId : String
  type : String
  isOnline : Bool
  cpu : Double
  memory : Double
  temp : Double
  uptime : ℤ
  lastUpdate : ℤ
  hasMotor : Bool
  hasIr : Bool
  hasHeater : Bool
  history : List DeviceSnapshot
  deriving DecidableEq, Repr

/-- The member initialisers of `DeviceIntegrated`, with the address set. -/
def DeviceIntegrated.new (ip : String) : DeviceIntegrated where
  ip := ip
  cameraId := ""
  type := ""
  isOnline := false
  cpu := 0
  memory := 0
  temp := 0
  uptime := 0
  lastUpdate := 0
  hasMotor := true
  hasIr := false
  hasHeater := false
  history := []

structure DeviceStore where
  devices : List DeviceIntegrated
  deriving DecidableEq

/-- What a camera list says of a device. -/
structure CameraItem where
  ip : String
  cameraId : String
  type : String
  isOnline : Bool

namespace DeviceStore

def maxHistory : ℕ := 60

def empty : DeviceStore := ⟨[]⟩

def clear (_ : DeviceStore) : DeviceStore := empty

/-- `findIndexByIp`; `none` for `-1`. -/
def findIndexByIp (devices : List DeviceIntegrated) (ip : String) : Option ℕ :=
  devices.findIdx? fun d => d.ip = ip

def getHistory (s : DeviceStore) (ip : String) : List DeviceSnapshot :=
  match findIndexByIp s.devices ip with
  | some idx => (s.devices.getD idx (.new "")).history
  | none => []

/-! ## Camera lists -/

/-- One item of a camera list, none when it is skipped. -/
def readCamera (item : Json) : Except TypeError (Option CameraItem) := do
  if item.isObject = false then return none
  let ip ← item.value "ip" ""
  if ip = "" then return none
  let sourceUrl ← item.value "source_url" ""
  let type ← item.value "type" ""
  let isOnline ← item.value "is_online" false
  return some ⟨ip, cameraIdOf sourceUrl ip, type, isOnline⟩

/-- The device of an item: the one held for its address, or a new one, with the static values of
the item. -/
def mergeCamera (devices : List DeviceIntegrated) (c : CameraItem) : DeviceIntegrated :=
  { (devices.find? fun d => d.ip = c.ip).getD (.new c.ip) with
    cameraId := c.cameraId
    type := c.type
    isOnline := c.isOnline
    hasMotor := decide (c.type = "SUB_PI")
    hasIr := false
    hasHeater := false }

/-- The loop over the items. -/
def mergeItems (devices : List DeviceIntegrated) :
    List Json → List DeviceIntegrated → Except TypeError (List DeviceIntegrated)
  | [], merged => .ok merged
  | item :: items, merged =>
    match readCamera item with
    | .error e => .error e
    | .ok none => mergeItems devices items merged
    | .ok (some c) => mergeItems devices items (merged ++ [mergeCamera devices c])

/-- The devices the list does not name follow, offline. -/
def appendOffline (devices merged : List DeviceIntegrated) : List DeviceIntegrated :=
  devices.foldl (fun merged old =>
    if merged.any fun d => d.ip = old.ip then merged
    else merged ++ [{ old with isOnline := false }]) merged

def updateFromCameraJson (s : DeviceStore) (parsed : Json) :
    DeviceStore × Outcome (List DeviceIntegrated) :=
  match parsed with
  | .array items =>
    match mergeItems s.devices items [] with
    | .error e => (s, .error e)
    | .ok merged =>
      let merged := appendOffline s.devices merged
      (⟨merged⟩, .ok (some merged))
  | _ => (s, .ok none)

/-! ## Status packets -/

def addSnapshot (device : DeviceIntegrated) (snap : DeviceSnapshot) : DeviceIntegrated :=
  let history := device.history ++ [snap]
  { device with history := history.drop (history.length - maxHistory) }

/-- The dynamic values of an item, one after the other. -/
def applyStatus (timestamp : ℤ) (item : Json) (device : DeviceIntegrated) :
    DeviceIntegrated × Except TypeError Unit :=
  match item.value "cpu" (0 : Double) with
  | .error e => (device, .error e)
  | .ok cpu =>
    let device := { device with cpu := cpu }
    match item.value "memory" (0 : Double) with
    | .error e => (device, .error e)
    | .ok memory =>
      let device := { device with memory := memory }
      match item.value "temp" (0 : Double) with
      | .error e => (device, .error e)
      | .ok temp =>
        let device := { device with temp := temp }
        match item.value "uptime" (0 : ℤ) with
        | .error e => (device, .error e)
        | .ok uptime =>
          let device := { device with uptime := uptime, lastUpdate := timestamp }
          (addSnapshot device ⟨timestamp, cpu, memory, temp, uptime⟩, .ok ())

/-- One item of the `devices` array. -/
def updateItem (timestamp : ℤ) (devices : List DeviceIntegrated) (item : Json) :
    List DeviceIntegrated × Except TypeError Unit :=
  if item.isObject = false then (devices, .ok ())
  else
    match item.value "ip" "" with
    | .error e => (devices, .error e)
    | .ok ip =>
      if ip = "" then (devices, .ok ())
      else
        match findIndexByIp devices ip with
        | some idx =>
          let r := applyStatus timestamp item (devices.getD idx (.new ip))
          (devices.set idx r.1, r.2)
        | none =>
          let r := applyStatus timestamp item (.new ip)
          (devices ++ [r.1], r.2)

/-- The loop over the `devices` array. -/
def updateItems (timestamp : ℤ) : List Json → List DeviceIntegrated →
    List DeviceIntegrated × Except TypeError Unit
  | [], devices => (devices, .ok ())
  | item :: items, devices =>
    match updateItem timestamp devices item with
    | (devices, .error e) => (devices, .error e)
    | (devices, .ok ()) => updateItems timestamp items devices

/-- The items of the `devices` array, none of them when the member is missing or no array. -/
def statusItems (parsed : Json) : List Json :=
  match parsed.member? "devices" with
  | some (.array items) => items
  | _ => []

def updateFromAvailableJson (s : DeviceStore) (timestamp : ℤ) (parsed : Json) :
    DeviceStore × Outcome (List DeviceIntegrated) :=
  if parsed.isObject = false then (s, .ok none)
  else
    match updateItems timestamp (statusItems parsed) s.devices with
    | (devices, .error e) => (⟨devices⟩, .error e)
    | (devices, .ok ()) => (⟨devices⟩, .ok (some devices))

/-! ## Which texts an update accepts -/

/-- A camera list all of whose items read well. -/
def AcceptsCamera (parsed : Json) : Prop :=
  ∃ items, parsed = .array items ∧ ∀ item ∈ items, ∃ r, readCamera item = .ok r

/-- A camera list one of whose items names a device. -/
def ListsCamera (parsed : Json) : Prop :=
  ∃ items, parsed = .array items ∧ ∃ item ∈ items, ∃ c, readCamera item = .ok (some c)

/-- The members the status update reads of an item have the right types. -/
def ReadsStatus (item : Json) : Prop :=
  item.isObject = true → ∃ ip, item.value "ip" "" = .ok ip ∧ (ip ≠ "" →
    (∃ x, item.value "cpu" (0 : Double) = .ok x) ∧ (∃ x, item.value "memory" (0 : Double) = .ok x) ∧
    (∃ x, item.value "temp" (0 : Double) = .ok x) ∧ ∃ n, item.value "uptime" (0 : ℤ) = .ok n)

/-- A status packet all of whose items read well. -/
def AcceptsAvailable (parsed : Json) : Prop :=
  parsed.isObject = true ∧ ∀ item ∈ statusItems parsed, ReadsStatus item

/-- An item with an address. -/
def NamesDevice (item : Json) : Prop :=
  item.isObject = true ∧ ∃ ip, item.value "ip" "" = .ok ip ∧ ip ≠ ""

/-- A status packet one of whose items names a device. -/
def ListsAvailable (parsed : Json) : Prop :=
  ∃ item ∈ statusItems parsed, NamesDevice item

theorem mergeItems_ok {devices merged out : List DeviceIntegrated} {items : List Json}
    (h : mergeItems devices items merged = .ok out) :
    (∀ item ∈ items, ∃ r, readCamera item = .ok r) ∧
      (merged ≠ out → ∃ item ∈ items, ∃ c, readCamera item = .ok (some c)) := by
  induction items generalizing merged with
  | nil =>
    obtain rfl : merged = out := Except.ok.inj h
    exact ⟨fun item hi => absurd hi List.not_mem_nil, fun hne => absurd rfl hne⟩
  | cons item items ih =>
    unfold mergeItems at h
    cases hr : readCamera item with
    | error e => rw [hr] at h; cases h
    | ok r =>
      rw [hr] at h
      cases r with
      | none =>
        obtain ⟨hall, hex⟩ := ih h
        refine ⟨List.forall_mem_cons.mpr ⟨⟨none, hr⟩, hall⟩, fun hne => ?_⟩
        obtain ⟨item', hi, hc⟩ := hex hne
        exact ⟨item', List.mem_cons_of_mem item hi, hc⟩
      | some c =>
        exact ⟨List.forall_mem_cons.mpr ⟨⟨some c, hr⟩, (ih h).1⟩,
          fun _ => ⟨item, List.mem_cons_self, c, hr⟩⟩

theorem applyStatus_ok {timestamp : ℤ} {item : Json} {device : DeviceIntegrated}
    (h : (applyStatus timestamp item device).2 = .ok ()) :
    (∃ x, item.value "cpu" (0 : Double) = .ok x) ∧ (∃ x, item.value "memory" (0 : Double) = .ok x) ∧
      (∃ x, item.value "temp" (0 : Double) = .ok x) ∧ ∃ n, item.value "uptime" (0 : ℤ) = .ok n := by
  unfold applyStatus at h
  cases hc : item.value "cpu" (0 : Double) with
  | error e => rw [hc] at h; cases h
  | ok cpu =>
  cases hm : item.value "memory" (0 : Double) with
  | error e => rw [hc, hm] at h; cases h
  | ok memory =>
  cases ht : item.value "temp" (0 : Double) with
  | error e => rw [hc, hm, ht] at h; cases h
  | ok temp =>
  cases hu : item.value "uptime" (0 : ℤ) with
  | error e => rw [hc, hm, ht, hu] at h; cases h
  | ok uptime => exact ⟨⟨cpu, rfl⟩, ⟨memory, rfl⟩, ⟨temp, rfl⟩, uptime, rfl⟩

theorem updateItem_ok {timestamp : ℤ} {devices out : List DeviceIntegrated} {item : Json}
    (h : updateItem timestamp devices item = (out, .ok ())) :
    ReadsStatus item ∧ (¬ NamesDevice item → out = devices) := by
  unfold updateItem at h
  split at h
  · next ho =>
    exact ⟨fun ho' => absurd (ho'.symm.trans ho) (by decide), fun _ => (Prod.mk.inj h).1.symm⟩
  · next ho =>
    cases hip : item.value "ip" "" with
    | error e => rw [hip] at h; cases (Prod.mk.inj h).2
    | ok ip =>
      rw [hip] at h
      dsimp only at h
      by_cases he : ip = ""
      · rw [if_pos he] at h
        exact ⟨fun _ => ⟨ip, hip, fun hne => absurd he hne⟩, fun _ => (Prod.mk.inj h).1.symm⟩
      · rw [if_neg he] at h
        have hn : NamesDevice item := ⟨Bool.eq_true_of_not_eq_false ho, ip, hip, he⟩
        refine ⟨fun _ => ⟨ip, hip, fun _ => ?_⟩, fun hnot => absurd hn hnot⟩
        cases hf : findIndexByIp devices ip with
        | some idx => rw [hf] at h; exact applyStatus_ok (Prod.mk.inj h).2
        | none => rw [hf] at h; exact applyStatus_ok (Prod.mk.inj h).2

theorem updateItems_ok {timestamp : ℤ} {items : List Json} {devices out : List DeviceIntegrated}
    (h : updateItems timestamp items devices = (out, .ok ())) :
    (∀ item ∈ items, ReadsStatus item) ∧ ((∀ item ∈ items, ¬ NamesDevice item) → out = devices) := by
  induction items generalizing devices with
  | nil => exact ⟨fun item hi => absurd hi List.not_mem_nil, fun _ => (Prod.mk.inj h).1.symm⟩
  | cons item items ih =>
    unfold updateItems at h
    split at h
    · cases (Prod.mk.inj h).2
    · next devices' hu =>
      obtain ⟨hr, hk⟩ := updateItem_ok hu
      obtain ⟨hrs, hks⟩ := ih h
      refine ⟨List.forall_mem_cons.mpr ⟨hr, hrs⟩, fun hn => ?_⟩
      rw [hks fun i hi => hn i (List.mem_cons_of_mem item hi), hk (hn item List.mem_cons_self)]

/-- An update that throws, or leaves the store as it is and hands on no device. -/
def Quiet (s : DeviceStore) (r : DeviceStore × Outcome (List DeviceIntegrated)) : Prop :=
  (∃ e, r.2 = .error e) ∨ r.1 = s ∧ (r.2 = .ok none ∨ r.2 = .ok (some []))

/-- **Quiet camera lists.** A camera list is quiet on an empty store when it names no device, and on
any store when it is not accepted. -/
theorem updateFromCameraJson_quiet {s : DeviceStore} {parsed : Json}
    (h : AcceptsCamera parsed → s.devices = [] ∧ ¬ ListsCamera parsed) :
    Quiet s (s.updateFromCameraJson parsed) := by
  unfold updateFromCameraJson
  split
  · next items =>
    cases hm : mergeItems s.devices items [] with
    | error e => exact .inl ⟨e, rfl⟩
    | ok merged =>
      obtain ⟨hall, hex⟩ := mergeItems_ok hm
      obtain ⟨hd, hl⟩ := h ⟨items, rfl, hall⟩
      have hnil : merged = [] := by
        by_contra hne
        exact hl ⟨items, rfl, hex fun he => hne he.symm⟩
      obtain ⟨devices⟩ := s
      obtain rfl : devices = [] := hd
      rw [hnil]
      exact .inr ⟨rfl, .inr rfl⟩
  · exact .inr ⟨rfl, .inl rfl⟩

theorem updateFromAvailableJson_quiet {s : DeviceStore} {timestamp : ℤ} {parsed : Json}
    (h : AcceptsAvailable parsed → s.devices = [] ∧ ¬ ListsAvailable parsed) :
    Quiet s (s.updateFromAvailableJson timestamp parsed) := by
  unfold updateFromAvailableJson
  split
  · exact .inr ⟨rfl, .inl rfl⟩
  · next ho =>
    split
    · next e _ => exact .inl ⟨e, rfl⟩
    · next devices hu =>
      obtain ⟨hall, hk⟩ := updateItems_ok hu
      obtain ⟨hd, hl⟩ := h ⟨Bool.eq_true_of_not_eq_false ho, hall⟩
      obtain rfl : devices = s.devices := hk fun item hi hn => hl ⟨item, hi, hn⟩
      exact .inr ⟨rfl, .inr (by rw [hd])⟩

end DeviceStore

end Domain

end AnoMap
