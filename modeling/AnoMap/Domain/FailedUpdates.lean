import AnoMap.Domain.SampleFold
import AnoMap.Domain.ServerStatus

/-!
# Updates that fail

The four updates of the stores on texts that are rejected, or that make a typed read throw at any
item.

* `Stores.call`: an update, and whether it called its callback.
* `filed`: the items of a status packet whose device is written, up to the one that throws;
  `updateItems_fst`: they are changes under the devices' addresses.
* `statusAfter`: a device after some items, the last of which may throw; `statusAfter_eq_self_iff`.
* `Unmarked`: what a call that fails has written was there before.
* **`all_or_nothing_iff`**: an update is all-or-nothing if and only if it is `Unmarked`.
-/

set_option autoImplicit false

namespace AnoMap

namespace Domain

/-! ## The statement -/

structure Stores where
  cameraStore : CameraStore
  deviceStore : DeviceStore
  serverStatusStore : ServerStatusStore

/-- The updates. -/
inductive Update where
  | cameraFromJson (parsed : Json)
  | deviceFromCameraJson (parsed : Json)
  | deviceFromAvailableJson (timestamp : ℤ) (parsed : Json)
  | serverStatusFromJson (timestamp : ℤ) (parsed : Json)

/-- The callback is called. -/
def invokes {δ : Type} : Outcome δ → Bool
  | .ok (some _) => true
  | _ => false

/-- The stores after a call, and whether its callback was called. -/
def Stores.call (s : Stores) : Update → Stores × Bool
  | .cameraFromJson parsed =>
    let r := s.cameraStore.updateFromJson parsed
    ({ s with cameraStore := r.1 }, invokes r.2)
  | .deviceFromCameraJson parsed =>
    let r := s.deviceStore.updateFromCameraJson parsed
    ({ s with deviceStore := r.1 }, invokes r.2)
  | .deviceFromAvailableJson timestamp parsed =>
    let r := s.deviceStore.updateFromAvailableJson timestamp parsed
    ({ s with deviceStore := r.1 }, invokes r.2)
  | .serverStatusFromJson timestamp parsed =>
    let r := s.serverStatusStore.updateFromJson timestamp parsed
    ({ s with serverStatusStore := r.1 }, invokes r.2)

/-- **All or nothing.** A call that rejects its text or throws, so that its callback is not called,
leaves the stores as they were. -/
def AllOrNothing (s : Stores) (u : Update) : Prop := (s.call u).2 = false → (s.call u).1 = s

theorem not_exists_ok_eq_error {ε α : Type} (x : α) :
    ¬ ∃ e : ε, (Except.ok x : Except ε α) = .error e := by
  rintro ⟨e, h⟩
  cases h

namespace CameraStore

theorem exists_readItems_error_iff (items : List Json) (table : KeyMap String CameraStruct)
    (newData : List CameraData) : (∃ e, (readItems items table newData).2 = .error e) ↔
      ∃ item ∈ items, ∃ e, readItem item = .error e := by
  induction items generalizing table newData with
  | nil =>
    refine iff_of_false (not_exists_ok_eq_error _) ?_
    rintro ⟨_, h, -⟩
    cases h
  | cons item items ih =>
    rw [List.exists_mem_cons_iff]
    unfold readItems
    cases readItem item with
    | error e => exact iff_of_true ⟨e, rfl⟩ (.inl ⟨e, rfl⟩)
    | ok r =>
      rw [or_iff_right (not_exists_ok_eq_error _)]
      cases r with
      | none => exact ih table newData
      | some e => exact ih _ _

end CameraStore

namespace DeviceStore

/-! ## Status packets as changes by address -/

/-- The address an item is filed under. -/
def filedUnder (item : Json) : Option String :=
  if item.isObject = false then none
  else
    match item.value "ip" "" with
    | .error _ => none
    | .ok ip => if ip = "" then none else some ip

/-- The items that are filed, up to the first one that throws. -/
def filed (timestamp : ℤ) : List Json → List (String × Json)
  | [] => []
  | item :: items =>
    ((filedUnder item).map fun ip => (ip, item)).toList ++
      match readSample timestamp item with
      | .error _ => []
      | .ok _ => filed timestamp items

/-- What an item does to its device. -/
def writeStatus (timestamp : ℤ) (item : Json) (d : DeviceIntegrated) : DeviceIntegrated :=
  (applyStatus timestamp item d).1

theorem ip_writeStatus (timestamp : ℤ) (item : Json) (d : DeviceIntegrated) :
    (writeStatus timestamp item d).ip = d.ip := ip_applyStatus timestamp item d

/-- **An item** changes the device it is filed under. -/
theorem updateItem_fst (timestamp : ℤ) (devices : List DeviceIntegrated) (item : Json) :
    (updateItem timestamp devices item).1 = Keyed.upsertAll DeviceIntegrated.ip .new
      (writeStatus timestamp) ((filedUnder item).map fun ip => (ip, item)).toList devices := by
  unfold updateItem filedUnder
  split_ifs with ho
  · rfl
  cases item.value "ip" "" with
  | error e => rfl
  | ok ip =>
    dsimp only
    split_ifs with hip
    · rfl
    · show _ = Keyed.upsert DeviceIntegrated.ip .new ip (writeStatus timestamp item) devices
      rw [Keyed.upsert_eq_set DeviceIntegrated.ip .new ip _ devices (.new ip)]
      unfold findIndexByIp
      cases devices.findIdx? fun d => d.ip = ip <;> rfl

theorem exists_updateItem_error_iff (timestamp : ℤ) (devices : List DeviceIntegrated)
    (item : Json) : (∃ e, (updateItem timestamp devices item).2 = .error e) ↔
      ∃ e, readSample timestamp item = .error e := by
  constructor
  · rintro ⟨e, he⟩
    cases hr : readSample timestamp item with
    | error e' => exact ⟨e', rfl⟩
    | ok r =>
      rw [updateItem_eq hr] at he
      cases he
  · rintro ⟨e, he⟩
    cases hu : updateItem timestamp devices item with
    | mk out r =>
      cases r with
      | error e' => exact ⟨e', rfl⟩
      | ok u =>
        obtain ⟨x, hx⟩ := exists_readSample timestamp (updateItem_ok hu).1
        cases hx.symm.trans he

/-- **The devices of a call**, whether it throws or not, have the changes of the items filed. -/
theorem updateItems_fst (timestamp : ℤ) (items : List Json) (devices : List DeviceIntegrated) :
    (updateItems timestamp items devices).1 = Keyed.upsertAll DeviceIntegrated.ip .new
      (writeStatus timestamp) (filed timestamp items) devices := by
  induction items generalizing devices with
  | nil => rfl
  | cons item items ih =>
    have hitem := updateItem_fst timestamp devices item
    have herror := exists_updateItem_error_iff timestamp devices item
    unfold updateItems filed
    rw [Keyed.upsertAll, List.foldl_append]
    cases hu : updateItem timestamp devices item with
    | mk out r =>
      rw [hu] at hitem herror
      cases r with
      | error e =>
        obtain ⟨e', he'⟩ := herror.mp ⟨e, rfl⟩
        rw [he']
        exact hitem
      | ok u =>
        cases hr : readSample timestamp item with
        | error e' =>
          obtain ⟨e, he⟩ := herror.mpr ⟨e', hr⟩
          cases he
        | ok x =>
          dsimp only at hitem ⊢
          rw [ih, hitem]
          rfl

theorem exists_updateItems_error_iff (timestamp : ℤ) (items : List Json)
    (devices : List DeviceIntegrated) :
    (∃ e, (updateItems timestamp items devices).2 = .error e) ↔
      ∃ item ∈ items, ∃ e, readSample timestamp item = .error e := by
  induction items generalizing devices with
  | nil =>
    refine iff_of_false (not_exists_ok_eq_error _) ?_
    rintro ⟨_, h, -⟩
    cases h
  | cons item items ih =>
    rw [List.exists_mem_cons_iff, ← exists_updateItem_error_iff timestamp devices item]
    unfold updateItems
    cases hu : updateItem timestamp devices item with
    | mk out r =>
      cases r with
      | error e => exact iff_of_true ⟨e, rfl⟩ (.inl ⟨e, rfl⟩)
      | ok u => exact (ih out).trans (or_iff_right (not_exists_ok_eq_error _)).symm

/-! ## A device after some items -/

/-- What an item sets before it throws, if it does. -/
def givenCpu (item : Json) : Option Double := (item.value "cpu" (0 : Double)).toOption

def givenMemory (item : Json) : Option Double :=
  (givenCpu item).bind fun _ => (item.value "memory" (0 : Double)).toOption

def givenTemp (item : Json) : Option Double :=
  (givenMemory item).bind fun _ => (item.value "temp" (0 : Double)).toOption

def givenUptime (item : Json) : Option ℤ :=
  (givenTemp item).bind fun _ => (item.value "uptime" (0 : ℤ)).toOption

/-- The sample of an item that does not throw. -/
def givenSample (timestamp : ℤ) (item : Json) : Option DeviceSnapshot :=
  (givenCpu item).bind fun cpu => (givenMemory item).bind fun memory =>
    (givenTemp item).bind fun temp => (givenUptime item).map fun uptime =>
      ⟨timestamp, cpu, memory, temp, uptime⟩

/-- The last one given, or the one there was. -/
def lastGiven {α : Type} (given : List α) (x : α) : α := given.getLast?.getD x

/-- The history with some samples more. -/
def windowed (history samples : List DeviceSnapshot) : List DeviceSnapshot :=
  if samples = [] then history else (history ++ samples).rtake maxHistory

/-- A device after some items. -/
def statusAfter (timestamp : ℤ) (items : List Json) (d : DeviceIntegrated) : DeviceIntegrated :=
  let samples := items.filterMap (givenSample timestamp)
  { d with
    cpu := lastGiven (items.filterMap givenCpu) d.cpu
    memory := lastGiven (items.filterMap givenMemory) d.memory
    temp := lastGiven (items.filterMap givenTemp) d.temp
    uptime := lastGiven (samples.map DeviceSnapshot.uptime) d.uptime
    lastUpdate := lastGiven (samples.map DeviceSnapshot.timestamp) d.lastUpdate
    history := windowed d.history samples }

theorem lastGiven_append_toList {α : Type} (given : List α) (o : Option α) (x : α) :
    lastGiven (given ++ o.toList) x = o.getD (lastGiven given x) := by
  cases o with
  | none => rw [Option.toList_none, List.append_nil]; rfl
  | some a => exact congrArg (·.getD x) List.getLast?_concat

theorem windowed_concat (history samples : List DeviceSnapshot) (snap : DeviceSnapshot) :
    windowed history (samples ++ [snap]) =
      (windowed history samples ++ [snap]).rtake maxHistory := by
  unfold windowed
  rw [if_neg (by simp), ← List.append_assoc]
  split_ifs with h
  · rw [h, List.append_nil]
  · exact rtake_concat _ snap maxHistory

/-- An item that throws at its first, second, third or fourth value, and one that does not. -/
theorem writeStatus_eq (timestamp : ℤ) (item : Json) (d : DeviceIntegrated) :
    writeStatus timestamp item d = { d with
      cpu := (givenCpu item).getD d.cpu
      memory := (givenMemory item).getD d.memory
      temp := (givenTemp item).getD d.temp
      uptime := ((givenSample timestamp item).map DeviceSnapshot.uptime).getD d.uptime
      lastUpdate := ((givenSample timestamp item).map DeviceSnapshot.timestamp).getD d.lastUpdate
      history := ((givenSample timestamp item).map fun snap =>
        (d.history ++ [snap]).rtake maxHistory).getD d.history } := by
  unfold writeStatus applyStatus givenSample givenUptime givenTemp givenMemory givenCpu
  cases item.value "cpu" (0 : Double) with
  | error e => rfl
  | ok cpu =>
  cases item.value "memory" (0 : Double) with
  | error e => rfl
  | ok memory =>
  cases item.value "temp" (0 : Double) with
  | error e => rfl
  | ok temp =>
  cases item.value "uptime" (0 : ℤ) with
  | error e => rfl
  | ok uptime => rfl

/-- **A device after some items**, one after the other. -/
theorem foldl_writeStatus (timestamp : ℤ) (items : List Json) (d : DeviceIntegrated) :
    items.foldl (fun d item => writeStatus timestamp item d) d = statusAfter timestamp items d := by
  induction items using List.reverseRecOn with
  | nil => rfl
  | append_singleton items item ih =>
    have hmap : ∀ {α : Type} (f : Json → Option α),
        (items ++ [item]).filterMap f = items.filterMap f ++ (f item).toList := fun f => by
      rw [List.filterMap_append, List.filterMap_cons]
      cases f item <;> rfl
    rw [List.foldl_concat, ih, writeStatus_eq]
    unfold statusAfter
    simp only [hmap, lastGiven_append_toList, List.map_append]
    cases givenSample timestamp item with
    | none => simp
    | some snap =>
      simp [windowed_concat, lastGiven]

/-! ## Nothing new -/

/-- The last one given, if any, is the one there was. -/
def Same {α : Type} (given : List α) (x : α) : Prop := ∀ y ∈ given.getLast?, y = x

/-- The device has the last values given and, if there are samples, a full history that is the end
of itself with the samples appended. -/
structure Holds (timestamp : ℤ) (items : List Json) (d : DeviceIntegrated) : Prop where
  cpu : Same (items.filterMap givenCpu) d.cpu
  memory : Same (items.filterMap givenMemory) d.memory
  temp : Same (items.filterMap givenTemp) d.temp
  uptime : Same ((items.filterMap (givenSample timestamp)).map DeviceSnapshot.uptime) d.uptime
  lastUpdate : Same ((items.filterMap (givenSample timestamp)).map DeviceSnapshot.timestamp)
    d.lastUpdate
  history : items.filterMap (givenSample timestamp) ≠ [] → d.history.length = maxHistory ∧
    d.history <:+ d.history ++ items.filterMap (givenSample timestamp)

theorem lastGiven_eq_self_iff {α : Type} {given : List α} {x : α} :
    lastGiven given x = x ↔ Same given x := by
  unfold lastGiven Same
  cases given.getLast? <;> simp

theorem windowed_eq_self_iff {history samples : List DeviceSnapshot} :
    windowed history samples = history ↔ (samples ≠ [] → history.length = maxHistory ∧
      history <:+ history ++ samples) := by
  unfold windowed
  split_ifs with hs
  · exact iff_of_true rfl fun h => absurd hs h
  · have hpos : 0 < samples.length := List.length_pos_iff.mpr hs
    have hlen : ((history ++ samples).rtake maxHistory).length =
        min maxHistory (history.length + samples.length) := by
      rw [List.rtake, List.length_drop, List.length_append]
      omega
    have hsuffix : (history ++ samples).rtake maxHistory <:+ history ++ samples :=
      List.drop_suffix _ _
    constructor
    · intro h _
      rw [h] at hlen hsuffix
      exact ⟨by omega, hsuffix⟩
    · intro h
      obtain ⟨hfull, hend⟩ := h hs
      have hle : history.length ≤ ((history ++ samples).rtake maxHistory).length := by omega
      have hsub := List.suffix_of_suffix_length_le hend hsuffix hle
      exact (hsub.eq_of_length (by omega)).symm

theorem statusAfter_eq_self_iff {timestamp : ℤ} {items : List Json} {d : DeviceIntegrated} :
    statusAfter timestamp items d = d ↔ Holds timestamp items d := by
  have hfields : statusAfter timestamp items d = d ↔
      lastGiven (items.filterMap givenCpu) d.cpu = d.cpu ∧
      lastGiven (items.filterMap givenMemory) d.memory = d.memory ∧
      lastGiven (items.filterMap givenTemp) d.temp = d.temp ∧
      lastGiven ((items.filterMap (givenSample timestamp)).map DeviceSnapshot.uptime) d.uptime =
        d.uptime ∧
      lastGiven ((items.filterMap (givenSample timestamp)).map DeviceSnapshot.timestamp)
        d.lastUpdate = d.lastUpdate ∧
      windowed d.history (items.filterMap (givenSample timestamp)) = d.history := by
    obtain ⟨ip, cameraId, type, isOnline, cpu, memory, temp, uptime, lastUpdate, hasMotor, hasIr,
      hasHeater, history⟩ := d
    simp only [statusAfter, DeviceIntegrated.mk.injEq, true_and]
  simp only [hfields, lastGiven_eq_self_iff, windowed_eq_self_iff]
  exact ⟨fun ⟨hc, hm, ht, hu, hl, hh⟩ => ⟨hc, hm, ht, hu, hl, hh⟩,
    fun ⟨hc, hm, ht, hu, hl, hh⟩ => ⟨hc, hm, ht, hu, hl, hh⟩⟩

end DeviceStore

/-! ## The condition -/

/-- What a call that fails has written was there before: the URLs of the items before the one that
throws, and the values of the items up to it. -/
def Unmarked (s : Stores) : Update → Prop
  | .cameraFromJson parsed =>
    ∀ items, parsed = .array items → (∃ item ∈ items, ∃ e, CameraStore.readItem item = .error e) →
      ∀ cameraId e, CameraStore.lastListed (CameraStore.entriesBefore items) cameraId = some e →
        ∃ c, s.cameraStore.table.get? cameraId = some c ∧ c.sourceUrl = e.2
  | .deviceFromAvailableJson timestamp parsed =>
    let items := DeviceStore.statusItems parsed
    (∃ item ∈ items, ∃ e, DeviceStore.readSample timestamp item = .error e) →
      ∀ ip ∈ (DeviceStore.filed timestamp items).map Prod.fst, ∃ d,
        Keyed.first? DeviceIntegrated.ip s.deviceStore.devices ip = some d ∧
          DeviceStore.Holds timestamp (Keyed.under (DeviceStore.filed timestamp items) ip) d
  | _ => True

theorem camera_all_or_nothing (s : CameraStore) (parsed : Json) :
    (invokes (s.updateFromJson parsed).2 = false → (s.updateFromJson parsed).1 = s) ↔
      ∀ items, parsed = .array items →
        (∃ item ∈ items, ∃ e, CameraStore.readItem item = .error e) →
        ∀ cameraId e, CameraStore.lastListed (CameraStore.entriesBefore items) cameraId = some e →
          ∃ c, s.table.get? cameraId = some c ∧ c.sourceUrl = e.2 := by
  cases parsed with
  | array items =>
    have hfst := CameraStore.readItems_fst items s.table []
    have hsnd := CameraStore.exists_readItems_error_iff items s.table []
    have hcond : ∀ P : List Json → Prop, (∀ items', Json.array items = .array items' → P items') ↔
        P items := fun P => ⟨fun h => h items rfl, fun h items' he => Json.array.inj he ▸ h⟩
    rw [hcond, ← hsnd, ← CameraStore.setSourceUrls_eq_self_iff, ← hfst]
    unfold CameraStore.updateFromJson
    dsimp only
    cases CameraStore.readItems items s.table [] with
    | mk table r =>
      cases r with
      | error e =>
        exact ⟨fun h _ => congrArg CameraStore.table (h rfl),
          fun h _ => congrArg (CameraStore.mk s.data) (h ⟨e, rfl⟩)⟩
      | ok data =>
        exact iff_of_true (fun h => absurd h Bool.false_ne_true.symm) fun h =>
          absurd h (not_exists_ok_eq_error data)
  | _ =>
    refine iff_of_true (fun _ => rfl) ?_
    rintro _ ⟨⟩

theorem available_all_or_nothing (s : DeviceStore) (timestamp : ℤ) (parsed : Json) :
    (invokes (s.updateFromAvailableJson timestamp parsed).2 = false →
        (s.updateFromAvailableJson timestamp parsed).1 = s) ↔
      ((∃ item ∈ DeviceStore.statusItems parsed, ∃ e,
          DeviceStore.readSample timestamp item = .error e) →
        ∀ ip ∈ (DeviceStore.filed timestamp (DeviceStore.statusItems parsed)).map Prod.fst, ∃ d,
          Keyed.first? DeviceIntegrated.ip s.devices ip = some d ∧ DeviceStore.Holds timestamp
            (Keyed.under (DeviceStore.filed timestamp (DeviceStore.statusItems parsed)) ip) d) := by
  have hfst := DeviceStore.updateItems_fst timestamp (DeviceStore.statusItems parsed) s.devices
  have hsnd := DeviceStore.exists_updateItems_error_iff timestamp (DeviceStore.statusItems parsed)
    s.devices
  simp only [← DeviceStore.statusAfter_eq_self_iff, ← DeviceStore.foldl_writeStatus]
  rw [← Keyed.upsertAll_eq_self_iff .new (DeviceStore.ip_writeStatus timestamp), ← hfst, ← hsnd]
  unfold DeviceStore.updateFromAvailableJson
  split_ifs with ho
  · rw [DeviceStore.statusItems_of_not_object ho]
    exact iff_of_true (fun _ => rfl) fun _ => rfl
  · cases DeviceStore.updateItems timestamp (DeviceStore.statusItems parsed) s.devices with
    | mk devices r =>
      cases r with
      | error e =>
        exact ⟨fun h _ => congrArg DeviceStore.devices (h rfl),
          fun h _ => congrArg DeviceStore.mk (h ⟨e, rfl⟩)⟩
      | ok u =>
        exact iff_of_true (fun h => absurd h Bool.false_ne_true.symm) fun h =>
          absurd h (not_exists_ok_eq_error u)

/-- The device list of a camera packet is built aside. -/
theorem deviceCamera_all_or_nothing (s : DeviceStore) (parsed : Json)
    (h : invokes (s.updateFromCameraJson parsed).2 = false) :
    (s.updateFromCameraJson parsed).1 = s := by
  cases hl : DeviceStore.listed parsed with
  | none => exact (DeviceStore.updateFromCameraJson_not_listed hl s).1
  | some cs =>
    rw [DeviceStore.updateFromCameraJson_listed hl] at h
    cases h

theorem serverStatus_all_or_nothing (s : ServerStatusStore) (timestamp : ℤ) (parsed : Json)
    (h : invokes (s.updateFromJson timestamp parsed).2 = false) :
    (s.updateFromJson timestamp parsed).1 = s := by
  unfold ServerStatusStore.updateFromJson at h ⊢
  split_ifs at h ⊢
  · rfl
  · cases hr : ServerStatusStore.read timestamp parsed with
    | error e => rfl
    | ok data =>
      rw [hr] at h
      cases h

/-! ## The theorem -/

/-- **All or nothing, exactly.** An update that fails leaves the stores as they were if and only if
what it has written was there before. The camera list of the device store and the server status
always do. -/
theorem all_or_nothing_iff (s : Stores) (u : Update) : AllOrNothing s u ↔ Unmarked s u := by
  obtain ⟨cameraStore, deviceStore, serverStatusStore⟩ := s
  cases u with
  | cameraFromJson parsed =>
    refine Iff.trans ?_ (camera_all_or_nothing cameraStore parsed)
    simp only [AllOrNothing, Stores.call, Stores.mk.injEq, and_true]
  | deviceFromCameraJson parsed =>
    refine iff_of_true (fun h => ?_) trivial
    simp only [Stores.call, deviceCamera_all_or_nothing deviceStore parsed h]
  | deviceFromAvailableJson timestamp parsed =>
    refine Iff.trans ?_ (available_all_or_nothing deviceStore timestamp parsed)
    simp only [AllOrNothing, Stores.call, Stores.mk.injEq, and_true, true_and]
  | serverStatusFromJson timestamp parsed =>
    refine iff_of_true (fun h => ?_) trivial
    simp only [Stores.call, serverStatus_all_or_nothing serverStatusStore timestamp parsed h]

/-- Stores before the first packet. -/
def Stores.empty : Stores := ⟨.empty, .empty, .empty⟩

/-- A camera, then an item whose type is a number. -/
def brokenCameraList : Json :=
  .array [.object [("ip", .string "10.0.0.1")], .object [("type", .integer 1)]]

/-- A device whose memory is a text. -/
def brokenStatus : Json :=
  .object [("devices", .array [.object [("ip", .string "10.0.0.1"), ("cpu", .integer 40),
    ("memory", .string "high")]])]

/-- **Traces.** The camera's table entry stays, and so does the device with its load. -/
theorem all_or_nothing_fails : ¬ AllOrNothing .empty (.cameraFromJson brokenCameraList) ∧
    ¬ AllOrNothing .empty (.deviceFromAvailableJson 5 brokenStatus) := by
  constructor
  · intro h
    have hs := congrArg (fun s => (s.cameraStore.table.get? "10.0.0.1/0").isSome)
      (h (by decide +kernel))
    exact absurd hs (by decide +kernel)
  · intro h
    have hs := congrArg (fun s => s.deviceStore.devices.length) (h (by decide +kernel))
    exact absurd hs (by decide +kernel)

end Domain

end AnoMap
