import AnoMap.Domain.Device
import AnoMap.Lib.Keyed
import AnoMap.Lib.Machine

/-!
# Runs of the device store

The store under any sequence of camera lists, status packets and `clear`.

* `listed`, `readSample`: what a camera list and an item of a status packet say;
  `updateFromCameraJson_listed`, `updateItem_eq`: the updates in terms of them.
* `step`, `reach`: the runs.
* **`primary_key_iff`**: addresses stay distinct exactly when no camera list names one twice.
-/

set_option autoImplicit false

namespace AnoMap

namespace Domain

namespace DeviceStore

/-- The addresses, in the order of the devices. -/
def ips (devices : List DeviceIntegrated) : List String := devices.map DeviceIntegrated.ip

/-! ## Camera lists -/

/-- What the items of a camera list say, those skipped left out. -/
def cameraItems : List Json → Except TypeError (List CameraItem)
  | [] => .ok []
  | item :: items =>
    match readCamera item with
    | .error e => .error e
    | .ok c => (cameraItems items).map (c.toList ++ ·)

/-- What an accepted camera list says. -/
def listed : Json → Option (List CameraItem)
  | .array items => (cameraItems items).toOption
  | _ => none

/-- The devices after a camera list. -/
def cameraDevices (devices : List DeviceIntegrated) (cs : List CameraItem) :
    List DeviceIntegrated :=
  appendOffline devices (cs.map (mergeCamera devices))

theorem mergeItems_eq (devices : List DeviceIntegrated) (items : List Json)
    (merged : List DeviceIntegrated) :
    mergeItems devices items merged =
      (cameraItems items).map fun cs => merged ++ cs.map (mergeCamera devices) := by
  induction items generalizing merged with
  | nil => exact congrArg Except.ok (List.append_nil merged).symm
  | cons item items ih =>
    unfold mergeItems cameraItems
    cases readCamera item with
    | error e => rfl
    | ok c =>
      cases c with
      | none =>
        dsimp only
        rw [ih]
        cases cameraItems items <;> rfl
      | some c =>
        dsimp only
        rw [ih]
        cases cameraItems items with
        | error e => rfl
        | ok cs => exact congrArg Except.ok (List.append_assoc merged _ _)

/-- **An accepted camera list** replaces the devices and hands them on. -/
theorem updateFromCameraJson_listed {parsed : Json} {cs : List CameraItem}
    (h : listed parsed = some cs) (s : DeviceStore) :
    s.updateFromCameraJson parsed =
      (⟨cameraDevices s.devices cs⟩, .ok (some (cameraDevices s.devices cs))) := by
  cases parsed with
  | array items =>
    have hok : cameraItems items = .ok cs := by
      cases hc : cameraItems items with
      | error e => rw [listed, hc] at h; cases h
      | ok cs' => rw [listed, hc] at h; exact congrArg Except.ok (Option.some.inj h)
    unfold updateFromCameraJson
    dsimp only
    rw [mergeItems_eq, hok]
    rfl
  | _ => cases h

theorem updateFromCameraJson_not_listed {parsed : Json} (h : listed parsed = none)
    (s : DeviceStore) : (s.updateFromCameraJson parsed).1 = s ∧
      ∀ snap, (s.updateFromCameraJson parsed).2 ≠ .ok (some snap) := by
  cases parsed with
  | array items =>
    cases hc : cameraItems items with
    | error e =>
      unfold updateFromCameraJson
      dsimp only
      rw [mergeItems_eq, hc]
      exact ⟨rfl, nofun⟩
    | ok cs => rw [listed, hc] at h; cases h
  | _ => exact ⟨rfl, nofun⟩

@[simp] theorem ip_mergeCamera (devices : List DeviceIntegrated) (c : CameraItem) :
    (mergeCamera devices c).ip = c.ip := by
  unfold mergeCamera
  cases h : devices.find? fun d => d.ip = c.ip with
  | none => rfl
  | some d =>
    have hd : Keyed.first? DeviceIntegrated.ip devices c.ip = some d := h
    have hip : d.ip = c.ip := Keyed.key_of_first? hd
    exact hip

theorem ips_map_mergeCamera (devices : List DeviceIntegrated) (cs : List CameraItem) :
    ips (cs.map (mergeCamera devices)) = cs.map (·.ip) := by
  rw [ips, List.map_map]
  exact List.map_congr_left fun c _ => ip_mergeCamera devices c

def offline (old : DeviceIntegrated) : DeviceIntegrated := { old with isOnline := false }

theorem ip_offline (old : DeviceIntegrated) : (offline old).ip = old.ip := rfl

theorem appendOffline_eq (devices merged : List DeviceIntegrated) :
    appendOffline devices merged =
      Keyed.appendAbsent DeviceIntegrated.ip offline merged devices := rfl

theorem count_cameraDevices (devices : List DeviceIntegrated) (cs : List CameraItem) (ip : String) :
    (ips (cameraDevices devices cs)).count ip =
      if ip ∈ cs.map (·.ip) then (cs.map (·.ip)).count ip else if ip ∈ ips devices then 1 else 0 := by
  rw [cameraDevices, appendOffline_eq, ips, Keyed.count_appendAbsent ip_offline,
    ← ips_map_mergeCamera devices cs]
  rfl

theorem mem_ips_cameraDevices {devices : List DeviceIntegrated} {cs : List CameraItem}
    {ip : String} : ip ∈ ips (cameraDevices devices cs) ↔ ip ∈ cs.map (·.ip) ∨ ip ∈ ips devices := by
  rw [← ips_map_mergeCamera devices cs]
  exact Keyed.mem_keys_appendAbsent ip_offline

/-- **Distinct addresses** after a camera list, whatever the store held. -/
theorem nodup_cameraDevices_iff {devices : List DeviceIntegrated} {cs : List CameraItem} :
    (ips (cameraDevices devices cs)).Nodup ↔ (cs.map (·.ip)).Nodup := by
  rw [← ips_map_mergeCamera devices cs]
  exact Keyed.nodup_appendAbsent_iff ip_offline

/-! ## Status packets -/

/-- What an item of a status packet says: an address and a sample, none when it is skipped. -/
def readSample (timestamp : ℤ) (item : Json) :
    Except TypeError (Option (String × DeviceSnapshot)) := do
  if item.isObject = false then return none
  let ip ← item.value "ip" ""
  if ip = "" then return none
  let cpu ← item.value "cpu" (0 : Double)
  let memory ← item.value "memory" (0 : Double)
  let temp ← item.value "temp" (0 : Double)
  let uptime ← item.value "uptime" (0 : ℤ)
  return some (ip, ⟨timestamp, cpu, memory, temp, uptime⟩)

/-- The device with one more sample. -/
def sampled (device : DeviceIntegrated) (snap : DeviceSnapshot) : DeviceIntegrated :=
  addSnapshot { device with
    cpu := snap.cpu
    memory := snap.memory
    temp := snap.temp
    uptime := snap.uptime
    lastUpdate := snap.timestamp } snap

/-- The devices with one more sample for the address. -/
def addSample (devices : List DeviceIntegrated) (e : String × DeviceSnapshot) :
    List DeviceIntegrated :=
  match findIndexByIp devices e.1 with
  | some idx => devices.set idx (sampled (devices.getD idx (.new e.1)) e.2)
  | none => devices ++ [sampled (.new e.1) e.2]

theorem applyStatus_eq {timestamp : ℤ} {item : Json} {cpu memory temp : Double} {uptime : ℤ}
    (hc : item.value "cpu" (0 : Double) = .ok cpu)
    (hm : item.value "memory" (0 : Double) = .ok memory)
    (ht : item.value "temp" (0 : Double) = .ok temp) (hu : item.value "uptime" (0 : ℤ) = .ok uptime)
    (device : DeviceIntegrated) : applyStatus timestamp item device =
      (sampled device ⟨timestamp, cpu, memory, temp, uptime⟩, .ok ()) := by
  unfold applyStatus
  rw [hc, hm, ht, hu]
  rfl

/-- **One item of a status packet** adds the sample it says. -/
theorem updateItem_eq {timestamp : ℤ} {item : Json} {r : Option (String × DeviceSnapshot)}
    (h : readSample timestamp item = .ok r) (devices : List DeviceIntegrated) :
    updateItem timestamp devices item = (r.elim devices (addSample devices), .ok ()) := by
  unfold readSample at h
  unfold updateItem
  split_ifs at h ⊢ with ho
  · obtain rfl := Except.ok.inj h
    rfl
  · obtain ⟨ip, hip, h⟩ := Json.bind_eq_ok.mp h
    rw [hip]
    dsimp only
    split_ifs at h ⊢ with he
    · obtain rfl := Except.ok.inj h
      rfl
    · obtain ⟨cpu, hc, h⟩ := Json.bind_eq_ok.mp h
      obtain ⟨memory, hm, h⟩ := Json.bind_eq_ok.mp h
      obtain ⟨temp, ht, h⟩ := Json.bind_eq_ok.mp h
      obtain ⟨uptime, hu, h⟩ := Json.bind_eq_ok.mp h
      obtain rfl := Except.ok.inj h
      simp only [applyStatus_eq hc hm ht hu, Option.elim, addSample]
      cases findIndexByIp devices ip <;> rfl

theorem exists_readSample (timestamp : ℤ) {item : Json} (h : ReadsStatus item) :
    ∃ r, readSample timestamp item = .ok r := by
  unfold readSample
  by_cases ho : item.isObject = false
  · exact ⟨none, by rw [if_pos ho]; rfl⟩
  · obtain ⟨ip, hip, hrest⟩ := h (Bool.eq_true_of_not_eq_false ho)
    rw [if_neg ho]
    refine Json.exists_bind_iff.mpr ⟨ip, hip, ?_⟩
    by_cases he : ip = ""
    · exact ⟨none, by rw [if_pos he]; rfl⟩
    · obtain ⟨⟨cpu, hc⟩, ⟨memory, hm⟩, ⟨temp, ht⟩, uptime, hu⟩ := hrest he
      rw [if_neg he]
      simp only [Json.exists_bind_iff]
      exact ⟨cpu, hc, memory, hm, temp, ht, uptime, hu, _, rfl⟩

/-- The samples of a status packet, in order. -/
def samplesOf (timestamp : ℤ) (items : List Json) : List (String × DeviceSnapshot) :=
  items.filterMap fun item =>
    match readSample timestamp item with
    | .ok r => r
    | .error _ => none

theorem updateItems_eq {timestamp : ℤ} {items : List Json} (h : ∀ item ∈ items, ReadsStatus item)
    (devices : List DeviceIntegrated) : updateItems timestamp items devices =
      ((samplesOf timestamp items).foldl addSample devices, .ok ()) := by
  induction items generalizing devices with
  | nil => rfl
  | cons item items ih =>
    obtain ⟨hitem, hitems⟩ := List.forall_mem_cons.mp h
    obtain ⟨r, hr⟩ := exists_readSample timestamp hitem
    have hs : samplesOf timestamp (item :: items) = r.toList ++ samplesOf timestamp items := by
      unfold samplesOf
      rw [List.filterMap_cons, hr]
      cases r <;> rfl
    unfold updateItems
    rw [updateItem_eq hr, hs, List.foldl_append]
    dsimp only
    rw [ih hitems]
    cases r <;> rfl

/-- **A well-typed status packet** adds its samples and hands the devices on. -/
theorem updateFromAvailableJson_eq {parsed : Json} (ho : parsed.isObject = true)
    (h : ∀ item ∈ statusItems parsed, ReadsStatus item) (timestamp : ℤ) (s : DeviceStore) :
    s.updateFromAvailableJson timestamp parsed =
      (⟨(samplesOf timestamp (statusItems parsed)).foldl addSample s.devices⟩,
        .ok (some ((samplesOf timestamp (statusItems parsed)).foldl addSample s.devices))) := by
  unfold updateFromAvailableJson
  rw [if_neg (by rw [ho]; decide), updateItems_eq h]

/-! ### The addresses -/

theorem ip_applyStatus (timestamp : ℤ) (item : Json) (device : DeviceIntegrated) :
    (applyStatus timestamp item device).1.ip = device.ip := by
  unfold applyStatus
  split
  · rfl
  split
  · rfl
  split
  · rfl
  split <;> rfl

/-- An item, well-typed or not, appends at most one device, under an address that is new. -/
theorem ips_updateItem (timestamp : ℤ) (devices : List DeviceIntegrated) (item : Json) :
    ips (updateItem timestamp devices item).1 = ips devices ∨
      ∃ ip, ip ∉ ips devices ∧
        ips (updateItem timestamp devices item).1 = ips devices ++ [ip] := by
  unfold updateItem
  split_ifs
  · exact Or.inl rfl
  cases item.value "ip" "" with
  | error e => exact Or.inl rfl
  | ok ip =>
    dsimp only
    split_ifs
    · exact Or.inl rfl
    cases hf : findIndexByIp devices ip with
    | some idx =>
      have hd : (devices.getD idx (.new ip)).ip = ip := by
        have hget := Keyed.getElem?_of_findIdx? DeviceIntegrated.ip hf
        rw [List.getD_eq_getElem?_getD, hget]
        cases hfirst : Keyed.first? DeviceIntegrated.ip devices ip with
        | none => rfl
        | some d => exact Keyed.key_of_first? hfirst
      exact Or.inl (Keyed.map_key_set DeviceIntegrated.ip hf ((ip_applyStatus timestamp item _).trans hd))
    | none =>
      refine Or.inr ⟨ip, (Keyed.findIdx?_eq_none_iff DeviceIntegrated.ip).mp hf, ?_⟩
      rw [ips, List.map_append, List.map_singleton, ip_applyStatus]
      rfl

/-- A status packet repeats no address that did not occur twice before. -/
theorem count_updateItems (timestamp : ℤ) (items : List Json) (devices : List DeviceIntegrated)
    {ip : String} (h : 1 < (ips (updateItems timestamp items devices).1).count ip) :
    1 < (ips devices).count ip := by
  induction items generalizing devices with
  | nil => exact h
  | cons item items ih =>
    have hone : 1 < (ips (updateItem timestamp devices item).1).count ip := by
      unfold updateItems at h
      split at h
      · next devices' e hu => rwa [hu]
      · next devices' hu =>
        rw [hu]
        exact ih devices' h
    rcases ips_updateItem timestamp devices item with he | ⟨ip', hnew, he⟩
    · rwa [he] at hone
    · rw [he, List.count_append] at hone
      by_cases hip : ip' = ip
      · rw [hip, List.count_singleton_self, List.count_eq_zero.mpr (hip ▸ hnew)] at hone
        exact absurd hone (Nat.lt_irrefl 1)
      · rwa [List.count_singleton, if_neg (by simpa using hip), Nat.add_zero] at hone

theorem nodup_updateItems (timestamp : ℤ) (items : List Json) {devices : List DeviceIntegrated}
    (h : (ips devices).Nodup) : (ips (updateItems timestamp items devices).1).Nodup := by
  rw [List.nodup_iff_count_le_one] at h ⊢
  exact fun ip => Nat.le_of_not_lt fun hlt =>
    Nat.not_lt_of_le (h ip) (count_updateItems timestamp items devices hlt)

/-! ## Runs -/

inductive Op where
  | camera (parsed : Json)
  | available (timestamp : ℤ) (parsed : Json)
  | clear

/-- The snapshot an update hands on, if any. -/
def handedOn : Outcome (List DeviceIntegrated) → List (List DeviceIntegrated)
  | .ok (some snap) => [snap]
  | _ => []

/-- One operation, with the snapshots the callback is called with. -/
def step (s : DeviceStore) : Op → DeviceStore × List (List DeviceIntegrated)
  | .camera parsed =>
    let r := s.updateFromCameraJson parsed
    (r.1, handedOn r.2)
  | .available timestamp parsed =>
    let r := s.updateFromAvailableJson timestamp parsed
    (r.1, handedOn r.2)
  | .clear => (s.clear, [])

/-- The store after a run of operations. -/
def reach (ops : List Op) : DeviceStore := Machine.final step empty ops

theorem step_camera_listed {parsed : Json} {cs : List CameraItem} (h : listed parsed = some cs)
    (s : DeviceStore) : s.step (.camera parsed) =
      (⟨cameraDevices s.devices cs⟩, [cameraDevices s.devices cs]) := by
  rw [step, updateFromCameraJson_listed h]
  rfl

theorem step_camera_not_listed {parsed : Json} (h : listed parsed = none) (s : DeviceStore) :
    s.step (.camera parsed) = (s, []) := by
  obtain ⟨hs, ho⟩ := updateFromCameraJson_not_listed h s
  have hout : handedOn (s.updateFromCameraJson parsed).2 = [] := by
    unfold handedOn
    split
    · next snap he => exact absurd he (ho snap)
    · rfl
  rw [step, hs, hout]

theorem step_available_cases (s : DeviceStore) (timestamp : ℤ) (parsed : Json) :
    s.step (.available timestamp parsed) = (s, []) ∨
      ∃ out, s.step (.available timestamp parsed) =
        (⟨(updateItems timestamp (statusItems parsed) s.devices).1⟩, out) ∧
        (out = [] ∨ out = [(updateItems timestamp (statusItems parsed) s.devices).1]) := by
  rw [step, updateFromAvailableJson]
  split_ifs
  · exact Or.inl rfl
  · refine Or.inr ?_
    rcases updateItems timestamp (statusItems parsed) s.devices with ⟨devices, e | ⟨⟩⟩
    · exact ⟨[], rfl, Or.inl rfl⟩
    · exact ⟨[devices], rfl, Or.inr rfl⟩

theorem mem_step_snd {s : DeviceStore} {op : Op} {snap : List DeviceIntegrated}
    (h : snap ∈ (s.step op).2) : snap = (s.step op).1.devices := by
  cases op with
  | camera parsed =>
    cases hl : listed parsed with
    | none =>
      rw [step_camera_not_listed hl] at h
      exact absurd h List.not_mem_nil
    | some cs =>
      rw [step_camera_listed hl] at h ⊢
      exact List.mem_singleton.mp h
  | available timestamp parsed =>
    rcases step_available_cases s timestamp parsed with he | ⟨out, he, ho⟩
    · rw [he] at h
      exact absurd h List.not_mem_nil
    · rw [he] at h ⊢
      rcases ho with rfl | rfl
      · exact absurd h List.not_mem_nil
      · exact List.mem_singleton.mp h
  | clear => exact absurd h List.not_mem_nil

/-! ## The primary key -/

/-- No two devices have one address. -/
def DistinctIps (devices : List DeviceIntegrated) : Prop := (ips devices).Nodup

instance (devices : List DeviceIntegrated) : Decidable (DistinctIps devices) :=
  inferInstanceAs (Decidable (List.Nodup _))

/-- In every state of the run, and every snapshot handed on, there is one device per address. -/
def PrimaryKey (ops : List Op) : Prop :=
  (∀ pre, pre <+: ops → DistinctIps (reach pre).devices) ∧
    ∀ snap ∈ Machine.outputs step empty ops, DistinctIps snap

/-- An accepted camera list names no address twice. -/
def Op.NamesOnce : Op → Prop
  | .camera parsed => ∀ cs, listed parsed = some cs → (cs.map (·.ip)).Nodup
  | _ => True

theorem distinctIps_available {s : DeviceStore} (h : DistinctIps s.devices) (timestamp : ℤ)
    (parsed : Json) : DistinctIps (s.step (.available timestamp parsed)).1.devices := by
  rcases step_available_cases s timestamp parsed with he | ⟨out, he, -⟩
  · rwa [he]
  · rw [he]
    exact nodup_updateItems timestamp (statusItems parsed) h

theorem distinctIps_step_iff {s : DeviceStore} (h : DistinctIps s.devices) (op : Op) :
    DistinctIps (s.step op).1.devices ↔ op.NamesOnce := by
  cases op with
  | camera parsed =>
    cases hl : listed parsed with
    | none =>
      rw [step_camera_not_listed hl]
      exact iff_of_true h fun cs hcs => nomatch hl.symm.trans hcs
    | some cs =>
      rw [step_camera_listed hl]
      exact nodup_cameraDevices_iff.trans
        ⟨fun hn cs' hcs => Option.some.inj (hl.symm.trans hcs) ▸ hn, fun hn => hn cs hl⟩
  | available timestamp parsed => exact iff_of_true (distinctIps_available h timestamp parsed) trivial
  | clear => exact iff_of_true List.nodup_nil trivial

theorem distinctIps_reach {ops : List Op} (h : ∀ op ∈ ops, op.NamesOnce) :
    DistinctIps (reach ops).devices := by
  have hempty : DistinctIps empty.devices := List.nodup_nil
  exact Machine.invariant step (fun s => DistinctIps s.devices) Op.NamesOnce hempty
    (fun _ op ho hd => (distinctIps_step_iff hd op).mpr ho) ops h

theorem exists_prefix_of_mem_outputs {ops : List Op} {snap : List DeviceIntegrated}
    (h : snap ∈ Machine.outputs step empty ops) :
    ∃ pre, pre <+: ops ∧ snap = (reach pre).devices := by
  obtain ⟨e, he, hsnap⟩ := List.mem_flatMap.mp h
  obtain ⟨pre, post, hcut, ho⟩ := (Machine.mem_trace_iff step empty ops e).mp he
  rw [ho] at hsnap
  refine ⟨pre ++ [e.1], ⟨post, by rw [hcut, List.append_assoc]; rfl⟩, ?_⟩
  rw [reach, Machine.final_concat]
  exact mem_step_snd hsnap

/-- **Primary key.** The store holds at most one device per address throughout a run, and so do the
snapshots it hands on, if and only if no camera list it accepts names an address twice. -/
theorem primary_key_iff (ops : List Op) : PrimaryKey ops ↔ ∀ op ∈ ops, op.NamesOnce := by
  constructor
  · intro h op hop
    obtain ⟨pre, post, rfl⟩ := List.append_of_mem hop
    have hbefore := h.1 pre (List.prefix_append _ _)
    have hafter := h.1 (pre ++ [op]) ⟨post, by rw [List.append_assoc]; rfl⟩
    rw [reach, Machine.final_concat] at hafter
    exact (distinctIps_step_iff hbefore op).mp hafter
  · intro h
    have hpre : ∀ pre, pre <+: ops → DistinctIps (reach pre).devices := fun pre hp =>
      distinctIps_reach fun op hop => h op (hp.subset hop)
    refine ⟨hpre, fun snap hsnap => ?_⟩
    obtain ⟨pre, hp, rfl⟩ := exists_prefix_of_mem_outputs hsnap
    exact hpre pre hp

/-- A camera list with two streams of one device. -/
def twoStreams : Json :=
  .array [.object [("ip", .string "10.0.0.1"), ("source_url", .string "rtsp://10.0.0.1/0/s")],
    .object [("ip", .string "10.0.0.1"), ("source_url", .string "rtsp://10.0.0.1/1/s")]]

theorem primary_key_fails : ¬ PrimaryKey [.camera twoStreams] :=
  fun h => absurd (h.1 [.camera twoStreams] (List.prefix_refl _)) (by decide +kernel)

end DeviceStore

end Domain

end AnoMap
