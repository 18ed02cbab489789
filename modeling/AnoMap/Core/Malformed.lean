import AnoMap.Core.Order

/-!
# Malformed packets

The tasks of `Core::submitTask` run outside any `try`: an exception of a store's update leaves the
loop of its worker and ends the process.

* `CameraListFits`, `StatusFits`: the members that are read have the right types, where they are
  there; `Packet.Fits`.
* `Packet.wellTyped_iff`: exactly then no task of the packet throws.
* **`survives_iff`**: packets from a set never end the process, in whatever order its threads take
  their steps, if and only if they all fit.
-/

set_option autoImplicit false

namespace AnoMap

open Domain

/-! ## The members that are read -/

/-- A camera list each of whose objects has members of the right types. -/
def CameraListFits (parsed : Json) : Prop :=
  ∀ items, parsed = .array items → ∀ item ∈ items, item.isObject = true →
    item.Fits String "source_url" ∧ item.Fits String "type" ∧ item.Fits Bool "is_online" ∧
      item.Fits String "ip"

/-- The four values of a status. -/
def ValuesFit (j : Json) : Prop :=
  j.Fits Double "cpu" ∧ j.Fits Double "memory" ∧ j.Fits Double "temp" ∧ j.Fits ℤ "uptime"

/-- A status packet whose devices are objects, and these and its server have members of the right
types. -/
def StatusFits (parsed : Json) : Prop :=
  parsed.isObject = true →
    (∀ item ∈ DeviceStore.statusItems parsed, item.isObject = true ∧ item.Fits String "ip" ∧
      ValuesFit item ∧ item.Fits ℤ "pending_events") ∧
    ∀ members, parsed.member? "server" = some (.object members) → ValuesFit (.object members)

def Packet.Fits : Packet → Prop
  | .camera json => CameraListFits json
  | .available json _ _ => StatusFits json

/-! ## The updates -/

namespace Domain

namespace CameraStore

theorem exists_readItem_iff (item : Json) :
    (∃ r, readItem item = .ok r) ↔ (item.isObject = true →
      item.Fits String "source_url" ∧ item.Fits String "type" ∧ item.Fits Bool "is_online" ∧
        item.Fits String "ip") := by
  unfold readItem
  by_cases ho : item.isObject = true
  · rw [if_neg (by rw [ho]; decide)]
    simp only [Json.exists_bind_iff]
    constructor
    · rintro ⟨url, hurl, type, htype, online, honline, ip, hip, -⟩ -
      exact ⟨(Json.exists_value_iff.mp ⟨url, hurl⟩).2, (Json.exists_value_iff.mp ⟨type, htype⟩).2,
        (Json.exists_value_iff.mp ⟨online, honline⟩).2, (Json.exists_value_iff.mp ⟨ip, hip⟩).2⟩
    · intro h
      obtain ⟨hurl, htype, honline, hip⟩ := h ho
      obtain ⟨url, hurl⟩ := Json.exists_value_iff.mpr ⟨ho, hurl⟩
      obtain ⟨type, htype⟩ := Json.exists_value_iff.mpr ⟨ho, htype⟩
      obtain ⟨online, honline⟩ := Json.exists_value_iff.mpr ⟨ho, honline⟩
      obtain ⟨ip, hip⟩ := Json.exists_value_iff.mpr ⟨ho, hip⟩
      refine ⟨url, hurl, type, htype, online, honline, ip, hip, ?_⟩
      split_ifs
      · exact ⟨none, rfl⟩
      · exact ⟨some _, rfl⟩
  · rw [if_pos (Bool.eq_false_of_not_eq_true ho)]
    exact ⟨fun _ h => absurd h ho, fun _ => ⟨none, rfl⟩⟩

theorem exists_readItems_iff (items : List Json) (table : KeyMap String CameraStruct)
    (newData : List CameraData) :
    (∃ out, (readItems items table newData).2 = .ok out) ↔
      ∀ item ∈ items, ∃ r, readItem item = .ok r := by
  constructor
  · rintro ⟨out, h⟩
    have hread : readItems items table newData = ((readItems items table newData).1, .ok out) :=
      Prod.ext rfl h
    exact (readItems_ok hread).1
  · intro h
    induction items generalizing table newData with
    | nil => exact ⟨newData, rfl⟩
    | cons item items ih =>
      obtain ⟨⟨r, hr⟩, hrest⟩ := List.forall_mem_cons.mp h
      unfold readItems
      rw [hr]
      cases r with
      | none => exact ih table newData hrest
      | some e => exact ih _ _ hrest

theorem exists_updateFromJson_iff (s : CameraStore) (parsed : Json) :
    (∃ o, (s.updateFromJson parsed).2 = .ok o) ↔ CameraListFits parsed := by
  unfold updateFromJson
  cases parsed with
  | array items =>
    have hitems := exists_readItems_iff items s.table []
    simp only [exists_readItem_iff] at hitems
    have hfits : CameraListFits (.array items) ↔ ∃ out, (readItems items s.table []).2 = .ok out := by
      rw [hitems]
      exact ⟨fun h => h items rfl, fun h items' he => Json.array.inj he ▸ h⟩
    rw [hfits]
    dsimp only
    cases hr : readItems items s.table [] with
    | mk table r =>
      cases r with
      | error e => exact ⟨fun ⟨_, h⟩ => (nomatch h), fun ⟨_, h⟩ => (nomatch h)⟩
      | ok newData => exact ⟨fun _ => ⟨newData, rfl⟩, fun _ => ⟨some newData, rfl⟩⟩
  | _ => exact ⟨fun _ _ h => (nomatch h), fun _ => ⟨none, rfl⟩⟩

end CameraStore

namespace DeviceStore

/-- The device store reads no more of a camera list than the camera store. -/
theorem exists_readCamera {item : Json} (h : ∃ r, CameraStore.readItem item = .ok r) :
    ∃ r, readCamera item = .ok r := by
  unfold readCamera
  by_cases ho : item.isObject = true
  · obtain ⟨hurl, htype, honline, hip⟩ := (CameraStore.exists_readItem_iff item).mp h ho
    rw [if_neg (by rw [ho]; decide)]
    obtain ⟨url, hurl⟩ := Json.exists_value_iff.mpr ⟨ho, hurl⟩
    obtain ⟨type, htype⟩ := Json.exists_value_iff.mpr ⟨ho, htype⟩
    obtain ⟨online, honline⟩ := Json.exists_value_iff.mpr ⟨ho, honline⟩
    obtain ⟨ip, hip⟩ := Json.exists_value_iff.mpr ⟨ho, hip⟩
    refine Json.exists_bind_iff.mpr ⟨ip, hip, ?_⟩
    split_ifs
    · exact ⟨none, rfl⟩
    · simp only [Json.exists_bind_iff]
      exact ⟨url, hurl, type, htype, online, honline, some _, rfl⟩
  · rw [if_pos (Bool.eq_false_of_not_eq_true ho)]
    exact ⟨none, rfl⟩

theorem exists_mergeItems (devices merged : List DeviceIntegrated) {items : List Json}
    (h : ∀ item ∈ items, ∃ r, readCamera item = .ok r) :
    ∃ out, mergeItems devices items merged = .ok out := by
  induction items generalizing merged with
  | nil => exact ⟨merged, rfl⟩
  | cons item items ih =>
    obtain ⟨⟨r, hr⟩, hrest⟩ := List.forall_mem_cons.mp h
    unfold mergeItems
    rw [hr]
    cases r with
    | none => exact ih _ hrest
    | some c => exact ih _ hrest

theorem exists_updateFromCameraJson (s : DeviceStore) {parsed : Json} (h : CameraListFits parsed) :
    ∃ o, (s.updateFromCameraJson parsed).2 = .ok o := by
  unfold updateFromCameraJson
  cases parsed with
  | array items =>
    have hread : ∀ item ∈ items, ∃ r, readCamera item = .ok r := fun item hi =>
      exists_readCamera ((CameraStore.exists_readItem_iff item).mpr (h items rfl item hi))
    obtain ⟨out, ho⟩ := exists_mergeItems s.devices [] hread
    dsimp only
    rw [ho]
    exact ⟨some _, rfl⟩
  | _ => exact ⟨none, rfl⟩

theorem applyStatus_total {timestamp : ℤ} {item : Json} {device : DeviceIntegrated}
    (ho : item.isObject = true) (h : ValuesFit item) :
    (applyStatus timestamp item device).2 = .ok () := by
  obtain ⟨hcpu, hmemory, htemp, huptime⟩ := h
  have hcpu : ∃ x, item.value "cpu" (0 : Double) = .ok x := Json.exists_value_iff.mpr ⟨ho, hcpu⟩
  have hmemory : ∃ x, item.value "memory" (0 : Double) = .ok x :=
    Json.exists_value_iff.mpr ⟨ho, hmemory⟩
  have htemp : ∃ x, item.value "temp" (0 : Double) = .ok x := Json.exists_value_iff.mpr ⟨ho, htemp⟩
  have huptime : ∃ n, item.value "uptime" (0 : ℤ) = .ok n := Json.exists_value_iff.mpr ⟨ho, huptime⟩
  obtain ⟨cpu, hcpu⟩ := hcpu
  obtain ⟨memory, hmemory⟩ := hmemory
  obtain ⟨temp, htemp⟩ := htemp
  obtain ⟨uptime, huptime⟩ := huptime
  unfold applyStatus
  rw [hcpu, hmemory, htemp, huptime]

theorem updateItem_total {timestamp : ℤ} {devices : List DeviceIntegrated} {item : Json}
    (ho : item.isObject = true) (hip : item.Fits String "ip") (h : ValuesFit item) :
    (updateItem timestamp devices item).2 = .ok () := by
  have hip : ∃ ip, item.value "ip" "" = .ok ip := Json.exists_value_iff.mpr ⟨ho, hip⟩
  obtain ⟨ip, hip⟩ := hip
  unfold updateItem
  rw [if_neg (by rw [ho]; decide), hip]
  dsimp only
  split_ifs
  · rfl
  · split
    · exact applyStatus_total ho h
    · exact applyStatus_total ho h

theorem updateItems_total {timestamp : ℤ} {items : List Json} {devices : List DeviceIntegrated}
    (h : ∀ item ∈ items, item.isObject = true ∧ item.Fits String "ip" ∧ ValuesFit item) :
    (updateItems timestamp items devices).2 = .ok () := by
  induction items generalizing devices with
  | nil => rfl
  | cons item items ih =>
    obtain ⟨⟨ho, hip, hv⟩, hrest⟩ := List.forall_mem_cons.mp h
    have ht : (updateItem timestamp devices item).2 = .ok () := updateItem_total ho hip hv
    unfold updateItems
    cases hu : updateItem timestamp devices item with
    | mk devices' r =>
      rw [hu] at ht
      obtain rfl : r = .ok () := ht
      exact ih hrest

theorem exists_updateFromAvailableJson (s : DeviceStore) (timestamp : ℤ) {parsed : Json}
    (h : StatusFits parsed) : ∃ o, (s.updateFromAvailableJson timestamp parsed).2 = .ok o := by
  unfold updateFromAvailableJson
  split_ifs with ho
  · exact ⟨none, rfl⟩
  · have hitems : (updateItems timestamp (statusItems parsed) s.devices).2 = .ok () := by
      refine updateItems_total fun item hi => ?_
      obtain ⟨hio, hip, hv, -⟩ := (h (Bool.eq_true_of_not_eq_false ho)).1 item hi
      exact ⟨hio, hip, hv⟩
    cases hu : updateItems timestamp (statusItems parsed) s.devices with
    | mk devices r =>
      rw [hu] at hitems
      obtain rfl : r = .ok () := hitems
      exact ⟨some devices, rfl⟩

end DeviceStore

namespace ServerStatusStore

theorem exists_readDevice_iff (item : Json) :
    (∃ d, readDevice item = .ok d) ↔ item.isObject = true ∧ item.Fits String "ip" ∧
      ValuesFit item ∧ item.Fits ℤ "pending_events" := by
  unfold readDevice ValuesFit
  simp only [Json.exists_bind_iff]
  constructor
  · rintro ⟨ip, hip, cpu, hcpu, memory, hmemory, temp, htemp, uptime, huptime, n, hn, -⟩
    exact ⟨(Json.exists_value_iff.mp ⟨ip, hip⟩).1, (Json.exists_value_iff.mp ⟨ip, hip⟩).2,
      ⟨(Json.exists_value_iff.mp ⟨cpu, hcpu⟩).2, (Json.exists_value_iff.mp ⟨memory, hmemory⟩).2,
        (Json.exists_value_iff.mp ⟨temp, htemp⟩).2, (Json.exists_value_iff.mp ⟨uptime, huptime⟩).2⟩,
      (Json.exists_value_iff.mp ⟨n, hn⟩).2⟩
  · rintro ⟨ho, hip, ⟨hcpu, hmemory, htemp, huptime⟩, hn⟩
    obtain ⟨ip, hip⟩ := Json.exists_value_iff.mpr ⟨ho, hip⟩
    obtain ⟨cpu, hcpu⟩ := Json.exists_value_iff.mpr ⟨ho, hcpu⟩
    obtain ⟨memory, hmemory⟩ := Json.exists_value_iff.mpr ⟨ho, hmemory⟩
    obtain ⟨temp, htemp⟩ := Json.exists_value_iff.mpr ⟨ho, htemp⟩
    obtain ⟨uptime, huptime⟩ := Json.exists_value_iff.mpr ⟨ho, huptime⟩
    obtain ⟨n, hn⟩ := Json.exists_value_iff.mpr ⟨ho, hn⟩
    exact ⟨ip, hip, cpu, hcpu, memory, hmemory, temp, htemp, uptime, huptime, n, hn, _, rfl⟩

theorem exists_readDevices_iff (parsed : Json) :
    (∃ ds, readDevices parsed = .ok ds) ↔ ∀ item ∈ DeviceStore.statusItems parsed,
      item.isObject = true ∧ item.Fits String "ip" ∧ ValuesFit item ∧
        item.Fits ℤ "pending_events" := by
  simp only [← exists_readDevice_iff]
  unfold readDevices DeviceStore.statusItems
  cases parsed.member? "devices" with
  | none => exact ⟨fun _ item hi => absurd hi List.not_mem_nil, fun _ => ⟨[], rfl⟩⟩
  | some v =>
    cases v with
    | array items => exact Json.exists_mapM_iff
    | _ => exact ⟨fun _ item hi => absurd hi List.not_mem_nil, fun _ => ⟨[], rfl⟩⟩

theorem exists_readServer_iff (timestamp : ℤ) (parsed : Json) (s : ServerStatusData) :
    (∃ out, readServer timestamp parsed s = .ok out) ↔
      ∀ members, parsed.member? "server" = some (.object members) → ValuesFit (.object members) := by
  unfold readServer ValuesFit
  split
  · next members hm =>
    simp only [Json.exists_bind_iff]
    constructor
    · rintro ⟨cpu, hcpu, memory, hmemory, temp, htemp, uptime, huptime, -⟩ members' hm'
      obtain rfl : members = members' := Json.object.inj (Option.some.inj (hm.symm.trans hm'))
      exact ⟨(Json.exists_value_iff.mp ⟨cpu, hcpu⟩).2, (Json.exists_value_iff.mp ⟨memory, hmemory⟩).2,
        (Json.exists_value_iff.mp ⟨temp, htemp⟩).2, (Json.exists_value_iff.mp ⟨uptime, huptime⟩).2⟩
    · intro h
      obtain ⟨hcpu, hmemory, htemp, huptime⟩ := h members hm
      obtain ⟨cpu, hcpu⟩ := Json.exists_value_iff.mpr ⟨rfl, hcpu⟩
      obtain ⟨memory, hmemory⟩ := Json.exists_value_iff.mpr ⟨rfl, hmemory⟩
      obtain ⟨temp, htemp⟩ := Json.exists_value_iff.mpr ⟨rfl, htemp⟩
      obtain ⟨uptime, huptime⟩ := Json.exists_value_iff.mpr ⟨rfl, huptime⟩
      exact ⟨cpu, hcpu, memory, hmemory, temp, htemp, uptime, huptime, _, rfl⟩
  · next hm => exact ⟨fun _ members h => absurd h (hm members), fun _ => ⟨s, rfl⟩⟩

theorem exists_updateFromJson_iff (s : ServerStatusStore) (timestamp : ℤ) (parsed : Json) :
    (∃ o, (s.updateFromJson timestamp parsed).2 = .ok o) ↔ StatusFits parsed := by
  unfold updateFromJson StatusFits
  split_ifs with ho
  · exact ⟨fun _ h => absurd (ho.symm.trans h) (by decide), fun _ => ⟨none, rfl⟩⟩
  · have hread : (∃ data, read timestamp parsed = .ok data) ↔
        (∀ item ∈ DeviceStore.statusItems parsed, item.isObject = true ∧ item.Fits String "ip" ∧
          ValuesFit item ∧ item.Fits ℤ "pending_events") ∧
        ∀ members, parsed.member? "server" = some (.object members) →
          ValuesFit (.object members) := by
      unfold read
      simp only [Json.exists_bind_iff, exists_readServer_iff, ← exists_readDevices_iff]
      exact ⟨fun ⟨ds, hds, hs⟩ => ⟨⟨ds, hds⟩, hs⟩, fun ⟨⟨ds, hds⟩, hs⟩ => ⟨ds, hds, hs⟩⟩
    rw [forall_prop_of_true (Bool.eq_true_of_not_eq_false ho), ← hread]
    cases read timestamp parsed with
    | error e => exact ⟨fun ⟨_, h⟩ => (nomatch h), fun ⟨_, h⟩ => (nomatch h)⟩
    | ok data => exact ⟨fun _ => ⟨data, rfl⟩, fun _ => ⟨some data, rfl⟩⟩

end ServerStatusStore

end Domain

/-! ## Tasks and packets -/

theorem exists_map_iff {δ : Type} {o : Outcome δ} {f : δ → Snapshot} :
    (∃ r, o.map (Option.map f) = .ok r) ↔ ∃ r, o = .ok r := by
  cases o with
  | error e => exact ⟨fun ⟨_, h⟩ => (nomatch h), fun ⟨_, h⟩ => (nomatch h)⟩
  | ok r => exact ⟨fun _ => ⟨r, rfl⟩, fun _ => ⟨r.map f, rfl⟩⟩

theorem exists_runStore_camera_iff (d : Data) (json : Json) :
    (∃ o, (d.runStore (.camera json)).2 = .ok o) ↔ CameraListFits json :=
  exists_map_iff.trans (d.cameraStore.exists_updateFromJson_iff json)

theorem exists_runStore_serverStatus_iff (d : Data) (json : Json) (clock : ℤ) :
    (∃ o, (d.runStore (.serverStatus json clock)).2 = .ok o) ↔ StatusFits json :=
  exists_map_iff.trans (d.serverStatusStore.exists_updateFromJson_iff clock json)

/-- **Tasks.** None of a packet's tasks throws, whatever the stores hold, if and only if the packet
fits. -/
theorem Packet.wellTyped_iff (p : Packet) : p.WellTyped ↔ p.Fits := by
  cases p with
  | camera json =>
    constructor
    · intro h
      exact (exists_runStore_camera_iff .init json).mp (h _ List.mem_cons_self .init)
    · intro h t ht d
      rcases List.mem_cons.mp ht with rfl | ht
      · exact (exists_runStore_camera_iff d json).mpr h
      · rw [List.mem_singleton.mp ht]
        exact exists_map_iff.mpr (d.deviceStore.exists_updateFromCameraJson h)
  | available json deviceClock serverClock =>
    constructor
    · intro h
      exact (exists_runStore_serverStatus_iff .init json serverClock).mp
        (h _ (List.mem_cons_of_mem _ List.mem_cons_self) .init)
    · intro h t ht d
      rcases List.mem_cons.mp ht with rfl | ht
      · exact exists_map_iff.mpr (d.deviceStore.exists_updateFromAvailableJson deviceClock h)
      · rw [List.mem_singleton.mp ht]
        exact (exists_runStore_serverStatus_iff d json serverClock).mpr h

/-! ## Runs -/

namespace Core

/-- The update of a task never throws. -/
def Safe (t : Task) : Prop := ∀ d : Data, ∃ o, (d.runStore t).2 = .ok o

/-- The process runs, and no task that is queued or running will throw. -/
structure Serving (c : Core) : Prop where
  running : c.terminated = false
  gui : ∀ p, .received p ∈ c.gui → p.WellTyped
  queue : ∀ t ∈ c.queue, Safe t
  taken : ∀ t, .taken t ∈ c.running → Safe t

variable {env : Env} {c : Core}

theorem Serving.update (h : c.Serving) (i : ℕ) : (c.update i).Serving := by
  unfold Core.update
  cases hr : c.running[i]? with
  | none => exact h
  | some r =>
  cases r with
  | posting snap => exact h
  | taken t =>
    obtain ⟨o, ho⟩ := h.taken t (List.mem_of_getElem? hr) c.data
    dsimp only
    cases hd : c.data.runStore t with
    | mk data r =>
      rw [hd] at ho
      obtain rfl : r = .ok o := ho
      cases o with
      | none =>
        exact ⟨h.running, h.gui, h.queue, fun t ht => h.taken t (List.mem_of_mem_eraseIdx ht)⟩
      | some snap =>
        refine ⟨h.running, h.gui, h.queue, fun t ht => ?_⟩
        obtain ht | ht := List.mem_or_eq_of_mem_set ht
        · exact h.taken t ht
        · cases ht

theorem Serving.runGui (h : c.Serving) : (c.runGui env).1.Serving := by
  unfold Core.runGui
  have hgui := h.gui
  cases hg : c.gui with
  | nil => exact h
  | cons e gui =>
    rw [hg] at hgui
    have hrest : ∀ p, .received p ∈ gui → p.WellTyped := fun p hp =>
      hgui p (List.mem_cons_of_mem e hp)
    cases e with
    | received p =>
      refine ⟨h.running, hrest, fun t ht => ?_, h.taken⟩
      obtain ht | ht := List.mem_append.mp ht
      · exact h.queue t ht
      · exact hgui p List.mem_cons_self t ht
    | update snap => exact ⟨h.running, hrest, h.queue, h.taken⟩

/-- **Step.** A step that receives nothing but well-typed packets keeps the process serving. -/
theorem Serving.step (h : c.Serving) {e : Event} (he : ∀ p, e = .receive p → p.WellTyped) :
    (c.step env e).1.Serving := by
  unfold Core.step
  rw [if_neg (by rw [h.running]; decide)]
  cases e with
  | connect => exact ⟨h.running, h.gui, h.queue, h.taken⟩
  | receive p =>
    dsimp only
    split
    · refine ⟨h.running, fun q hq => ?_, h.queue, h.taken⟩
      obtain hq | hq := List.mem_append.mp hq
      · exact h.gui q hq
      · obtain rfl : q = p := GuiEvent.received.inj (List.mem_singleton.mp hq)
        exact he q rfl
    · exact h
  | take =>
    dsimp only
    split
    · next t queue hqu =>
      have hq := h.queue
      rw [hqu] at hq
      obtain ⟨ht, hq⟩ := List.forall_mem_cons.mp hq
      split
      · refine ⟨h.running, h.gui, hq, fun t' ht' => ?_⟩
        obtain ht' | ht' := List.mem_append.mp ht'
        · exact h.taken t' ht'
        · obtain rfl : t' = t := Running.taken.inj (List.mem_singleton.mp ht')
          exact ht
      · exact h
    · exact h
  | update i => exact h.update i
  | post i =>
    dsimp only
    split
    · refine ⟨h.running, fun p hp => ?_, h.queue,
        fun t ht => h.taken t (List.mem_of_mem_eraseIdx ht)⟩
      obtain hp | hp := List.mem_append.mp hp
      · exact h.gui p hp
      · cases List.mem_singleton.mp hp
    · exact h
  | gui => exact h.runGui
  | logout => exact ⟨h.running, h.gui, h.queue, h.taken⟩

theorem serving_final (env : Env) {es : List Event}
    (h : ∀ p, .receive p ∈ es → p.WellTyped) : (Machine.final (step env) init es).Serving :=
  Machine.invariant (step env) Serving (fun e => ∀ p, e = .receive p → p.WellTyped)
    ⟨rfl, fun _ hp => absurd hp List.not_mem_nil, fun _ ht => absurd ht List.not_mem_nil,
      fun _ ht => absurd ht List.not_mem_nil⟩
    (fun _ _ he hs => hs.step he) es fun _ he p hp => h p (hp ▸ he)

/-- A packet is received, and one worker runs its two tasks. -/
def soleWorker (p : Packet) : List Event :=
  [.connect, .receive p, .gui, .take] ++ ([.update 0, .post 0] ++ [.take, .update 0])

theorem threadCount_pos (env : Env) : 0 < env.threadCount := by
  unfold Env.threadCount
  split_ifs with h
  · exact Nat.one_pos
  · exact Nat.pos_of_ne_zero h

theorem terminated_update {t : Task} (hr : c.running = [.taken t])
    (h : ∃ e, (c.data.runStore t).2 = .error e) : (c.update 0).terminated = true := by
  obtain ⟨e, he⟩ := h
  unfold Core.update
  rw [hr]
  dsimp only [List.getElem?_cons_zero]
  cases hd : c.data.runStore t with
  | mk data r =>
    rw [hd] at he
    obtain rfl : r = .error e := he
    rfl

theorem step_take_idle (env : Env) (gui : List GuiEvent) (queue : List Task) (t : Task)
    (data : Data) : (step env ⟨true, gui, t :: queue, [], false, data⟩ .take).1 =
      ⟨true, gui, queue, [.taken t], false, data⟩ := if_pos (threadCount_pos env)

theorem final_first (env : Env) {p : Packet} {t₁ t₂ : Task} (hp : p.tasks = [t₁, t₂]) :
    Machine.final (step env) init [.connect, .receive p, .gui, .take] =
      ⟨true, [], [t₂], [.taken t₁], false, .init⟩ := by
  have hgui : Machine.final (step env) init [.connect, .receive p, .gui] =
      ⟨true, [], [] ++ p.tasks, [], false, .init⟩ := rfl
  rw [show [Event.connect, .receive p, .gui, .take] = [.connect, .receive p, .gui] ++ [.take] from
    rfl, Machine.final_concat, hgui, hp]
  exact step_take_idle env [] [t₂] t₁ .init

theorem terminated_second (env : Env) (gui : List GuiEvent) {t : Task} {data : Data}
    (h : ∃ e, (data.runStore t).2 = .error e) :
    (Machine.final (step env) ⟨true, gui, [t], [], false, data⟩ [.take, .update 0]).terminated =
      true := by
  rw [Machine.final_cons, step_take_idle, Machine.final_cons, Machine.final_nil]
  exact terminated_update rfl h

/-- A packet one of whose tasks throws on whatever the stores hold ends the process. -/
theorem terminated_soleWorker (env : Env) {p : Packet} {t₁ t₂ : Task} (hp : p.tasks = [t₁, t₂])
    (h : (∀ d : Data, ∃ e, (d.runStore t₁).2 = .error e) ∨
      ∀ d : Data, ∃ e, (d.runStore t₂).2 = .error e) :
    (Machine.final (step env) init (soleWorker p)).terminated = true := by
  rw [soleWorker, Machine.final_append, final_first env hp, Machine.final_append]
  have hfirst : Machine.final (step env) ⟨true, [], [t₂], [.taken t₁], false, .init⟩
      [.update 0, .post 0] = Machine.final (step env)
        (update ⟨true, [], [t₂], [.taken t₁], false, .init⟩ 0) [.post 0] := rfl
  rw [hfirst]
  cases hd : Data.init.runStore t₁ with
  | mk data r =>
    rw [update]
    dsimp only [List.getElem?_cons_zero]
    rw [hd]
    cases r with
    | error e =>
      have hterm : Core.terminated ⟨true, [], [t₂], [.taken t₁], true, data⟩ = true := rfl
      dsimp only
      rw [final_of_terminated hterm, final_of_terminated hterm]
    | ok o =>
      have h₂ := h.resolve_left fun h₁ => by
        obtain ⟨e, he⟩ := h₁ .init
        rw [hd] at he
        cases he
      cases o with
      | none => exact terminated_second env [] (h₂ data)
      | some snap => exact terminated_second env [.update snap] (h₂ data)

/-- **Survival.** Packets from a set never end the process, in any run in which no others are
received, if and only if all of them fit. -/
theorem survives_iff (env : Env) (ps : Set Packet) :
    (∀ es, (∀ p, .receive p ∈ es → p ∈ ps) →
      (Machine.final (step env) init es).terminated = false) ↔ ∀ p ∈ ps, p.Fits := by
  constructor
  · intro h p hp
    by_contra hfit
    have honly : ∀ q, .receive q ∈ soleWorker p → q ∈ ps := by
      intro q hq
      obtain rfl : q = p := by simpa [soleWorker] using hq
      exact hp
    have hterm : (Machine.final (step env) init (soleWorker p)).terminated = true := by
      cases p with
      | camera json =>
        refine terminated_soleWorker env rfl (.inl fun d => ?_)
        cases hd : (d.runStore (.camera json)).2 with
        | error e => exact ⟨e, rfl⟩
        | ok o => exact absurd ((exists_runStore_camera_iff d json).mp ⟨o, hd⟩) hfit
      | available json deviceClock serverClock =>
        refine terminated_soleWorker env rfl (.inr fun d => ?_)
        cases hd : (d.runStore (.serverStatus json serverClock)).2 with
        | error e => exact ⟨e, rfl⟩
        | ok o =>
          exact absurd ((exists_runStore_serverStatus_iff d json serverClock).mp ⟨o, hd⟩) hfit
    exact absurd (hterm.symm.trans (h _ honly)) (by decide)
  · intro h es hes
    exact (serving_final env fun p hp => (Packet.wellTyped_iff p).mpr (h p (hes p hp))).running

/-- **No object.** A status packet with a number for a device ends the process. -/
theorem survives_fails :
    ¬ ∀ (env : Env) (es : List Event), (Machine.final (step env) init es).terminated = false := by
  intro h
  have hrun := h .sample
    (soleWorker (.available (.object [("devices", .array [.integer 1])]) 0 0))
  exact absurd hrun (by decide +kernel)

end Core

end AnoMap
