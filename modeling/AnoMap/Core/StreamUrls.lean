import AnoMap.Core.Wiring
import AnoMap.Models.StoreUpdates

/-!
# The URLs of the workers

Camera lists one after the other, each done at once: the store, the model, and the workers of the
video manager.

* `exists_names_onStoreUpdated`, `slots_onStoreUpdated`: the signals of an update, and the slot map
  they leave.
* `Streams`: a camera that is listed online has a worker with the URL the store holds, and the slot
  map is that of the rows.
* **`streams_announced_iff`**: so it is after every list of a run if and only if no list gives a
  camera that stays online another URL.
-/

set_option autoImplicit false

namespace AnoMap

open Domain Models Services

namespace Models

namespace CameraModel

/-! ## The signals of an update -/

/-- The rows as slots. -/
def slots (s : CameraModel) : List SlotInfo := s.cameras.map fun cam => ⟨cam.slotId, cam.cameraId⟩

theorem mem_slotsSignals_names {s : CameraModel} {cid : String}
    (h : cid ∈ s.cameras.map CameraEntry.cameraId) :
    ∃ signal ∈ s.slotsSignals, VideoManager.Names signal cid := by
  refine ⟨_, List.mem_cons_self, ?_⟩
  show cid ∈ (s.cameras.map _).map _
  rwa [List.map_map]

theorem exists_names_onStoreUpdated (autoSplit : String → ℤ) (order : HashOrder CameraData)
    (s : CameraModel) {snapshot : List CameraData} {cid : String}
    (h : ((snapshotByCid snapshot).lookup cid).isSome = true) :
    ∃ signal ∈ (s.onStoreUpdated autoSplit order snapshot).2, VideoManager.Names signal cid := by
  obtain ⟨signal, hmem, hn⟩ := mem_slotsSignals_names (mem_cameraIds_mergeSnapshot order s h)
  exact ⟨signal, List.mem_append_left _ (List.mem_append_right _ hmem), hn⟩

end CameraModel

end Models

/-! ## The slot map -/

namespace Services

namespace VideoManager

theorem slots_slotsSignals (p : Providers) (m : VideoManager) (s : CameraModel) :
    (Machine.final (onSignal p) m s.slotsSignals).slotToCameraId = slotMap s.slots := by
  rw [CameraModel.slotsSignals, Machine.final_cons, Machine.final_cons, Machine.final_nil]
  exact (slots_registerCameraIds p _ _).trans (slots_registerCameraIds p _ _)

theorem slots_applyAutoSplits (p : Providers) (autoSplit : String → ℤ) {m : VideoManager}
    {s : CameraModel} (h : m.slotToCameraId = slotMap s.slots) (slotIds : List ℤ) :
    (Machine.final (onSignal p) m (s.applyAutoSplits autoSplit slotIds).2).slotToCameraId =
      slotMap (s.applyAutoSplits autoSplit slotIds).1.slots := by
  rw [CameraModel.applyAutoSplits_eq]
  induction slotIds generalizing m s with
  | nil => exact h
  | cons slotId slotIds ih =>
    rw [Machine.outputs_cons, Machine.final_append, Machine.final_cons]
    refine ih ?_
    rcases s.applyAutoSplitForSlot_cases autoSplit slotId with heq | heq
    · rw [heq]
      exact h
    · rw [heq]
      exact slots_slotsSignals p m _

theorem slots_onStoreUpdated (p : Providers) (autoSplit : String → ℤ)
    (order : HashOrder CameraData) (m : VideoManager) (s : CameraModel)
    (snapshot : List CameraData) :
    (m.onSignals p (s.onStoreUpdated autoSplit order snapshot).2).1.slotToCameraId =
      slotMap (s.onStoreUpdated autoSplit order snapshot).1.slots := by
  rw [onSignals_eq]
  show (Machine.final (onSignal p) m (_ ++ _ ++ _)).slotToCameraId = _
  rw [Machine.final_append, Machine.final_append]
  exact slots_applyAutoSplits p autoSplit (slots_slotsSignals p _ _) _

end VideoManager

end Services

/-! ## The run -/

/-- The store, the model and the video manager, until a list that is read throws. -/
structure CameraFeed where
  data : Data
  terminated : Bool

namespace CameraFeed

def init : CameraFeed := ⟨.init, false⟩

/-- One camera list: the store's update, and the model's with its signals. -/
def step (env : Env) (s : CameraFeed) (parsed : Json) : CameraFeed × List String :=
  if s.terminated = true then (s, [])
  else
    match s.data.runStore (.camera parsed) with
    | (data, .error _) => (⟨data, true⟩, [])
    | (data, .ok none) => (⟨data, false⟩, [])
    | (data, .ok (some snap)) =>
      let r := data.applySnapshot env snap
      (⟨r.1, false⟩, r.2)

/-- The entries of a list with their URLs, none if the list is not accepted. -/
def entries (parsed : Json) : List (CameraData × String) := (CameraStore.listed parsed).getD []

/-- **The workers stream what is announced**: a camera that the entries have online has its one worker,
with the URL the store holds, and the slot map is that of the rows. -/
structure Streams (d : Data) (es : List (CameraData × String)) : Prop where
  worker : ∀ e ∈ es, e.1.isOnline = true → ∃ w,
    d.videoManager.workers.get? e.1.cameraId = some w ∧
      w.connectionString = (d.cameraStore.getCameraStruct e.1.cameraId).sourceUrl
  slots : ∀ slotId id, d.videoManager.slotToCameraId.get? slotId = some id ↔
    ∃ cam ∈ d.cameraModel.cameras, cam.slotId = slotId ∧ cam.cameraId = id
  slotIds : (d.cameraModel.cameras.map CameraEntry.slotId).Nodup

/-- So it is after every list of the run. -/
def StreamsAnnounced (env : Env) (ps : List Json) : Prop :=
  Machine.Along (step env) (fun s parsed => (step env s parsed).1.terminated = false →
    Streams (step env s parsed).1.data (entries parsed)) init ps

/-- A camera that the list has online comes online with its last entry, or has its last entry's URL
already, if it has a worker. -/
def Refreshed (s : CameraFeed) (parsed : Json) : Prop :=
  s.terminated = false → ∀ e ∈ entries parsed, e.1.isOnline = true →
    ∀ l, CameraStore.lastListed (entries parsed) e.1.cameraId = some l →
      (l.1.isOnline = true ∧ ∃ cam ∈ s.data.cameraModel.cameras,
        cam.cameraId = e.1.cameraId ∧ cam.isOnline = false) ∨
      ∀ w, s.data.videoManager.workers.get? e.1.cameraId = some w → w.connectionString = l.2

/-- The rows fit a layout, and the slot map is that of the rows. -/
structure Invariant (s : CameraFeed) : Prop where
  shows : ∃ l, CameraModel.Shows l s.data.cameraModel
  slots : s.data.videoManager.slotToCameraId = VideoManager.slotMap s.data.cameraModel.slots

theorem Invariant.get?_slot_iff {s : CameraFeed} (h : s.Invariant) (slotId : ℤ) (id : String) :
    s.data.videoManager.slotToCameraId.get? slotId = some id ↔
      ∃ cam ∈ s.data.cameraModel.cameras, cam.slotId = slotId ∧ cam.cameraId = id := by
  obtain ⟨l, hl⟩ := h.shows
  have hn : (s.data.cameraModel.slots.map SlotInfo.slotId).Nodup := by
    rw [CameraModel.slots, List.map_map]
    exact hl.slotIds
  rw [h.slots, VideoManager.get?_slotMap_iff hn, CameraModel.slots, List.mem_map]
  exact exists_congr fun cam => and_congr_right fun _ => SlotInfo.mk.injEq _ _ _ _ ▸ Iff.rfl

theorem Invariant.slotIds {s : CameraFeed} (h : s.Invariant) :
    (s.data.cameraModel.cameras.map CameraEntry.slotId).Nodup :=
  h.shows.elim fun _ hl => hl.slotIds

theorem invariant_init : init.Invariant := ⟨⟨[], CameraModel.shows_empty⟩, rfl⟩

variable {env : Env} {s : CameraFeed} {parsed : Json}

theorem step_listed (hs : s.terminated = false) {es : List (CameraData × String)}
    (hl : CameraStore.listed parsed = some es) :
    (step env s parsed).1 = ⟨(Data.applySnapshot env { s.data with
      cameraStore := ⟨es.map Prod.fst, CameraStore.setSourceUrls s.data.cameraStore.table es⟩ }
      (.cameras (es.map Prod.fst))).1, false⟩ := by
  have hu := CameraStore.updateFromJson_listed hl s.data.cameraStore
  rw [step, if_neg (hs ▸ Bool.false_ne_true), Data.runStore, hu]
  rfl

theorem step_not_listed (hs : s.terminated = false) (hl : CameraStore.listed parsed = none) :
    (step env s parsed).1.terminated = true ∨ (step env s parsed).1 = s := by
  rw [step, if_neg (hs ▸ Bool.false_ne_true), Data.runStore]
  rcases CameraStore.updateFromJson_not_listed hl s.data.cameraStore with ⟨e, he⟩ | heq
  · rw [he]
    exact Or.inl rfl
  · rw [heq]
    refine Or.inr ?_
    show (⟨s.data, false⟩ : CameraFeed) = s
    rw [← hs]

theorem Invariant.step (h : s.terminated = false → s.Invariant) (env : Env) (parsed : Json)
    (ht : (CameraFeed.step env s parsed).1.terminated = false) :
    (CameraFeed.step env s parsed).1.Invariant := by
  have hs : s.terminated = false := by
    by_contra hs
    rw [CameraFeed.step, if_pos (Bool.eq_true_of_not_eq_false hs)] at ht
    exact hs ht
  cases hl : CameraStore.listed parsed with
  | none =>
    rcases @step_not_listed env _ _ hs hl with hterm | heq
    · cases hterm.symm.trans ht
    · rw [heq]
      exact h hs
  | some es =>
    rw [step_listed hs hl]
    obtain ⟨l, hshows⟩ := (h hs).shows
    exact ⟨hshows.onStoreUpdated _ _ _, VideoManager.slots_onStoreUpdated _ _ _ _ _ _⟩

theorem lookup_of_lastListed {es : List (CameraData × String)} {id : String} (hid : id ≠ "")
    {e : CameraData × String} (he : CameraStore.lastListed es id = some e) :
    (CameraModel.snapshotByCid (es.map Prod.fst)).lookup id = some e.1 := by
  rw [CameraModel.lookup_snapshotByCid _ hid, ← List.map_reverse, List.find?_map]
  exact congrArg (Option.map Prod.fst) he

/-- A listed camera comes online if its last entry is and one of its rows was not. -/
theorem mem_cameraOnline_iff (env : Env) (model : CameraModel) {es : List (CameraData × String)}
    {id : String} (hid : id ≠ "") {e : CameraData × String}
    (he : CameraStore.lastListed es id = some e) :
    .cameraOnline id ∈ (model.onStoreUpdated env.autoSplit env.order (es.map Prod.fst)).2 ↔
      e.1.isOnline = true ∧ ∃ cam ∈ model.cameras, cam.cameraId = id ∧ cam.isOnline = false := by
  have hlookup := lookup_of_lastListed hid he
  rw [CameraModel.mem_onStoreUpdated_iff]
  constructor
  · rintro ⟨cam, hcam, hcid, hoff, snap, hsnap, hon⟩
    obtain rfl := Option.some.inj (hlookup.symm.trans hsnap)
    exact ⟨hon, cam, hcam, hcid, hoff⟩
  · rintro ⟨hon, cam, hcam, hcid, hoff⟩
    exact ⟨cam, hcam, hcid, hoff, e.1, hlookup, hon⟩

theorem worker_iff (hs : s.terminated = false) {es : List (CameraData × String)}
    (hl : CameraStore.listed parsed = some es) {id : String} (hid : id ≠ "")
    {e : CameraData × String} (he : CameraStore.lastListed es id = some e) :
    (∃ w, (step env s parsed).1.data.videoManager.workers.get? id = some w ∧
      w.connectionString =
        ((step env s parsed).1.data.cameraStore.getCameraStruct id).sourceUrl) ↔
      (e.1.isOnline = true ∧ ∃ cam ∈ s.data.cameraModel.cameras,
        cam.cameraId = id ∧ cam.isOnline = false) ∨
      ∀ w, s.data.videoManager.workers.get? id = some w → w.connectionString = e.2 := by
  rw [step_listed hs hl]
  obtain ⟨store, hstore⟩ : ∃ store : CameraStore, store =
    ⟨es.map Prod.fst, CameraStore.setSourceUrls s.data.cameraStore.table es⟩ := ⟨_, rfl⟩
  have hurl : (store.getCameraStruct id).sourceUrl = e.2 := by
    rw [hstore, CameraStore.getCameraStruct, CameraStore.sourceUrl_setSourceUrls, he]
    rfl
  have honline := mem_cameraOnline_iff env s.data.cameraModel hid he
  have hnames := CameraModel.exists_names_onStoreUpdated env.autoSplit env.order
    s.data.cameraModel (Option.isSome_of_eq_some (lookup_of_lastListed hid he))
  obtain ⟨p, hp⟩ : ∃ p, p = Data.providers env { s.data with cameraStore := store } := ⟨_, rfl⟩
  have hpurl : p.url id = e.2 := hp ▸ hurl
  have hconn := VideoManager.connectionString?_onSignals p s.data.videoManager
    (s.data.cameraModel.onStoreUpdated env.autoSplit env.order (es.map Prod.fst)).2 hid
  rw [if_pos hnames, hpurl] at hconn
  rw [← hstore]
  show (∃ w, ((VideoManager.onSignals (Data.providers env { s.data with cameraStore := store }) _
    _).1.workers).get? id = some w ∧
      w.connectionString = (store.getCameraStruct id).sourceUrl) ↔ _
  rw [← Option.map_eq_some_iff, hurl, ← hp]
  refine (Eq.congr_left hconn).trans ?_
  by_cases hmem : .cameraOnline id ∈
    (s.data.cameraModel.onStoreUpdated env.autoSplit env.order (es.map Prod.fst)).2
  · rw [if_pos hmem]
    exact iff_of_true rfl (Or.inl (honline.mp hmem))
  · rw [if_neg hmem, or_iff_right (mt honline.mpr hmem), VideoManager.connectionString?]
    cases s.data.videoManager.workers.get? id with
    | none => exact iff_of_true rfl fun w hw => absurd hw.symm (Option.some_ne_none w)
    | some w => simp

theorem streams_iff (h : s.terminated = false → s.Invariant) (env : Env) (parsed : Json) :
    ((step env s parsed).1.terminated = false →
      Streams (step env s parsed).1.data (entries parsed)) ↔ s.Refreshed parsed := by
  by_cases hs : s.terminated = true
  · have hstep : step env s parsed = (s, []) := if_pos hs
    rw [hstep, Refreshed, hs]
    exact iff_of_true nofun nofun
  · have hs' := Bool.eq_false_of_not_eq_true hs
    cases hl : CameraStore.listed parsed with
    | none =>
      have hentries : entries parsed = [] := by rw [entries, hl]; rfl
      rw [Refreshed, hentries]
      refine iff_of_true (fun ht => ?_) fun _ => nofun
      have hinv := Invariant.step h env parsed ht
      exact ⟨nofun, hinv.get?_slot_iff, hinv.slotIds⟩
    | some es =>
      have hentries : entries parsed = es := by rw [entries, hl]; rfl
      have ht : (step env s parsed).1.terminated = false := by rw [step_listed hs' hl]
      have hinv := Invariant.step h env parsed ht
      rw [Refreshed, hentries, forall_prop_of_true ht, forall_prop_of_true hs']
      -- what is left of the two sides is about each camera that is online
      have hworker : ∀ e ∈ es, ∃ l, CameraStore.lastListed es e.1.cameraId = some l := by
        intro e he
        refine Option.isSome_iff_exists.mp (List.find?_isSome.mpr ⟨e, List.mem_reverse.mpr he, ?_⟩)
        exact decide_eq_true rfl
      have hid : ∀ e ∈ es, e.1.cameraId ≠ "" := CameraStore.cameraId_of_mem_listed hl
      constructor
      · intro hst e he hon l hlast
        exact (worker_iff hs' hl (hid e he) hlast).mp (hst.worker e he hon)
      · intro hr
        refine ⟨fun e he hon => ?_, hinv.get?_slot_iff, hinv.slotIds⟩
        obtain ⟨l, hlast⟩ := hworker e he
        exact (worker_iff hs' hl (hid e he) hlast).mpr (hr e he hon l hlast)

/-- **The workers stream the announced URLs** throughout a run if and only if each camera that a list
has online comes online with it, or keeps its URL, or has no worker yet. -/
theorem streams_announced_iff (env : Env) (ps : List Json) :
    StreamsAnnounced env ps ↔ Machine.Along (step env) Refreshed init ps :=
  Machine.along_congr (step env) (P := fun s => s.terminated = false → s.Invariant)
    (fun _ parsed h => ⟨streams_iff h env parsed, fun _ => Invariant.step h env parsed⟩)
    (fun _ => invariant_init) ps

/-- A list with one camera and its URL. -/
def sampleStream (url : String) : Json :=
  .array [.object [("ip", .string "10.0.0.1"), ("source_url", .string url),
    ("is_online", .bool true)]]

/-- A camera that is online is given another URL. -/
theorem streams_announced_fails : ¬ StreamsAnnounced Env.sample
    [sampleStream "rtsp://10.0.0.1/0/a", sampleStream "rtsp://10.0.0.1/0/b"] := by
  rintro ⟨-, h, -⟩
  have hentry : (⟨"10.0.0.1 ()", "", true, "10.0.0.1/0", .zero⟩, "rtsp://10.0.0.1/0/b") ∈
      entries (sampleStream "rtsp://10.0.0.1/0/b") := by decide +kernel
  obtain ⟨w, hget, hurl⟩ := (h (by decide +kernel)).worker _ hentry rfl
  have hconn := Option.map_eq_some_iff.mpr ⟨w, hget, hurl⟩
  exact absurd hconn (by decide +kernel)

end CameraFeed

end AnoMap
