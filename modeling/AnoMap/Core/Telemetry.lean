import AnoMap.Domain.Camera
import AnoMap.Models.AiImageModel
import AnoMap.Models.CameraModel
import Mathlib.Data.List.TakeWhile

/-!
# Telemetry

Sensor readings, person counts and images arrive with the address of a device. The handlers look
the address up in the camera store: the cameras whose id starts with its text are updated.

* `metaTask`, `aiTask`, `imageTask`: what the pool's task of a packet does to the store and posts
  to the models, as a list of effects. The texts stand for what they parse to; the alarms that an
  AI packet may raise are left out.
* `Telemetry.process`: the effects, each at once.
* `cameraIp`: the address in a camera id (`readItem_cameraIp`).
* **`routed_by_ip_iff`**: a packet goes to the cameras at its address, and to no others, if and
  only if its address is a textual prefix of no camera id at another address.
-/

set_option autoImplicit false

namespace AnoMap

open Domain Models

/-- The packets META, AI and IMAGE. -/
inductive TelemetryPacket where
  | metaResult (parsed : Json)
  | aiResult (parsed : Json)
  | imageData (data : List UInt8) (parsed : Json)

/-- The text of a packet. -/
def TelemetryPacket.json : TelemetryPacket → Json
  | .metaResult parsed => parsed
  | .aiResult parsed => parsed
  | .imageData _ parsed => parsed

/-- What a task does to a camera: a call of the store, or one posted to a model. -/
inductive Effect where
  | updateDeviceInfo (cameraId : String) (info : DeviceInfo)
  | updateSensorInfo (cameraId : String) (info : DeviceInfo)
  | updateAiInfo (cameraId : String) (info : AiInfo)
  | onImageReceivedBase64 (ev : AiImageEvent)
  deriving DecidableEq

/-- The camera that is touched. -/
def Effect.cameraId : Effect → String
  | .updateDeviceInfo cameraId _ => cameraId
  | .updateSensorInfo cameraId _ => cameraId
  | .updateAiInfo cameraId _ => cameraId
  | .onImageReceivedBase64 ev => ev.cameraId

/-! ## The handlers -/

/-- `cameraId.rfind(ip, 0) == 0`. -/
def StartsWith (cameraId ip : String) : Prop := ip.toList <+: cameraId.toList

instance (cameraId ip : String) : Decidable (StartsWith cameraId ip) :=
  inferInstanceAs (Decidable (_ <+: _))

/-- The cameras found for an address. -/
def matchedIds (snap : List CameraData) (ip : String) : List String :=
  (snap.map CameraData.cameraId).filter (StartsWith · ip)

/-- The last reading of `sensor_batch`, with the address. -/
def readMeta (parsed : Json) : Except TypeError (Option (String × DeviceInfo)) := do
  if parsed.isObject = false then return none
  let ip ← parsed.value "ip" ""
  if ip = "" then return none
  match parsed.member? "sensor_batch" with
  | some (.array batch) =>
    match batch.getLast? with
    | none => return none
    | some latest =>
      let hum ← latest.value "hum" (0 : Double)
      let light ← latest.value "light" (0 : Double)
      let tilt ← latest.value "tilt" (0 : Double)
      let tmp ← latest.value "tmp" (0 : Double)
      return some (ip, ⟨hum, light, tilt, tmp⟩)
  | _ => return none

/-- `person_count`, with the address. -/
def readAi (parsed : Json) : Except TypeError (Option (String × ℤ)) := do
  if parsed.isObject = false then return none
  let ip ← parsed.value "ip" ""
  if ip = "" then return none
  match parsed.member? "person_count" with
  | none => return none
  | some _ =>
    let count ← parsed.value "person_count" (0 : ℤ)
    return some (ip, count)

/-- The values of an image, still without a camera and without its bytes, and the address. A text
that is not JSON is an error here. -/
def readImage (parsed : Json) : Except TypeError (Option (String × AiImageEvent)) := do
  let ip ← parsed.value "ip" ""
  if ip = "" then return none
  let deviceName ← parsed.value "device_id" ""
  let trackId ← parsed.value "track_id" (0 : ℤ)
  let frameIndex ← parsed.value "frame_index" (0 : ℤ)
  let totalFrames ← parsed.value "total_frames" (0 : ℤ)
  let timestamp ← parsed.value "timestamp_ms" (0 : Int64)
  return some (ip, ⟨"", deviceName, trackId, frameIndex, totalFrames, timestamp, ""⟩)

/-- The character of a six-bit value. -/
def base64Char (n : ℕ) : Char :=
  if n < 26 then Char.ofNat (65 + n)
  else if n < 52 then Char.ofNat (71 + n)
  else if n < 62 then Char.ofNat (n - 4)
  else if n = 62 then '+' else '/'

/-- `QByteArray::toBase64`. -/
def toBase64 : List UInt8 → List Char
  | [] => []
  | [a] => [base64Char (a.toNat / 4), base64Char (a.toNat % 4 * 16), '=', '=']
  | [a, b] =>
    [base64Char (a.toNat / 4), base64Char (a.toNat % 4 * 16 + b.toNat / 16),
      base64Char (b.toNat % 16 * 4), '=']
  | a :: b :: c :: rest =>
    base64Char (a.toNat / 4) :: base64Char (a.toNat % 4 * 16 + b.toNat / 16) ::
      base64Char (b.toNat % 16 * 4 + c.toNat / 64) :: base64Char (c.toNat % 64) :: toBase64 rest

/-- The data URL of the JPEG bytes. -/
def dataUrl (data : List UInt8) : String := "data:image/jpeg;base64," ++ String.ofList (toBase64 data)

def metaTask (store : CameraStore) (parsed : Json) : List Effect :=
  match readMeta parsed with
  | .ok (some (ip, info)) =>
    (matchedIds store.snapshot ip).flatMap fun cid =>
      [.updateDeviceInfo cid info, .updateSensorInfo cid info]
  | _ => []

def aiTask (store : CameraStore) (parsed : Json) : List Effect :=
  match readAi parsed with
  | .ok (some (ip, count)) =>
    (matchedIds store.snapshot ip).map fun cid => .updateAiInfo cid ⟨[], [count]⟩
  | _ => []

/-- The cameras an image is for: those found, or the address's first stream. -/
def imageIds (snap : List CameraData) (ip : String) : List String :=
  match matchedIds snap ip with
  | [] => [ip ++ "/0"]
  | ids => ids

/-- The loop over the ids. An iteration moves the text out of `base64`, which is empty after the
first one. -/
def imageEffects (ev : AiImageEvent) : String → List String → List Effect
  | _, [] => []
  | base64, cid :: ids =>
    .onImageReceivedBase64 { ev with cameraId := cid, base64Image := base64 } ::
      imageEffects ev "" ids

def imageTask (store : CameraStore) (data : List UInt8) (parsed : Json) : List Effect :=
  match readImage parsed with
  | .ok (some (ip, ev)) => imageEffects ev (dataUrl data) (imageIds store.snapshot ip)
  | _ => []

def TelemetryPacket.task (store : CameraStore) : TelemetryPacket → List Effect
  | .metaResult parsed => metaTask store parsed
  | .aiResult parsed => aiTask store parsed
  | .imageData data parsed => imageTask store data parsed

/-! ## The state -/

structure Telemetry where
  cameraStore : CameraStore
  cameraModel : CameraModel
  aiImageModel : AiImageModel

namespace Telemetry

def apply (s : Telemetry) : Effect → Telemetry
  | .updateDeviceInfo cameraId info =>
    { s with cameraStore := s.cameraStore.updateDeviceInfo cameraId info }
  | .updateSensorInfo cameraId info =>
    { s with cameraModel := (s.cameraModel.updateSensorInfo cameraId info).1 }
  | .updateAiInfo cameraId info =>
    { s with cameraStore := s.cameraStore.updateAiInfo cameraId info }
  | .onImageReceivedBase64 ev =>
    { s with aiImageModel := (s.aiImageModel.onImageReceivedBase64 ev).1 }

def applyAll (s : Telemetry) (effects : List Effect) : Telemetry := effects.foldl apply s

def process (s : Telemetry) (p : TelemetryPacket) : Telemetry := s.applyAll (p.task s.cameraStore)

/-! ## The statement -/

/-- What is shown of a camera. -/
structure View where
  stored : DeviceInfo
  rows : List DeviceInfo
  personCount : List ℤ
  events : List AiImageEvent
  deriving DecidableEq

def view (s : Telemetry) (cid : String) : View where
  stored := (s.cameraStore.getCameraStruct cid).deviceInfo
  rows := (s.cameraModel.cameras.filter fun cam => cam.cameraId = cid).map CameraEntry.deviceInfo
  personCount := (s.cameraStore.getCameraStruct cid).aiInfo.personCount
  events := s.aiImageModel.getEventsForCamera cid

end Telemetry

/-- What a packet brings. -/
inductive Reading where
  | sensors (info : DeviceInfo)
  | personCount (count : ℤ)
  | image (ev : AiImageEvent)
  deriving DecidableEq

/-- The reading and the address, if the packet's text has them. -/
def TelemetryPacket.reading : TelemetryPacket → Option (String × Reading)
  | .metaResult parsed =>
    match readMeta parsed with
    | .ok (some (ip, info)) => some (ip, .sensors info)
    | _ => none
  | .aiResult parsed =>
    match readAi parsed with
    | .ok (some (ip, count)) => some (ip, .personCount count)
    | _ => none
  | .imageData _ parsed =>
    match readImage parsed with
    | .ok (some (ip, ev)) => some (ip, .image ev)
    | _ => none

/-- The camera shows the reading, an image as its newest event. -/
def Reading.ShownBy (cid : String) (v : Telemetry.View) : Reading → Prop
  | .sensors info => v.stored = info ∧ ∀ row ∈ v.rows, row = info
  | .personCount count => v.personCount = [count]
  | .image ev =>
    ∃ text, v.events.getLast? = some { ev with cameraId := cid, base64Image := text }

def Reading.IsImage : Reading → Prop
  | .image _ => True
  | _ => False

instance (r : Reading) : Decidable r.IsImage := by
  cases r <;> unfold Reading.IsImage <;> infer_instance

/-- The address in a camera id: what precedes the last slash. -/
def cameraIp (cameraId : String) : String :=
  String.ofList ((cameraId.toList.reverse.dropWhile (· ≠ '/')).drop 1).reverse

/-- The cameras a reading with this address is for: those at the address, and for an image without
any the address's first stream. -/
def Reading.IsFor (snap : List CameraData) (ip : String) (r : Reading) (cid : String) : Prop :=
  (cid ∈ snap.map CameraData.cameraId ∧ cameraIp cid = ip) ∨
    (r.IsImage ∧ (∀ cam ∈ snap, cameraIp cam.cameraId ≠ ip) ∧ cid = ip ++ "/0")

/-- **Routing by address.** The cameras touched are those the packet's reading is for; these show
the reading, and of the others nothing changes. A packet without a reading touches none. -/
structure RoutedByIp (s : Telemetry) (p : TelemetryPacket) (ip : String) : Prop where
  touched : ∀ cid, (∃ e ∈ p.task s.cameraStore, e.cameraId = cid) ↔
    ∃ r, p.reading = some (ip, r) ∧ r.IsFor s.cameraStore.snapshot ip cid
  shown : ∀ r, p.reading = some (ip, r) → ∀ cid, r.IsFor s.cameraStore.snapshot ip cid →
    r.ShownBy cid ((s.process p).view cid)
  frame : ∀ cid, (∀ r, p.reading = some (ip, r) → ¬ r.IsFor s.cameraStore.snapshot ip cid) →
    (s.process p).view cid = s.view cid

/-! ## Addresses in camera ids -/

theorem cameraIp_append {ip num : String} (h : '/' ∉ num.toList) :
    cameraIp (ip ++ "/" ++ num) = ip := by
  have hrev : (ip ++ "/" ++ num).toList.reverse =
      num.toList.reverse ++ '/' :: ip.toList.reverse := by
    rw [String.toList_append, String.toList_append, List.reverse_append, List.reverse_append]
    rfl
  have hdrop : (num.toList.reverse ++ '/' :: ip.toList.reverse).dropWhile (· ≠ '/') =
      '/' :: ip.toList.reverse := by
    rw [List.dropWhile_append_of_pos fun c hc => ?_]
    · rfl
    · simpa using fun hs : c = '/' => h (hs ▸ List.mem_reverse.mp hc)
  rw [cameraIp, hrev, hdrop, List.drop_one, List.tail_cons, List.reverse_reverse,
    String.ofList_toList]

theorem cameraIp_first (ip : String) : cameraIp (ip ++ "/0") = ip := by
  have hsplit : ip ++ "/0" = ip ++ "/" ++ "0" := by
    rw [String.append_assoc]
    rfl
  rw [hsplit, cameraIp_append (by decide)]

theorem notMem_streamNum {sourceUrl ip num : String} (h : streamNum sourceUrl ip = some num) :
    '/' ∉ num.toList := by
  unfold streamNum at h
  split at h
  · cases h
  · split at h
    · cases h
    · cases h
    · split_ifs at h
      rw [← Option.some.inj h, String.toList_ofList]
      exact fun hm => by simpa using List.mem_takeWhile_imp hm

theorem cameraIp_cameraIdOf {sourceUrl ip : String} (h : cameraIdOf sourceUrl ip ≠ "") :
    cameraIp (cameraIdOf sourceUrl ip) = ip := by
  unfold cameraIdOf at h ⊢
  split at h
  · next num hnum =>
    split_ifs at hnum
    exact cameraIp_append (notMem_streamNum hnum)
  · next hnone =>
    split_ifs at h ⊢ with hip
    · exact absurd rfl h
    · exact cameraIp_first ip

/-- **Addresses.** The address in a camera's id is that of its list item. -/
theorem readItem_cameraIp {item : Json} {d : CameraData} {sourceUrl : String}
    (h : CameraStore.readItem item = .ok (some (d, sourceUrl))) :
    item.value "ip" "" = .ok (cameraIp d.cameraId) := by
  unfold CameraStore.readItem at h
  split_ifs at h
  · cases h
  simp only [Json.bind_eq_ok] at h
  obtain ⟨url, -, cameraType, -, isOnline, -, ip, hip, h⟩ := h
  split_ifs at h with hid
  · cases h
  obtain ⟨rfl, -⟩ := Prod.mk.inj (Option.some.inj (Except.ok.inj h))
  rw [hip, cameraIp_cameraIdOf hid]

theorem startsWith_cameraIp (cameraId : String) : StartsWith cameraId (cameraIp cameraId) := by
  rw [StartsWith, cameraIp, String.toList_ofList]
  have hsuffix : (cameraId.toList.reverse.dropWhile (· ≠ '/')).drop 1 <:+
      cameraId.toList.reverse :=
    (List.drop_suffix 1 _).trans (List.dropWhile_suffix _)
  simpa using List.reverse_prefix.mpr hsuffix

/-! ## The cameras touched -/

/-- The cameras a reading is given to. -/
def Reading.ids (snap : List CameraData) (ip : String) (r : Reading) : List String :=
  if r.IsImage then imageIds snap ip else matchedIds snap ip

theorem mem_matchedIds {snap : List CameraData} {ip cid : String} :
    cid ∈ matchedIds snap ip ↔ cid ∈ snap.map CameraData.cameraId ∧ StartsWith cid ip := by
  rw [matchedIds, List.mem_filter, decide_eq_true_iff]

theorem mem_ids {snap : List CameraData} {ip cid : String} {r : Reading} :
    cid ∈ r.ids snap ip ↔ cid ∈ matchedIds snap ip ∨
      (r.IsImage ∧ matchedIds snap ip = [] ∧ cid = ip ++ "/0") := by
  unfold Reading.ids imageIds
  split_ifs with hi
  · split
    · next hm => simp [hm, hi]
    · next hm => exact ⟨.inl, fun h => h.resolve_right fun h' => hm h'.2.1⟩
  · simp [hi]

theorem mem_imageEffects {ev : AiImageEvent} {base64 : String} {ids : List String} {e : Effect}
    (h : e ∈ imageEffects ev base64 ids) : ∃ cid ∈ ids, ∃ text,
      e = .onImageReceivedBase64 { ev with cameraId := cid, base64Image := text } := by
  induction ids generalizing base64 with
  | nil => cases h
  | cons id ids ih =>
    rcases List.mem_cons.mp h with rfl | h
    · exact ⟨id, List.mem_cons_self, base64, rfl⟩
    · obtain ⟨cid, hc, he⟩ := ih h
      exact ⟨cid, List.mem_cons_of_mem id hc, he⟩

theorem exists_mem_imageEffects (ev : AiImageEvent) (base64 : String) {ids : List String}
    {cid : String} (h : cid ∈ ids) : ∃ text,
      .onImageReceivedBase64 { ev with cameraId := cid, base64Image := text } ∈
        imageEffects ev base64 ids := by
  induction ids generalizing base64 with
  | nil => cases h
  | cons id ids ih =>
    rcases List.mem_cons.mp h with rfl | h
    · exact ⟨base64, List.mem_cons_self⟩
    · obtain ⟨text, ht⟩ := ih "" h
      exact ⟨text, List.mem_cons_of_mem _ ht⟩

/-- What a reading does to one camera. -/
def Reading.Sets (cid : String) : Reading → Effect → Prop
  | .sensors info, e => e = .updateDeviceInfo cid info ∨ e = .updateSensorInfo cid info
  | .personCount count, e => e = .updateAiInfo cid ⟨[], [count]⟩
  | .image ev, e =>
    ∃ text, e = .onImageReceivedBase64 { ev with cameraId := cid, base64Image := text }

/-- The calls that make a camera show a reading are among these. -/
def Reading.SetBy (cid : String) (es : List Effect) : Reading → Prop
  | .sensors info => .updateDeviceInfo cid info ∈ es ∧ .updateSensorInfo cid info ∈ es
  | .personCount count => .updateAiInfo cid ⟨[], [count]⟩ ∈ es
  | .image ev =>
    ∃ text, .onImageReceivedBase64 { ev with cameraId := cid, base64Image := text } ∈ es

theorem Reading.Sets.cameraId {cid : String} {r : Reading} {e : Effect} (h : r.Sets cid e) :
    e.cameraId = cid := by
  cases r with
  | sensors info => rcases h with rfl | rfl <;> rfl
  | personCount count => rw [show e = _ from h]; rfl
  | image ev =>
    obtain ⟨text, rfl⟩ := h
    rfl

/-- **What a task does.** A packet without a reading does nothing. One with a reading sets it on
the cameras it is given to. -/
theorem task_cases (store : CameraStore) (p : TelemetryPacket) :
    (p.reading = none ∧ p.task store = []) ∨
    (∃ ip info, p.reading = some (ip, .sensors info) ∧
      p.task store = (matchedIds store.snapshot ip).flatMap fun cid =>
        [.updateDeviceInfo cid info, .updateSensorInfo cid info]) ∨
    (∃ ip count, p.reading = some (ip, .personCount count) ∧
      p.task store = (matchedIds store.snapshot ip).map fun cid =>
        .updateAiInfo cid ⟨[], [count]⟩) ∨
    ∃ ip ev base64, p.reading = some (ip, .image ev) ∧
      p.task store = imageEffects ev base64 (imageIds store.snapshot ip) := by
  cases p with
  | metaResult parsed =>
    simp only [TelemetryPacket.reading, TelemetryPacket.task, metaTask]
    cases readMeta parsed with
    | error e => exact .inl ⟨rfl, rfl⟩
    | ok o =>
      cases o with
      | none => exact .inl ⟨rfl, rfl⟩
      | some x => exact .inr (.inl ⟨x.1, x.2, rfl, rfl⟩)
  | aiResult parsed =>
    simp only [TelemetryPacket.reading, TelemetryPacket.task, aiTask]
    cases readAi parsed with
    | error e => exact .inl ⟨rfl, rfl⟩
    | ok o =>
      cases o with
      | none => exact .inl ⟨rfl, rfl⟩
      | some x => exact .inr (.inr (.inl ⟨x.1, x.2, rfl, rfl⟩))
  | imageData data parsed =>
    simp only [TelemetryPacket.reading, TelemetryPacket.task, imageTask]
    cases readImage parsed with
    | error e => exact .inl ⟨rfl, rfl⟩
    | ok o =>
      cases o with
      | none => exact .inl ⟨rfl, rfl⟩
      | some x => exact .inr (.inr (.inr ⟨x.1, x.2, dataUrl data, rfl, rfl⟩))

theorem task_of_none {store : CameraStore} {p : TelemetryPacket} (h : p.reading = none) :
    p.task store = [] := by
  rcases task_cases store p with ⟨-, ht⟩ | ⟨ip, info, hr, -⟩ | ⟨ip, count, hr, -⟩ | ⟨ip, ev, b, hr, -⟩
  · exact ht
  all_goals
    rw [h] at hr
    cases hr

theorem mem_task {store : CameraStore} {p : TelemetryPacket} {ip : String} {r : Reading}
    (h : p.reading = some (ip, r)) {e : Effect} (he : e ∈ p.task store) :
    ∃ cid ∈ r.ids store.snapshot ip, r.Sets cid e := by
  rcases task_cases store p with ⟨hr, -⟩ | ⟨ip', info, hr, ht⟩ | ⟨ip', count, hr, ht⟩ |
    ⟨ip', ev, base64, hr, ht⟩ <;> rw [h] at hr <;> cases hr <;> rw [ht] at he
  · obtain ⟨cid, hc, he⟩ := List.mem_flatMap.mp he
    exact ⟨cid, hc, by simpa [Reading.Sets] using he⟩
  · obtain ⟨cid, hc, rfl⟩ := List.mem_map.mp he
    exact ⟨cid, hc, rfl⟩
  · exact mem_imageEffects he

theorem exists_mem_task {store : CameraStore} {p : TelemetryPacket} {ip cid : String} {r : Reading}
    (h : p.reading = some (ip, r)) (hc : cid ∈ r.ids store.snapshot ip) :
    r.SetBy cid (p.task store) := by
  rcases task_cases store p with ⟨hr, -⟩ | ⟨ip', info, hr, ht⟩ | ⟨ip', count, hr, ht⟩ |
    ⟨ip', ev, base64, hr, ht⟩ <;> rw [h] at hr <;> cases hr <;> rw [ht]
  · exact ⟨List.mem_flatMap.mpr ⟨cid, hc, List.mem_cons_self⟩,
      List.mem_flatMap.mpr ⟨cid, hc, List.mem_cons_of_mem _ List.mem_cons_self⟩⟩
  · exact List.mem_map.mpr ⟨cid, hc, rfl⟩
  · exact exists_mem_imageEffects _ _ hc

theorem exists_task_cameraId_iff {store : CameraStore} {p : TelemetryPacket} {ip : String}
    {r : Reading} (h : p.reading = some (ip, r)) (cid : String) :
    (∃ e ∈ p.task store, e.cameraId = cid) ↔ cid ∈ r.ids store.snapshot ip := by
  constructor
  · rintro ⟨e, he, rfl⟩
    obtain ⟨cid, hc, hs⟩ := mem_task h he
    rw [hs.cameraId]
    exact hc
  · intro hc
    have hm := exists_mem_task h hc
    cases r with
    | sensors info => exact ⟨_, hm.1, rfl⟩
    | personCount count => exact ⟨_, hm, rfl⟩
    | image ev =>
      obtain ⟨text, hm⟩ := hm
      exact ⟨_, hm, rfl⟩

/-! ## The views -/

namespace Telemetry

theorem rows_updateSensorInfo (cams : List CameraEntry) (id cid : String) (info : DeviceInfo) :
    ((cams.map fun cam => if cam.cameraId = id then { cam with deviceInfo := info } else cam).filter
        fun cam => cam.cameraId = cid).map CameraEntry.deviceInfo =
      ((cams.filter fun cam => cam.cameraId = cid).map CameraEntry.deviceInfo).map fun row =>
        if cid = id then info else row := by
  rw [List.filter_map, List.map_map, List.map_map]
  have hkeep : ∀ cam : CameraEntry,
      (if cam.cameraId = id then { cam with deviceInfo := info } else cam).cameraId =
        cam.cameraId := fun cam => by split_ifs <;> rfl
  have hsame : ((fun cam : CameraEntry => decide (cam.cameraId = cid)) ∘ fun cam =>
      if cam.cameraId = id then { cam with deviceInfo := info } else cam) =
        fun cam => decide (cam.cameraId = cid) := by
    funext cam
    simp only [Function.comp_apply, hkeep]
  rw [hsame]
  refine List.map_congr_left fun cam hm => ?_
  obtain rfl : cam.cameraId = cid := of_decide_eq_true (List.mem_filter.mp hm).2
  simp only [Function.comp_apply]
  split_ifs <;> rfl

/-- What a call makes of the view of a camera. -/
def View.after (cid : String) (v : View) : Effect → View
  | .updateDeviceInfo id info => if cid = id then { v with stored := info } else v
  | .updateSensorInfo id info =>
    if cid = id then { v with rows := v.rows.map fun _ => info } else v
  | .updateAiInfo id info => if cid = id then { v with personCount := info.personCount } else v
  | .onImageReceivedBase64 ev =>
    if cid = ev.cameraId then { v with events := AiImageModel.trim (v.events ++ [ev]) } else v

theorem view_apply (s : Telemetry) (e : Effect) (cid : String) :
    (s.apply e).view cid = (s.view cid).after cid e := by
  cases e with
  | updateDeviceInfo id info =>
    simp only [apply, view, View.after, CameraStore.getCameraStruct_updateDeviceInfo]
    split_ifs <;> rfl
  | updateSensorInfo id info =>
    simp only [apply, view, View.after, CameraModel.updateSensorInfo, rows_updateSensorInfo]
    split_ifs <;> simp
  | updateAiInfo id info =>
    simp only [apply, view, View.after, CameraStore.getCameraStruct_updateAiInfo]
    split_ifs <;> rfl
  | onImageReceivedBase64 ev =>
    simp only [apply, view, View.after]
    split_ifs with h
    · rw [h, AiImageModel.getEventsForCamera_self]
    · rw [AiImageModel.getEventsForCamera_of_ne _ h]

theorem View.after_of_ne (v : View) {e : Effect} {cid : String} (h : e.cameraId ≠ cid) :
    v.after cid e = v := by
  cases e <;> exact if_neg fun hc => h hc.symm

theorem view_applyAll_of_ne (s : Telemetry) {es : List Effect} {cid : String}
    (h : ∀ e ∈ es, e.cameraId ≠ cid) : (s.applyAll es).view cid = s.view cid := by
  induction es generalizing s with
  | nil => rfl
  | cons e es ih =>
    rw [show s.applyAll (e :: es) = (s.apply e).applyAll es from rfl,
      ih _ fun e' he => h e' (List.mem_cons_of_mem e he), view_apply,
      View.after_of_ne _ (h e List.mem_cons_self)]

/-- A property of a view that one of the calls brings about and none of them ends. -/
theorem view_applyAll (s : Telemetry) {es : List Effect} {cid : String} {P : View → Prop}
    (hkeep : ∀ e ∈ es, ∀ v : View, P v → P (v.after cid e))
    (hset : ∃ e ∈ es, ∀ v : View, P (v.after cid e)) :
    P ((s.applyAll es).view cid) := by
  have hall : ∀ (es : List Effect) (s : Telemetry), (∀ e ∈ es, ∀ v : View, P v → P (v.after cid e)) →
      P (s.view cid) → P ((s.applyAll es).view cid) := by
    intro es
    induction es with
    | nil => exact fun s _ hs => hs
    | cons e es ih =>
      intro s hk hs
      refine ih (s.apply e) (fun e' he => hk e' (List.mem_cons_of_mem e he)) ?_
      rw [view_apply]
      exact hk e List.mem_cons_self _ hs
  obtain ⟨e, he, hset⟩ := hset
  obtain ⟨pre, post, rfl⟩ := List.append_of_mem he
  rw [applyAll, List.foldl_append, List.foldl_cons]
  refine hall post _ (fun e' he' => hkeep e' (by simp [he'])) ?_
  rw [view_apply]
  exact hset _

theorem shownBy_process (s : Telemetry) {p : TelemetryPacket} {ip cid : String} {r : Reading}
    (h : p.reading = some (ip, r)) (hc : cid ∈ r.ids s.cameraStore.snapshot ip) :
    r.ShownBy cid ((s.process p).view cid) := by
  have hmem := exists_mem_task h hc
  have hsets : ∀ e ∈ p.task s.cameraStore, e.cameraId = cid → r.Sets cid e := by
    intro e he hid
    obtain ⟨cid', -, hs⟩ := mem_task h he
    obtain rfl : cid' = cid := hs.cameraId.symm.trans hid
    exact hs
  have hkeep : ∀ {P : View → Prop}, (∀ e, r.Sets cid e → ∀ v : View, P v → P (v.after cid e)) →
      ∀ e ∈ p.task s.cameraStore, ∀ v : View, P v → P (v.after cid e) := by
    intro P hP e he v hv
    by_cases hid : e.cameraId = cid
    · exact hP e (hsets e he hid) v hv
    · rwa [View.after_of_ne v hid]
  cases r with
  | sensors info =>
    constructor
    · refine view_applyAll s (P := fun v => v.stored = info) (hkeep ?_) ⟨_, hmem.1, fun v => ?_⟩
      · rintro e (rfl | rfl) v hv <;> simp [View.after, hv]
      · simp [View.after]
    · refine view_applyAll s (P := fun v => ∀ row ∈ v.rows, row = info) (hkeep ?_)
        ⟨_, hmem.2, fun v => ?_⟩
      · rintro e (rfl | rfl) v hv
        · simpa [View.after] using hv
        · simp [View.after]
      · simp [View.after]
  | personCount count =>
    refine view_applyAll s (P := fun v => v.personCount = [count]) (hkeep ?_) ⟨_, hmem, fun v => ?_⟩
    · rintro e rfl v -
      simp [View.after]
    · simp [View.after]
  | image ev =>
    obtain ⟨text, hmem⟩ := hmem
    refine view_applyAll s (P := fun v => ∃ text, v.events.getLast? =
      some { ev with cameraId := cid, base64Image := text }) (hkeep ?_)
      ⟨_, hmem, fun v => ⟨text, ?_⟩⟩
    · rintro e ⟨text, rfl⟩ v -
      exact ⟨text, by simp [View.after, AiImageModel.getLast?_trim]⟩
    · simp [View.after, AiImageModel.getLast?_trim]

end Telemetry

/-! ## The theorem -/

theorem readMeta_ip {parsed : Json} {ip : String} {info : DeviceInfo}
    (h : readMeta parsed = .ok (some (ip, info))) : parsed.value "ip" "" = .ok ip := by
  unfold readMeta at h
  split_ifs at h
  · cases h
  obtain ⟨ip', hip, h⟩ := Json.bind_eq_ok.mp h
  split_ifs at h
  · cases h
  split at h
  · split at h
    · cases h
    · simp only [Json.bind_eq_ok] at h
      obtain ⟨hum, -, light, -, tilt, -, tmp, -, h⟩ := h
      obtain ⟨rfl, -⟩ := Prod.mk.inj (Option.some.inj (Except.ok.inj h))
      exact hip
  · cases h

theorem readAi_ip {parsed : Json} {ip : String} {count : ℤ}
    (h : readAi parsed = .ok (some (ip, count))) : parsed.value "ip" "" = .ok ip := by
  unfold readAi at h
  split_ifs at h
  · cases h
  obtain ⟨ip', hip, h⟩ := Json.bind_eq_ok.mp h
  split_ifs at h
  · cases h
  split at h
  · cases h
  · obtain ⟨n, -, h⟩ := Json.bind_eq_ok.mp h
    obtain ⟨rfl, -⟩ := Prod.mk.inj (Option.some.inj (Except.ok.inj h))
    exact hip

theorem readImage_ip {parsed : Json} {ip : String} {ev : AiImageEvent}
    (h : readImage parsed = .ok (some (ip, ev))) : parsed.value "ip" "" = .ok ip := by
  unfold readImage at h
  obtain ⟨ip', hip, h⟩ := Json.bind_eq_ok.mp h
  split_ifs at h
  · cases h
  simp only [Json.bind_eq_ok] at h
  obtain ⟨deviceName, -, trackId, -, frameIndex, -, totalFrames, -, timestamp, -, h⟩ := h
  obtain ⟨rfl, -⟩ := Prod.mk.inj (Option.some.inj (Except.ok.inj h))
  exact hip

theorem reading_ip {p : TelemetryPacket} {ip : String} {r : Reading}
    (h : p.reading = some (ip, r)) : p.json.value "ip" "" = .ok ip := by
  cases p with
  | metaResult parsed =>
    simp only [TelemetryPacket.reading] at h
    split at h
    · next hr =>
      obtain ⟨rfl, -⟩ := Prod.mk.inj (Option.some.inj h)
      exact readMeta_ip hr
    · cases h
  | aiResult parsed =>
    simp only [TelemetryPacket.reading] at h
    split at h
    · next hr =>
      obtain ⟨rfl, -⟩ := Prod.mk.inj (Option.some.inj h)
      exact readAi_ip hr
    · cases h
  | imageData data parsed =>
    simp only [TelemetryPacket.reading] at h
    split at h
    · next hr =>
      obtain ⟨rfl, -⟩ := Prod.mk.inj (Option.some.inj h)
      exact readImage_ip hr
    · cases h

/-- When no camera elsewhere has the address as a prefix of its id, those the reading is given to
are those it is for. -/
theorem mem_ids_iff_isFor {snap : List CameraData} {ip : String} (r : Reading)
    (h : ∀ cam ∈ snap, StartsWith cam.cameraId ip → cameraIp cam.cameraId = ip) (cid : String) :
    cid ∈ r.ids snap ip ↔ r.IsFor snap ip cid := by
  have hstarts : ∀ id ∈ snap.map CameraData.cameraId, StartsWith id ip ↔ cameraIp id = ip := by
    intro id hid
    obtain ⟨cam, hcam, rfl⟩ := List.mem_map.mp hid
    exact ⟨h cam hcam, fun heq => heq ▸ startsWith_cameraIp cam.cameraId⟩
  have hnone : matchedIds snap ip = [] ↔ ∀ cam ∈ snap, cameraIp cam.cameraId ≠ ip := by
    rw [List.eq_nil_iff_forall_not_mem]
    constructor
    · intro hn cam hcam heq
      have hid := List.mem_map_of_mem (f := CameraData.cameraId) hcam
      exact hn _ (mem_matchedIds.mpr ⟨hid, (hstarts _ hid).mpr heq⟩)
    · intro hn id hid
      obtain ⟨hm, hs⟩ := mem_matchedIds.mp hid
      obtain ⟨cam, hcam, rfl⟩ := List.mem_map.mp hm
      exact hn cam hcam ((hstarts _ hm).mp hs)
  rw [mem_ids, mem_matchedIds, hnone, Reading.IsFor]
  exact or_congr_left (and_congr_right fun hm => hstarts cid hm)

/-- **Routing by address, exactly.** A packet with a reading is routed by its address if and only if
every camera whose id starts with the address's text is at that address. -/
theorem routed_by_ip_iff (s : Telemetry) (p : TelemetryPacket) (ip : String)
    (hip : p.json.value "ip" "" = .ok ip) :
    RoutedByIp s p ip ↔ (p.reading.isSome → ∀ cam ∈ s.cameraStore.snapshot,
      StartsWith cam.cameraId ip → cameraIp cam.cameraId = ip) := by
  constructor
  · intro h hr cam hcam hstart
    obtain ⟨⟨ip', r⟩, hr⟩ := Option.isSome_iff_exists.mp hr
    obtain rfl : ip' = ip := Except.ok.inj ((reading_ip hr).symm.trans hip)
    have hid : cam.cameraId ∈ r.ids s.cameraStore.snapshot ip' :=
      mem_ids.mpr (.inl (mem_matchedIds.mpr ⟨List.mem_map_of_mem hcam, hstart⟩))
    obtain ⟨r', -, hf⟩ := (h.touched _).mp ((exists_task_cameraId_iff hr _).mpr hid)
    rcases hf with ⟨-, heq⟩ | ⟨-, -, heq⟩
    · exact heq
    · rw [heq, cameraIp_first]
  · intro h
    cases hr : p.reading with
    | none =>
      have ht : p.task s.cameraStore = [] := task_of_none hr
      refine ⟨fun cid => ?_, fun r hr' => ?_, fun cid _ => ?_⟩
      · simp [ht, hr]
      · cases hr.symm.trans hr'
      · rw [Telemetry.process, ht]
        rfl
    | some x =>
      obtain ⟨ip', r⟩ := x
      obtain rfl : ip' = ip := Except.ok.inj ((reading_ip hr).symm.trans hip)
      have hids := mem_ids_iff_isFor r (h (by rw [hr]; rfl))
      refine ⟨fun cid => ?_, fun r' hr' cid hf => ?_, fun cid hf => ?_⟩
      · rw [exists_task_cameraId_iff hr, hids]
        simp [hr]
      · obtain rfl : r = r' := (Prod.mk.inj (Option.some.inj (hr.symm.trans hr'))).2
        exact Telemetry.shownBy_process s hr ((hids cid).mpr hf)
      · refine Telemetry.view_applyAll_of_ne s fun e he hid => hf r hr ((hids cid).mp ?_)
        exact (exists_task_cameraId_iff hr cid).mp ⟨e, he, hid⟩

/-- Two cameras at `10.0.0.1` and `10.0.0.10`. -/
def Telemetry.sample : Telemetry where
  cameraStore := (CameraStore.empty.updateFromJson (.array
    [.object [("ip", .string "10.0.0.1")], .object [("ip", .string "10.0.0.10")]])).1
  cameraModel := .empty
  aiImageModel := .empty

/-- A count of three persons at an address. -/
def sampleCount (ip : String) : TelemetryPacket :=
  .aiResult (.object [("ip", .string ip), ("person_count", .integer 3)])

theorem routed_by_ip_sample : RoutedByIp .sample (sampleCount "10.0.0.10") "10.0.0.10" :=
  (routed_by_ip_iff .sample (sampleCount "10.0.0.10") "10.0.0.10" rfl).mpr
    fun _ => by decide +kernel

/-- **A prefix.** A count at `10.0.0.1` is filed for `10.0.0.10` too. -/
theorem routed_by_ip_fails : ¬ RoutedByIp .sample (sampleCount "10.0.0.1") "10.0.0.1" ∧
    (Telemetry.sample.view "10.0.0.10/0").personCount = [] ∧
    ((Telemetry.sample.process (sampleCount "10.0.0.1")).view "10.0.0.10/0").personCount = [3] := by
  refine ⟨fun h => ?_, by decide +kernel, by decide +kernel⟩
  have htouched : ∃ e ∈ (sampleCount "10.0.0.1").task Telemetry.sample.cameraStore,
      e.cameraId = "10.0.0.10/0" := by decide +kernel
  obtain ⟨r, -, ⟨-, hip⟩ | ⟨-, -, hid⟩⟩ := (h.touched "10.0.0.10/0").mp htouched
  · exact absurd hip (by decide +kernel)
  · exact absurd hid (by decide +kernel)

end AnoMap
