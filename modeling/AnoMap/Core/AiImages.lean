import AnoMap.Core.Telemetry

/-!
# An image at every stream

An image is for every camera found at its address. The handler posts one call for each, and the
text of the image is moved into the first of them.

* `imageEffects_filter_head`, `imageEffects_filter_tail`: the calls for the first camera of the
  list, and for the others.
* `imageIds_length_le_one`: the list has one camera unless several are found.
* `ReachesEveryStream`: what the claimed delivery is; `reachesEveryStream_iff_posted`.
* **`image_for_all_iff`**: an image reaches every stream if and only if at most one camera in the
  store has an id that starts with its address.
-/

set_option autoImplicit false

namespace AnoMap

open Domain Models

/-! ## The statement -/

/-- The event a stream is to receive. -/
def streamEvent (data : List UInt8) (ev : AiImageEvent) (cid : String) : AiImageEvent :=
  { ev with cameraId := cid, base64Image := dataUrl data }

/-- The image `ev` for the address `ip` is posted once to each camera selected, whole, and is its
one new event. -/
structure Delivered (s : Telemetry) (data : List UInt8) (parsed : Json) (ip : String)
    (ev : AiImageEvent) : Prop where
  posted : ∀ cid ∈ imageIds s.cameraStore.snapshot ip,
    ((imageTask s.cameraStore data parsed).filter fun e => e.cameraId = cid) =
      [.onImageReceivedBase64 (streamEvent data ev cid)]
  filed : ∀ cid ∈ imageIds s.cameraStore.snapshot ip,
    (s.process (.imageData data parsed)).aiImageModel.getEventsForCamera cid =
      AiImageModel.trim (s.aiImageModel.getEventsForCamera cid ++ [streamEvent data ev cid])

/-- **Every stream.** A packet with an image is delivered. -/
def ReachesEveryStream (s : Telemetry) (data : List UInt8) (parsed : Json) : Prop :=
  ∀ ip ev, readImage parsed = .ok (some (ip, ev)) → Delivered s data parsed ip ev

/-! ## The calls of the loop -/

theorem dataUrl_ne_empty (data : List UInt8) : dataUrl data ≠ "" := by
  unfold dataUrl
  intro h
  have hprefix := (String.append_eq_empty_iff.mp h).1
  revert hprefix
  decide

/-- The first camera's calls: one with the text, then those of its further occurrences. -/
theorem imageEffects_filter_head (ev : AiImageEvent) (base64 id : String) (ids : List String) :
    ((imageEffects ev base64 (id :: ids)).filter fun e => e.cameraId = id) =
      .onImageReceivedBase64 { ev with cameraId := id, base64Image := base64 } ::
        (imageEffects ev "" ids).filter fun e => e.cameraId = id := by
  rw [imageEffects, List.filter_cons_of_pos (by simp [Effect.cameraId])]

theorem imageEffects_filter_tail (ev : AiImageEvent) {base64 id cid : String} (ids : List String)
    (h : cid ≠ id) :
    ((imageEffects ev base64 (id :: ids)).filter fun e => e.cameraId = cid) =
      (imageEffects ev "" ids).filter fun e => e.cameraId = cid := by
  rw [imageEffects]
  exact List.filter_cons_of_neg fun hc => h (of_decide_eq_true hc).symm

theorem not_posted_of_two (ev : AiImageEvent) {base64 : String} (hb : base64 ≠ "")
    (a b : String) (ids : List String) :
    ¬ ∀ cid ∈ a :: b :: ids,
      ((imageEffects ev base64 (a :: b :: ids)).filter fun e => e.cameraId = cid) =
        [.onImageReceivedBase64 { ev with cameraId := cid, base64Image := base64 }] := by
  intro h
  by_cases hab : b = a
  · -- listed twice: two calls
    subst hab
    have htwo := congrArg List.length (h b List.mem_cons_self)
    rw [imageEffects_filter_head, imageEffects_filter_head] at htwo
    simp at htwo
  · -- a second camera: its first call has no text
    have hsecond := h b (List.mem_cons_of_mem a List.mem_cons_self)
    rw [imageEffects_filter_tail ev _ hab, imageEffects_filter_head] at hsecond
    injection hsecond with hcall
    injection hcall with hev
    injection hev with _ _ _ _ _ _ htext
    exact hb htext.symm

/-! ## The cameras selected -/

theorem imageIds_ne_nil (snap : List CameraData) (ip : String) : imageIds snap ip ≠ [] := by
  unfold imageIds
  split
  · exact List.cons_ne_nil _ _
  · assumption

theorem imageIds_length_le_one {snap : List CameraData} {ip : String} :
    (imageIds snap ip).length ≤ 1 ↔ (matchedIds snap ip).length ≤ 1 := by
  unfold imageIds
  split
  · next h => simp [h]
  · rfl

theorem imageTask_of_readImage (store : CameraStore) (data : List UInt8) {parsed : Json}
    {ip : String} {ev : AiImageEvent} (h : readImage parsed = .ok (some (ip, ev))) :
    imageTask store data parsed = imageEffects ev (dataUrl data) (imageIds store.snapshot ip) := by
  rw [imageTask, h]

/-! ## The theorem -/

theorem Telemetry.getEvents_single (s : Telemetry) {data : List UInt8} {parsed : Json}
    {ev : AiImageEvent}
    (h : imageTask s.cameraStore data parsed = [.onImageReceivedBase64 ev]) :
    (s.process (.imageData data parsed)).aiImageModel.getEventsForCamera ev.cameraId =
      AiImageModel.trim (s.aiImageModel.getEventsForCamera ev.cameraId ++ [ev]) := by
  rw [Telemetry.process, TelemetryPacket.task, h]
  exact AiImageModel.getEventsForCamera_self s.aiImageModel ev

theorem delivered_iff (s : Telemetry) (data : List UInt8) {parsed : Json} {ip : String}
    {ev : AiImageEvent} (h : readImage parsed = .ok (some (ip, ev))) :
    Delivered s data parsed ip ev ↔ (imageIds s.cameraStore.snapshot ip).length ≤ 1 := by
  have htask := imageTask_of_readImage s.cameraStore data h
  constructor
  · intro hd
    have hposted := hd.posted
    rw [htask] at hposted
    by_contra hlen
    match hids : imageIds s.cameraStore.snapshot ip with
    | [] => simp [hids] at hlen
    | [_] => simp [hids] at hlen
    | a :: b :: ids =>
      rw [hids] at hposted
      exact not_posted_of_two ev (dataUrl_ne_empty data) a b ids hposted
  · intro hlen
    match hids : imageIds s.cameraStore.snapshot ip with
    | [] => exact absurd hids (imageIds_ne_nil _ _)
    | _ :: _ :: _ => simp [hids] at hlen
    | [id] =>
      have hone : imageTask s.cameraStore data parsed =
          [.onImageReceivedBase64 (streamEvent data ev id)] := by
        rw [htask, hids]
        rfl
      refine ⟨fun cid hc => ?_, fun cid hc => ?_⟩ <;> rw [hids] at hc <;>
        obtain rfl := List.mem_singleton.mp hc
      · rw [hone, List.filter_cons_of_pos (by simp [Effect.cameraId, streamEvent])]
        rfl
      · exact Telemetry.getEvents_single s hone

/-- **An image for all, exactly.** An image reaches every stream of its camera if and only if at
most one camera in the store has an id that starts with its address. -/
theorem image_for_all_iff (s : Telemetry) (data : List UInt8) (parsed : Json) :
    ReachesEveryStream s data parsed ↔ ∀ ip ev, readImage parsed = .ok (some (ip, ev)) →
      (matchedIds s.cameraStore.snapshot ip).length ≤ 1 := by
  refine forall₂_congr fun ip ev => forall_congr' fun h => ?_
  rw [delivered_iff s data h, imageIds_length_le_one]

/-- Two streams of the device `10.0.0.1`. -/
def Telemetry.twoStreams : Telemetry where
  cameraStore := (CameraStore.empty.updateFromJson (.array
    [.object [("ip", .string "10.0.0.1"), ("source_url", .string "rtsp://10.0.0.1:8554/0/a")],
      .object [("ip", .string "10.0.0.1"), ("source_url", .string "rtsp://10.0.0.1:8554/1/a")]])).1
  cameraModel := .empty
  aiImageModel := .empty

/-- An image at `10.0.0.1`. -/
def sampleImage : Json := .object [("ip", .string "10.0.0.1"), ("track_id", .integer 7)]

/-- **The second stream.** It is sent an event without an image. -/
theorem image_for_all_fails : ¬ ReachesEveryStream .twoStreams [255, 216] sampleImage ∧
    ((Telemetry.twoStreams.process (.imageData [255, 216]
      sampleImage)).aiImageModel.getEventsForCamera "10.0.0.1/1").map
        AiImageEvent.base64Image = [""] := by
  refine ⟨fun h => ?_, by decide +kernel⟩
  have hall := (h "10.0.0.1" ⟨"", "", 7, 0, 0, 0, ""⟩ (by decide +kernel)).filed "10.0.0.1/1"
    (by decide +kernel)
  exact absurd hall (by decide +kernel)

end AnoMap
