import AnoMap.Lib.KeyMap

/-!
# The AI images

`AiImageModel`: the last images received for every camera.

* `onImageReceivedBase64`, `getEventsForCamera`, `clearAll`: the operations; the first returns the
  camera ids of the signals `aiEventReceived` it emits as well.
* `getEventsForCamera_of_ne`: an image is filed under its own camera alone.
-/

set_option autoImplicit false

namespace AnoMap

namespace Models

structure AiImageEvent where
  cameraId : String
  deviceName : String
  trackId : ℤ
  frameIndex : ℤ
  totalFrames : ℤ
  timestamp : Int64
  base64Image : String
  deriving DecidableEq

def MAX_EVENTS_PER_CAMERA : ℕ := 20

structure AiImageModel where
  eventsByCameraId : KeyMap String (List AiImageEvent)

namespace AiImageModel

def empty : AiImageModel := ⟨∅⟩

/-- `removeFirst` while the queue is longer than allowed. -/
def trim (queue : List AiImageEvent) : List AiImageEvent :=
  queue.drop (queue.length - MAX_EVENTS_PER_CAMERA)

def onImageReceivedBase64 (s : AiImageModel) (ev : AiImageEvent) : AiImageModel × List String :=
  (⟨s.eventsByCameraId.set ev.cameraId (trim (s.eventsByCameraId.getD ev.cameraId ++ [ev]))⟩,
    [ev.cameraId])

def getEventsForCamera (s : AiImageModel) (cameraId : String) : List AiImageEvent :=
  s.eventsByCameraId.getD cameraId

def clearAll (_ : AiImageModel) : AiImageModel := empty

theorem getEventsForCamera_self (s : AiImageModel) (ev : AiImageEvent) :
    (s.onImageReceivedBase64 ev).1.getEventsForCamera ev.cameraId =
      trim (s.getEventsForCamera ev.cameraId ++ [ev]) := by
  simp [onImageReceivedBase64, getEventsForCamera, KeyMap.getD]

theorem getEventsForCamera_of_ne (s : AiImageModel) {ev : AiImageEvent} {cameraId : String}
    (h : cameraId ≠ ev.cameraId) :
    (s.onImageReceivedBase64 ev).1.getEventsForCamera cameraId = s.getEventsForCamera cameraId := by
  simp only [onImageReceivedBase64, getEventsForCamera, KeyMap.getD, KeyMap.get?_set_ne _ _ h]

theorem getLast?_trim (queue : List AiImageEvent) (ev : AiImageEvent) :
    (trim (queue ++ [ev])).getLast? = some ev := by
  have hlen : (queue ++ [ev]).length - MAX_EVENTS_PER_CAMERA ≤ queue.length := by
    rw [List.length_append, MAX_EVENTS_PER_CAMERA, List.length_singleton]
    omega
  rw [trim, List.drop_append_of_le_length hlen, List.getLast?_concat]

end AiImageModel

end Models

end AnoMap
