import AnoMap.Domain.SampleFold
import AnoMap.Models.CameraModel
import AnoMap.Models.DeviceModel
import AnoMap.Models.ServerStatusModel

/-!
# Live graphs

`LiveGraph.qml` draws the last values of one quantity: of the server, of a device or of a camera. It
loads the history its model holds, and reads the newest value once a second. Arithmetic is exact.

* `Sources`: the models; `LiveGraph`, `step`: the graph over them.
* `Recorder`: a graph without a bound on its samples; `Follows`: how the graph follows it.
* `points`: the line that `onPaint` draws.
* **`graph_shows_recent`**: in any run the line drawn is that of the last sixty values recorded since
  the target was chosen or its history loaded again, inside the canvas, the newest at its right edge.
-/

set_option autoImplicit false

namespace AnoMap

namespace Front

open Domain Models

structure Sources where
  serverStatus : ServerStatusModel
  deviceModel : DeviceModel
  cameraModel : CameraModel

inductive Field where
  | cpu
  | memory
  | temp
  | hum
  | light
  | tilt
  | tmp
  deriving DecidableEq, Repr

namespace Field

/-- `item[field]`; `none` for `undefined`. -/
def ofServer (field : Field) (item : HistoryItem) : Option Double :=
  match field with
  | cpu => some item.cpu
  | memory => some item.memory
  | temp => some item.temp
  | _ => none

def ofDevice (field : Field) (item : DeviceSnapshot) : Option Double :=
  match field with
  | cpu => some item.cpu
  | memory => some item.memory
  | temp => some item.temp
  | _ => none

def ofCamera (field : Field) (info : DeviceInfo) : Option Double :=
  match field with
  | hum => some info.hum
  | light => some info.light
  | tilt => some info.tilt
  | tmp => some info.tmp
  | _ => none

end Field

/-- The properties that say what is shown. -/
structure GraphTarget where
  targetIp : String
  field : Field
  isServer : Bool
  isCamera : Bool
  targetCameraId : String

namespace GraphTarget

/-- The values that `reloadHistory` loads. -/
def history (g : GraphTarget) (sources : Sources) : List Double :=
  if g.isServer then sources.serverStatus.serverHistory.map fun item =>
    (g.field.ofServer item).getD 0
  else if g.targetIp = "" then []
  else (sources.deviceModel.getHistory g.targetIp).map fun item => (g.field.ofDevice item).getD 0

/-- `onServerUpdate`, `onCameraUpdate`, `onDeviceUpdate`: the value that is pushed, if one is. -/
def latest (g : GraphTarget) (sources : Sources) : Option Double :=
  if g.isServer then sources.serverStatus.serverHistory.getLast?.map fun item =>
    (g.field.ofServer item).getD 0
  else if g.isCamera then
    if g.targetCameraId = "" then none
    else (sources.cameraModel.sensorInfoForCameraId g.targetCameraId).bind g.field.ofCamera
  else if g.targetIp = "" then none
  else (sources.deviceModel.getHistory g.targetIp).getLast?.map fun item =>
    (g.field.ofDevice item).getD 0

end GraphTarget

inductive GraphEvent where
  | serverUpdated (data : ServerStatusData)
  | devicesUpdated (snapshot : List DeviceIntegrated)
  | cameraOp (autoSplit : String → ℤ) (op : CameraModel.Op)
  | setTargetIp (ip : String)
  | setTargetCameraId (cameraId : String)
  | setIsServer (isServer : Bool)
  | setField (field : Field)
  | initTimer
  | repaintTimer
  | resize (width height : ℚ)

/-- What the models become. -/
def Sources.step (sources : Sources) : GraphEvent → Sources
  | .serverUpdated data => { sources with serverStatus := sources.serverStatus.onStoreUpdated data }
  | .devicesUpdated snapshot =>
    { sources with deviceModel := sources.deviceModel.onStoreUpdated snapshot }
  | .cameraOp autoSplit op =>
    { sources with cameraModel := (sources.cameraModel.step autoSplit op).1 }
  | _ => sources

/-- `canvas` is what was painted last; `width` and `height` are its size. -/
structure LiveGraph where
  sources : Sources
  target : GraphTarget
  localQueue : List Double
  dirty : Bool
  canvas : List Double
  width : ℚ
  height : ℚ

namespace LiveGraph

def maxQueue : ℕ := 60

def requestPaint (g : LiveGraph) : LiveGraph := { g with canvas := g.localQueue }

/-- `while (q.length > maxQueue) q.shift()`. -/
def bounded (q : List Double) : List Double := q.drop (q.length - maxQueue)

def pushValue (g : LiveGraph) (v : Double) : LiveGraph :=
  { g with localQueue := bounded (g.localQueue ++ [v]), dirty := true }

def loadHistory (g : LiveGraph) (history : List Double) : LiveGraph :=
  { g with localQueue := bounded history }.requestPaint

def reloadHistory (g : LiveGraph) : LiveGraph := g.loadHistory (g.target.history g.sources)

def clear (g : LiveGraph) : LiveGraph := { g with localQueue := [] }.requestPaint

def onRepaintTimer (g : LiveGraph) : LiveGraph :=
  let g := match g.target.latest g.sources with
    | some v => g.pushValue v
    | none => g
  if g.dirty then { g with dirty := false }.requestPaint else g

def setTarget (g : LiveGraph) (target : GraphTarget) (reload : Bool) : LiveGraph :=
  let g := { g with target := target }.clear
  if reload then g.reloadHistory else g

def step (g : LiveGraph) : GraphEvent → LiveGraph × List Empty
  | .setTargetIp ip =>
    (if g.target.targetIp = ip then g
      else g.setTarget { g.target with targetIp := ip } !g.target.isCamera, [])
  | .setTargetCameraId cameraId =>
    (if g.target.targetCameraId = cameraId then g
      else g.setTarget { g.target with targetCameraId := cameraId } false, [])
  | .setIsServer isServer =>
    (if g.target.isServer = isServer then g
      else g.setTarget { g.target with isServer := isServer } true, [])
  | .setField field =>
    (if g.target.field = field then g
      else g.setTarget { g.target with field := field } !g.target.isCamera, [])
  | .initTimer => (g.reloadHistory, [])
  | .repaintTimer => (g.onRepaintTimer, [])
  | .resize width height => ({ g with width := width, height := height }.requestPaint, [])
  | e => ({ g with sources := g.sources.step e }, [])

def init (sources : Sources) (target : GraphTarget) : LiveGraph :=
  ⟨sources, target, [], false, [], 0, 0⟩

def minY : ℚ := 0

def maxY : ℚ := 100

/-- The height at which a value is drawn. -/
def ny (height : ℚ) (v : Double) : ℚ :=
  max 0 (min height (height - height * (v - minY) / (maxY - minY)))

/-- The line that `onPaint` draws. -/
def points (width height : ℚ) (values : List Double) : List (ℚ × ℚ) :=
  let values := if values.length = 1 then values ++ values else values
  values.mapIdx fun j v => (width * j / (max 1 (values.length - 1) : ℕ), ny height v)

end LiveGraph

/-- Every value read since the target was chosen or the history loaded again, behind the values that
were loaded then. -/
structure Recorder where
  sources : Sources
  target : GraphTarget
  samples : List Double

namespace Recorder

def setTarget (r : Recorder) (target : GraphTarget) (reload : Bool) : Recorder :=
  ⟨r.sources, target, if reload then target.history r.sources else []⟩

def step (r : Recorder) : GraphEvent → Recorder × List Empty
  | .setTargetIp ip =>
    (if r.target.targetIp = ip then r
      else r.setTarget { r.target with targetIp := ip } !r.target.isCamera, [])
  | .setTargetCameraId cameraId =>
    (if r.target.targetCameraId = cameraId then r
      else r.setTarget { r.target with targetCameraId := cameraId } false, [])
  | .setIsServer isServer =>
    (if r.target.isServer = isServer then r
      else r.setTarget { r.target with isServer := isServer } true, [])
  | .setField field =>
    (if r.target.field = field then r
      else r.setTarget { r.target with field := field } !r.target.isCamera, [])
  | .initTimer => ({ r with samples := r.target.history r.sources }, [])
  | .repaintTimer => ({ r with samples := r.samples ++ (r.target.latest r.sources).toList }, [])
  | e => ({ r with sources := r.sources.step e }, [])

def init (sources : Sources) (target : GraphTarget) : Recorder := ⟨sources, target, []⟩

end Recorder

/-! ## The graph follows the recorder -/

namespace LiveGraph

/-- The last values recorded are queued, and painted. -/
structure Follows (g : LiveGraph) (r : Recorder) : Prop where
  sources : g.sources = r.sources
  target : g.target = r.target
  localQueue : g.localQueue = r.samples.rtake maxQueue
  canvas : g.canvas = g.localQueue
  clean : g.dirty = false

variable {g : LiveGraph} {r : Recorder}

theorem bounded_eq (q : List Double) : bounded q = q.rtake maxQueue := rfl

theorem Follows.setTarget (h : g.Follows r) (target : GraphTarget) (reload : Bool) :
    (g.setTarget target reload).Follows (r.setTarget target reload) := by
  unfold LiveGraph.setTarget Recorder.setTarget
  cases reload with
  | false => exact ⟨h.sources, rfl, rfl, rfl, h.clean⟩
  | true =>
    refine ⟨h.sources, rfl, ?_, rfl, h.clean⟩
    rw [← h.sources]
    exact bounded_eq _

theorem Follows.reloadHistory (h : g.Follows r) :
    g.reloadHistory.Follows { r with samples := r.target.history r.sources } := by
  refine ⟨h.sources, h.target, ?_, rfl, h.clean⟩
  rw [← h.sources, ← h.target]
  exact bounded_eq _

theorem Follows.onRepaintTimer (h : g.Follows r) : g.onRepaintTimer.Follows
    { r with samples := r.samples ++ (r.target.latest r.sources).toList } := by
  unfold LiveGraph.onRepaintTimer
  rw [h.sources, h.target]
  cases r.target.latest r.sources with
  | none =>
    dsimp only
    rw [h.clean, if_neg Bool.false_ne_true, Option.toList_none, List.append_nil]
    exact h
  | some v =>
    dsimp only [pushValue]
    rw [if_pos rfl]
    refine ⟨h.sources, h.target, ?_, rfl, rfl⟩
    dsimp only [requestPaint]
    rw [bounded_eq, h.localQueue, Option.toList_some, ← DeviceStore.rtake_concat]

theorem Follows.step (h : g.Follows r) (e : GraphEvent) : (g.step e).1.Follows (r.step e).1 := by
  have hsources : ∀ sources, { g with sources := sources }.Follows { r with sources := sources } :=
    fun _ => ⟨rfl, h.target, h.localQueue, h.canvas, h.clean⟩
  cases e with
  | serverUpdated data =>
    unfold LiveGraph.step Recorder.step
    dsimp only
    rw [h.sources]
    exact hsources _
  | devicesUpdated snapshot =>
    unfold LiveGraph.step Recorder.step
    dsimp only
    rw [h.sources]
    exact hsources _
  | cameraOp autoSplit op =>
    unfold LiveGraph.step Recorder.step
    dsimp only
    rw [h.sources]
    exact hsources _
  | setTargetIp ip =>
    rw [LiveGraph.step, Recorder.step, h.target]
    dsimp only
    split_ifs
    · exact h
    · exact h.setTarget _ _
  | setTargetCameraId cameraId =>
    rw [LiveGraph.step, Recorder.step, h.target]
    dsimp only
    split_ifs
    · exact h
    · exact h.setTarget _ _
  | setIsServer isServer =>
    rw [LiveGraph.step, Recorder.step, h.target]
    dsimp only
    split_ifs
    · exact h
    · exact h.setTarget _ _
  | setField field =>
    rw [LiveGraph.step, Recorder.step, h.target]
    dsimp only
    split_ifs
    · exact h
    · exact h.setTarget _ _
  | initTimer => exact h.reloadHistory
  | repaintTimer => exact h.onRepaintTimer
  | resize width height => exact ⟨h.sources, h.target, h.localQueue, rfl, h.clean⟩

theorem follows_final (sources : Sources) (target : GraphTarget) (es : List GraphEvent) :
    (Machine.final step (init sources target) es).Follows
      (Machine.final Recorder.step (.init sources target) es) := by
  induction es using List.reverseRecOn with
  | nil => exact ⟨rfl, rfl, rfl, rfl, rfl⟩
  | append_singleton es e ih =>
    rw [Machine.final_concat, Machine.final_concat]
    exact ih.step e

/-! ## The line -/

/-- The line stays in the canvas, and goes from left to right. -/
structure Drawn (width height : ℚ) (line : List (ℚ × ℚ)) : Prop where
  inside : ∀ p ∈ line, (0 ≤ p.1 ∧ p.1 ≤ width) ∧ 0 ≤ p.2 ∧ p.2 ≤ height
  rightward : line.Pairwise fun p p' => p.1 ≤ p'.1

theorem drawn_points {width height : ℚ} (hw : 0 ≤ width) (hh : 0 ≤ height) (values : List Double) :
    Drawn width height (points width height values) := by
  unfold points
  dsimp only
  generalize (if values.length = 1 then values ++ values else values) = line
  have hpos : (0 : ℚ) < (max 1 (line.length - 1) : ℕ) := Nat.cast_pos.mpr (lt_max_of_lt_left one_pos)
  constructor
  · intro p hp
    obtain ⟨j, hj, rfl⟩ := List.mem_mapIdx.mp hp
    have hle : ((j : ℕ) : ℚ) ≤ (max 1 (line.length - 1) : ℕ) :=
      Nat.cast_le.mpr (le_max_of_le_right (by omega))
    refine ⟨⟨by positivity, ?_⟩, le_max_left _ _, max_le hh (min_le_left _ _)⟩
    dsimp only
    rw [div_le_iff₀ hpos]
    exact mul_le_mul_of_nonneg_left hle hw
  · rw [List.pairwise_iff_getElem]
    intro i j hi hj hij
    rw [List.getElem_mapIdx, List.getElem_mapIdx]
    dsimp only
    have hcast : ((i : ℕ) : ℚ) ≤ j := by exact_mod_cast hij.le
    gcongr

theorem getLast?_points (width height : ℚ) {values : List Double} {v : Double}
    (hv : values.getLast? = some v) : (points width height values).getLast? =
      some (width, ny height v) := by
  have hne : values ≠ [] := by
    rintro rfl
    exact absurd hv.symm (Option.some_ne_none v)
  have hline : ∀ line : List Double, line.getLast? = some v → 2 ≤ line.length →
      (line.mapIdx fun j v =>
        (width * j / (max 1 (line.length - 1) : ℕ), ny height v)).getLast? =
      some (width, ny height v) := by
    intro line hlast hlen
    have hmax : max 1 (line.length - 1) = line.length - 1 := max_eq_right (by omega)
    have hne : ((line.length - 1 : ℕ) : ℚ) ≠ 0 := Nat.cast_ne_zero.mpr (by omega)
    rw [List.getLast?_eq_getElem?] at hlast ⊢
    rw [List.getElem?_mapIdx, List.length_mapIdx, hlast, Option.map_some, hmax,
      mul_div_cancel_right₀ _ hne]
  unfold points
  dsimp only
  have hlen := List.length_pos_iff.mpr hne
  split_ifs with hone
  · apply hline
    · rw [List.getLast?_append, hv]
      rfl
    · rw [List.length_append]
      omega
  · exact hline values hv (by omega)

theorem getLast?_rtake {α : Type} (l : List α) {n : ℕ} (hn : 0 < n) :
    (l.rtake n).getLast? = l.getLast? := by
  unfold List.rtake
  rw [List.getLast?_drop]
  split_ifs with h
  · have hnil : l = [] := List.eq_nil_of_length_eq_zero (by omega)
    rw [hnil]
    rfl
  · rfl

/-- **Recent values.** The line drawn is that of the last sixty values recorded, inside the canvas,
and ends at the right edge at the height of the newest. -/
theorem graph_shows_recent (sources : Sources) (target : GraphTarget) (es : List GraphEvent) :
    let g := Machine.final step (init sources target) es
    let r := Machine.final Recorder.step (.init sources target) es
    g.canvas = r.samples.rtake maxQueue ∧
    (0 ≤ g.width → 0 ≤ g.height → Drawn g.width g.height (points g.width g.height g.canvas)) ∧
    ∀ v, r.samples.getLast? = some v → (points g.width g.height g.canvas).getLast? =
      some (g.width, ny g.height v) := by
  intro g r
  have h : g.Follows r := follows_final sources target es
  have hcanvas : g.canvas = r.samples.rtake maxQueue := h.canvas.trans h.localQueue
  refine ⟨hcanvas, fun hw hh => drawn_points hw hh _, fun v hv => getLast?_points _ _ ?_⟩
  rw [hcanvas, getLast?_rtake _ (by decide)]
  exact hv

end LiveGraph

end Front

end AnoMap
