import AnoMap.Domain.Camera
import Mathlib.Data.Finset.Insert
import Mathlib.Data.Finset.Erase

/-!
# The camera model

`CameraModel`: the rows of the dashboard and the operations on them, with the signals each emits.
The counters are taken to stay below the bound of `int`. The row notifications of the Qt model
interface are left out.

* `swapSlots`, `setOnline`, `setData`, `splitSlot`, `mergeSlots`, `applyAutoSplitForSlot`,
  `updateSensorInfo`, `clearAll`, `onStoreUpdated`: the operations.
* `HashOrder`: the order in which a hash table is walked.
* `Op`, `step`: one operation of any kind.
-/

set_option autoImplicit false

namespace AnoMap

namespace Models

open Domain

structure SlotInfo where
  slotId : ℤ
  cameraId : String
  deriving DecidableEq, Repr

structure CameraEntry where
  slotId : ℤ
  title : String
  cameraId : String
  isOnline : Bool
  cameraType : String
  splitCount : ℤ
  splitDirection : SplitDirection
  cropRect : Rect ℚ
  splitGroupId : ℤ
  splitIndex : ℤ
  description : String
  width : ℤ
  height : ℤ
  deviceInfo : DeviceInfo
  deriving DecidableEq, Repr

/-- The member initialisers of `CameraEntry`. -/
def CameraEntry.default : CameraEntry where
  slotId := -1
  title := ""
  cameraId := ""
  isOnline := false
  cameraType := ""
  splitCount := 1
  splitDirection := .none
  cropRect := .unit
  splitGroupId := -1
  splitIndex := 0
  description := ""
  width := 320
  height := 240
  deviceInfo := .zero

inductive CameraSignal where
  | slotsUpdated (slots : List SlotInfo)
  | cameraIdsUpdated (cameraIds : List String)
  | cameraOnline (cameraId : String)
  | sensorDataUpdated (cameraId : String)
  deriving DecidableEq, Repr

structure CameraModel where
  cameras : List CameraEntry
  nextSlotId : ℤ
  nextSplitGroupId : ℤ
  autoSplitAppliedSlotIds : Finset ℤ
  deriving DecidableEq

/-- The order in which a `QHash` with these entries is walked. -/
structure HashOrder (β : Type) where
  walk : List (String × β) → List (String × β)
  perm : ∀ l, (walk l).Perm l

theorem HashOrder.perm_id {β : Type} (l : List (String × β)) : (id l).Perm l := List.Perm.refl l

namespace CameraModel

/-- The model as constructed. -/
def empty : CameraModel := ⟨[], 0, 1, ∅⟩

/-- `0 <= row < cameras_.size()`. -/
def IsRow (s : CameraModel) (row : ℤ) : Prop := 0 ≤ row ∧ row < s.cameras.length

instance (s : CameraModel) (row : ℤ) : Decidable (s.IsRow row) := inferInstanceAs (Decidable (_ ∧ _))

/-- `cameras_[row]` is changed in place. -/
def modifyRow (s : CameraModel) (row : ℤ) (f : CameraEntry → CameraEntry) : CameraModel :=
  { s with cameras := s.cameras.modify row.toNat f }

/-- The camera ids, each once, in row order. -/
def cameraIds (s : CameraModel) : List String :=
  (s.cameras.foldl (fun (acc : List String) cam =>
    if cam.cameraId ≠ "" ∧ cam.cameraId ∉ acc then acc ++ [cam.cameraId] else acc) [])

/-- `_emitSlotsUpdated`. -/
def slotsSignals (s : CameraModel) : List CameraSignal :=
  [.slotsUpdated (s.cameras.map fun cam => ⟨cam.slotId, cam.cameraId⟩),
    .cameraIdsUpdated s.cameraIds]

inductive EditRole where
  | title (value : String)
  | isOnline (value : Bool)
  | cameraType (value : String)
  | other
  deriving DecidableEq, Repr

def setData (s : CameraModel) (row : ℤ) (edit : EditRole) : CameraModel :=
  if s.IsRow row then
    match edit with
    | .title value => s.modifyRow row fun cam => { cam with title := value }
    | .isOnline value => s.modifyRow row fun cam => { cam with isOnline := value }
    | .cameraType value => s.modifyRow row fun cam => { cam with cameraType := value }
    | .other => s
  else s

/-- What `std::swap` moves into `a` from `b`: all but the slot id and the sensor data. -/
def takeContent (a b : CameraEntry) : CameraEntry :=
  { b with slotId := a.slotId, deviceInfo := a.deviceInfo }

def swapSlots (s : CameraModel) (indexA indexB : ℤ) : CameraModel × List CameraSignal :=
  if s.IsRow indexA ∧ s.IsRow indexB ∧ indexA ≠ indexB then
    let a := s.cameras.getD indexA.toNat .default
    let b := s.cameras.getD indexB.toNat .default
    let s' := { s with cameras :=
      (s.cameras.set indexA.toNat (takeContent a b)).set indexB.toNat (takeContent b a) }
    (s', s'.slotsSignals)
  else (s, [])

def setOnline (s : CameraModel) (index : ℤ) (online : Bool) : CameraModel :=
  if s.IsRow index then s.modifyRow index fun cam => { cam with isOnline := online } else s

def computeCropRect (tileIndex tileCount : ℤ) (direction : SplitDirection) : Rect ℚ :=
  match direction with
  | .col =>
    if tileCount < 2 ∨ tileCount > 4 then ⟨0, 0, 1, 1⟩
    else
      let w : ℚ := 1 / tileCount
      let x : ℚ := tileIndex * w
      let stop : ℚ := if tileIndex = tileCount - 1 then 1 else x + w
      ⟨x, 0, stop - x, 1⟩
  | .row =>
    if tileCount < 2 ∨ tileCount > 3 then ⟨0, 0, 1, 1⟩
    else
      let h : ℚ := 1 / tileCount
      let y : ℚ := tileIndex * h
      let stop : ℚ := if tileIndex = tileCount - 1 then 1 else y + h
      ⟨0, y, 1, stop - y⟩
  | .grid =>
    if tileCount = 4 then
      let col : ℚ := (tileIndex.tmod 2 : ℤ) * (1 / 2)
      let row : ℚ := (tileIndex.tdiv 2 : ℤ) * (1 / 2)
      ⟨col, row, 1 / 2, 1 / 2⟩
    else ⟨0, 0, 1, 1⟩
  | .none => ⟨0, 0, 1, 1⟩

/-- `_indexBySlotId`; `none` for `-1`. -/
def indexBySlotId (s : CameraModel) (slotId : ℤ) : Option ℕ :=
  s.cameras.findIdx? fun cam => cam.slotId = slotId

def ValidCount (tileCount : ℤ) (direction : SplitDirection) : Prop :=
  match direction with
  | .col => 2 ≤ tileCount ∧ tileCount ≤ 4
  | .row => tileCount = 2 ∨ tileCount = 3
  | .grid => tileCount = 4
  | .none => False

instance (tileCount : ℤ) (direction : SplitDirection) : Decidable (ValidCount tileCount direction) := by
  unfold ValidCount
  cases direction <;> infer_instance

/-- The `i`-th tile of a split row. -/
def tileEntry (original : CameraEntry) (slotId splitGroupId tileCount : ℤ)
    (direction : SplitDirection) (i : ℕ) : CameraEntry :=
  { CameraEntry.default with
    slotId := slotId
    cameraId := original.cameraId
    title := original.title ++ " [" ++ toString (i + 1) ++ "/" ++ toString tileCount ++ "]"
    isOnline := original.isOnline
    cameraType := original.cameraType
    splitCount := tileCount
    splitDirection := direction
    splitGroupId := splitGroupId
    splitIndex := i
    cropRect := computeCropRect i tileCount direction
    description := original.description }

/-- The loop of `_splitSlotAtIndex`: tiles `i`, …, `i + n - 1` are inserted. -/
def insertTiles (original : CameraEntry) (splitGroupId tileCount : ℤ) (direction : SplitDirection)
    (autoSplit : Bool) (rowIndex : ℕ) : ℕ → ℕ → CameraModel → CameraModel
  | 0, _, s => s
  | n + 1, i, s =>
    let e := tileEntry original s.nextSlotId splitGroupId tileCount direction i
    insertTiles original splitGroupId tileCount direction autoSplit rowIndex n (i + 1)
      { s with
        nextSlotId := s.nextSlotId + 1
        cameras := s.cameras.insertIdx (rowIndex + i) e
        autoSplitAppliedSlotIds :=
          if autoSplit then insert e.slotId s.autoSplitAppliedSlotIds
          else s.autoSplitAppliedSlotIds }

/-- `_splitSlotAtIndex`. -/
def splitSlotAtIndex (s : CameraModel) (rowIndex tileCount : ℤ) (direction : SplitDirection)
    (autoSplit : Bool) : CameraModel × List CameraSignal :=
  let original := s.cameras.getD rowIndex.toNat .default
  if s.IsRow rowIndex ∧ ValidCount tileCount direction ∧ original.splitCount = 1 ∧
      original.isOnline = true then
    let s' := insertTiles original s.nextSplitGroupId tileCount direction autoSplit rowIndex.toNat
      tileCount.toNat 0
      { s with
        nextSplitGroupId := s.nextSplitGroupId + 1
        cameras := s.cameras.eraseIdx rowIndex.toNat }
    let s' := { s' with
      autoSplitAppliedSlotIds := s'.autoSplitAppliedSlotIds.erase original.slotId }
    (s', s'.slotsSignals)
  else (s, [])

/-- The last position of `" ["`. -/
def lastMarker : List Char → Option ℕ
  | [] => none
  | c :: cs =>
    match lastMarker cs with
    | some i => some (i + 1)
    | none => if c = ' ' ∧ cs.head? = some '[' then some 0 else none

/-- The title without the tile's number. -/
def stripMarker (title : String) : String :=
  match lastMarker title.toList with
  | none => title
  | some marker =>
    if 0 < marker ∧ title.toList.getLast? = some ']' then String.ofList (title.toList.take marker)
    else title

/-- The tile that stays when its group is merged. -/
def mergedEntry (cam : CameraEntry) : CameraEntry :=
  { cam with
    title := stripMarker cam.title
    splitCount := 1
    cropRect := ⟨0, 0, 1, 1⟩
    splitGroupId := -1
    splitIndex := 0
    splitDirection := .col }

/-- The loop of `_mergeGroupByIndex` that removes the rows at `positions`, the last one first. -/
def removeRows (s : CameraModel) (positions : List ℕ) : CameraModel :=
  positions.foldr (fun pos s =>
    { s with
      autoSplitAppliedSlotIds :=
        s.autoSplitAppliedSlotIds.erase (s.cameras.getD pos .default).slotId
      cameras := s.cameras.eraseIdx pos }) s

/-- The rows of a split group. -/
def groupIndices (s : CameraModel) (splitGroupId : ℤ) : List ℕ :=
  (List.range s.cameras.length).filter fun i =>
    (s.cameras.getD i .default).splitGroupId = splitGroupId

/-- `_mergeGroupByIndex`. -/
def mergeGroupByIndex (s : CameraModel) (anyTileRowIndex : ℤ) : CameraModel × List CameraSignal :=
  let target := s.cameras.getD anyTileRowIndex.toNat .default
  if ¬ s.IsRow anyTileRowIndex ∨ target.splitCount ≤ 1 ∨ target.splitGroupId < 0 then (s, [])
  else
    match s.groupIndices target.splitGroupId with
    | [] | [_] => (s, [])
    | firstPos :: rest =>
      let s' := (s.removeRows rest).modifyRow firstPos mergedEntry
      (s', s'.slotsSignals)

/-- `_autoSplitForIndex`; `autoSplit` is `Config::autoSplitTileCountForCameraId`. -/
def autoSplitForIndex (autoSplit : String → ℤ) (s : CameraModel) (rowIndex : ℤ) :
    CameraModel × List CameraSignal :=
  let entry := s.cameras.getD rowIndex.toNat .default
  if ¬ s.IsRow rowIndex ∨ entry.isOnline = false ∨ entry.splitCount ≠ 1 ∨
      entry.slotId ∈ s.autoSplitAppliedSlotIds then (s, [])
  else s.splitSlotAtIndex rowIndex (autoSplit entry.cameraId) .col true

def splitSlot (s : CameraModel) (rowIndex tileCount direction : ℤ) :
    CameraModel × List CameraSignal :=
  s.splitSlotAtIndex rowIndex tileCount
    (if direction = 2 then .grid else if direction = 1 then .row else .col) false

def mergeSlots (s : CameraModel) (anyTileRowIndex : ℤ) : CameraModel × List CameraSignal :=
  s.mergeGroupByIndex anyTileRowIndex

def applyAutoSplitForSlot (autoSplit : String → ℤ) (s : CameraModel) (slotId : ℤ) :
    CameraModel × List CameraSignal :=
  match s.indexBySlotId slotId with
  | none => (s, [])
  | some idx => autoSplitForIndex autoSplit s idx

def clearAll (_ : CameraModel) : CameraModel × List CameraSignal := (empty, empty.slotsSignals)

/-- `QHash::insert`: a later value replaces an earlier one. -/
def hashInsert {β : Type} (h : List (String × β)) (key : String) (value : β) : List (String × β) :=
  if key ∈ h.map Prod.fst then h.map fun e => if e.1 = key then (key, value) else e
  else h ++ [(key, value)]

/-- The first loop of `onStoreUpdated`. -/
def snapshotByCid (snapshot : List CameraData) : List (String × CameraData) :=
  snapshot.foldl (fun h cam => if cam.cameraId = "" then h else hashInsert h cam.cameraId cam) []

/-- The update of an existing row. -/
def updateEntry (byCid : List (String × CameraData)) (entry : CameraEntry) : CameraEntry :=
  match byCid.lookup entry.cameraId with
  | none => { entry with isOnline := false }
  | some snap =>
    { entry with
      isOnline := snap.isOnline
      cameraType := snap.cameraType
      title := if entry.splitCount = 1 then snap.title else entry.title }

/-- `cameraOnline` of the update of an existing row. -/
def onlineSignals (byCid : List (String × CameraData)) (entry : CameraEntry) : List CameraSignal :=
  match byCid.lookup entry.cameraId with
  | none => []
  | some snap => if entry.isOnline = false ∧ snap.isOnline = true then [.cameraOnline entry.cameraId] else []

/-- The new row of a stream that has none yet. -/
def newEntry (slotId : ℤ) (cid : String) (snap : CameraData) : CameraEntry :=
  { CameraEntry.default with
    slotId := slotId
    title := snap.title
    cameraId := cid
    isOnline := snap.isOnline
    cameraType := snap.cameraType
    splitCount := 1
    cropRect := ⟨0, 0, 1, 1⟩
    splitGroupId := -1
    splitIndex := 0 }

/-- A row is appended for every listed stream, with the next slot ids. -/
def appendNew (s : CameraModel) (streams : List (String × CameraData)) : CameraModel :=
  streams.foldl (fun s e =>
    { s with
      nextSlotId := s.nextSlotId + 1
      cameras := s.cameras ++ [newEntry s.nextSlotId e.1 e.2] }) s

/-- The rows as the store's snapshot has them, without the automatic splits. -/
def mergeSnapshot (order : HashOrder CameraData) (s : CameraModel)
    (snapshot : List CameraData) : CameraModel :=
  let byCid := snapshotByCid snapshot
  let representedCids := (s.cameras.map CameraEntry.cameraId).filter fun cid =>
    (byCid.lookup cid).isSome
  appendNew { s with cameras := s.cameras.map (updateEntry byCid) }
    ((order.walk byCid).filter fun e => e.1 ∉ representedCids)

/-- The loop over `candidateSlots`. -/
def applyAutoSplits (autoSplit : String → ℤ) (s : CameraModel) (slotIds : List ℤ) :
    CameraModel × List CameraSignal :=
  slotIds.foldl (fun acc slotId =>
    let r := applyAutoSplitForSlot autoSplit acc.1 slotId
    (r.1, acc.2 ++ r.2)) (s, [])

/-- The rows that may be split automatically. -/
def candidateSlots (s : CameraModel) : List ℤ :=
  (s.cameras.filter fun entry => entry.splitCount = 1 ∧ entry.isOnline = true).map
    CameraEntry.slotId

def onStoreUpdated (autoSplit : String → ℤ) (order : HashOrder CameraData) (s : CameraModel)
    (snapshot : List CameraData) : CameraModel × List CameraSignal :=
  let s' := mergeSnapshot order s snapshot
  let r := applyAutoSplits autoSplit s' s'.candidateSlots
  (r.1, s.cameras.flatMap (onlineSignals (snapshotByCid snapshot)) ++ s'.slotsSignals ++ r.2)

def updateSensorInfo (s : CameraModel) (cameraId : String) (info : DeviceInfo) :
    CameraModel × List CameraSignal :=
  ({ s with cameras := s.cameras.map fun cam =>
      if cam.cameraId = cameraId then { cam with deviceInfo := info } else cam },
    if cameraId ∈ s.cameras.map CameraEntry.cameraId then [.sensorDataUpdated cameraId] else [])

/-- The four readings; `none` for the empty object. -/
def sensorInfoForCameraId (s : CameraModel) (cameraId : String) : Option DeviceInfo :=
  (s.cameras.find? fun entry => entry.cameraId = cameraId).map CameraEntry.deviceInfo

/-! ## Runs -/

inductive Op where
  | onStoreUpdated (order : HashOrder CameraData) (snapshot : List CameraData)
  | splitSlot (rowIndex tileCount direction : ℤ)
  | mergeSlots (anyTileRowIndex : ℤ)
  | swapSlots (indexA indexB : ℤ)
  | applyAutoSplitForSlot (slotId : ℤ)
  | setOnline (index : ℤ) (online : Bool)
  | setData (row : ℤ) (edit : EditRole)
  | updateSensorInfo (cameraId : String) (info : DeviceInfo)
  | clearAll

def step (autoSplit : String → ℤ) (s : CameraModel) : Op → CameraModel × List CameraSignal
  | .onStoreUpdated order snapshot => s.onStoreUpdated autoSplit order snapshot
  | .splitSlot rowIndex tileCount direction => s.splitSlot rowIndex tileCount direction
  | .mergeSlots anyTileRowIndex => s.mergeSlots anyTileRowIndex
  | .swapSlots indexA indexB => s.swapSlots indexA indexB
  | .applyAutoSplitForSlot slotId => s.applyAutoSplitForSlot autoSplit slotId
  | .setOnline index online => (s.setOnline index online, [])
  | .setData row edit => (s.setData row edit, [])
  | .updateSensorInfo cameraId info => s.updateSensorInfo cameraId info
  | .clearAll => s.clearAll

end CameraModel

end Models

end AnoMap
