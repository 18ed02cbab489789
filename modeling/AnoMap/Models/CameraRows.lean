import AnoMap.Lib.RowView
import AnoMap.Models.StoreUpdates

/-!
# What the dashboard and the detached windows show

`CameraModel` as a model of the Qt model interface: the cells of its rows, and the row
notifications of every operation. The dashboard's cards go by the notifications alone; a detached
`CameraWindow` asks for its slot again on some of them.

* `data`, `rows`: the cells.
* `rowChanges`: the notifications of an operation, each with the rows at that moment.
* `Sized`: all cards have the size they are made with, which a swap of two rows relies on: it does
  not tell of `cardWidth` and `cardHeight`.
* `announces_step`: what one operation tells says all that it changes.
* **`dashboard_in_sync`**: the cards show the rows, after any run from any moment on.
* `Window`: what a detached window shows.
* **`window_in_sync`**: it shows its slot, after any run, from any moment on.
-/

set_option autoImplicit false

namespace AnoMap

namespace Models

open Domain RowView

namespace CameraModel

/-! ## Cells -/

inductive Role where
  | slotId | title | isOnline | description | cardWidth | cardHeight | cameraType | splitCount
  | cropRect | splitDirection | cameraId
  deriving DecidableEq, Repr

inductive Cell where
  | int (value : ℤ)
  | string (value : String)
  | bool (value : Bool)
  | rect (value : Rect ℚ)
  deriving DecidableEq, Repr

def Cell.asString : Cell → String
  | .string value => value
  | _ => ""

def Cell.asBool : Cell → Bool
  | .bool value => value
  | _ => false

def Cell.asRect : Cell → Rect ℚ
  | .rect value => value
  | _ => ⟨0, 0, 1, 1⟩

/-- `static_cast<int>` of a `SplitDirection`. -/
def directionCode : SplitDirection → ℤ
  | .none => 0
  | .col => 1
  | .row => 2
  | .grid => 3

def data (cam : CameraEntry) : Role → Cell
  | .slotId => .int cam.slotId
  | .title => .string cam.title
  | .isOnline => .bool cam.isOnline
  | .description => .string cam.description
  | .cardWidth => .int cam.width
  | .cardHeight => .int cam.height
  | .cameraType => .string cam.cameraType
  | .splitCount => .int cam.splitCount
  | .cropRect => .rect cam.cropRect
  | .splitDirection => .int (directionCode cam.splitDirection)
  | .cameraId => .string cam.cameraId

def rows (s : CameraModel) : List (Role → Cell) := s.cameras.map data

/-! ## Notifications -/

/-- `emit dataChanged` of one row, in the model `s`. -/
def rowChanged (s : CameraModel) (row : ℕ) (roles : List Role) : Emission Role Cell :=
  ⟨.dataChanged ⟨row, row, roles⟩, s.rows⟩

/-- The roles of which `swapSlots` tells. -/
def allRoles : List Role :=
  [.title, .isOnline, .description, .cameraType, .cropRect, .splitCount, .splitDirection, .cameraId]

def swapSlotsRows (s : CameraModel) (indexA indexB : ℤ) : List (Emission Role Cell) :=
  if s.IsRow indexA ∧ s.IsRow indexB ∧ indexA ≠ indexB then
    let s' := (s.swapSlots indexA indexB).1
    [s'.rowChanged indexA.toNat allRoles, s'.rowChanged indexB.toNat allRoles]
  else []

def setOnlineRows (s : CameraModel) (index : ℤ) (online : Bool) : List (Emission Role Cell) :=
  if s.IsRow index then [(s.setOnline index online).rowChanged index.toNat [.isOnline]] else []

def setDataRows (s : CameraModel) (row : ℤ) (edit : EditRole) : List (Emission Role Cell) :=
  if s.IsRow row then
    match edit with
    | .title _ => [(s.setData row edit).rowChanged row.toNat [.title]]
    | .isOnline _ => [(s.setData row edit).rowChanged row.toNat [.isOnline]]
    | .cameraType _ => [(s.setData row edit).rowChanged row.toNat [.cameraType]]
    | .other => []
  else []

def splitSlotAtIndexRows (s : CameraModel) (rowIndex tileCount : ℤ) (direction : SplitDirection)
    (autoSplit : Bool) : List (Emission Role Cell) :=
  let original := s.cameras.getD rowIndex.toNat .default
  if s.IsRow rowIndex ∧ ValidCount tileCount direction ∧ original.splitCount = 1 ∧
      original.isOnline = true then
    [⟨.rowsRemoved rowIndex.toNat rowIndex.toNat, (s.cameras.eraseIdx rowIndex.toNat).map data⟩,
      ⟨.rowsInserted rowIndex.toNat (rowIndex + tileCount - 1).toNat,
        (s.splitSlotAtIndex rowIndex tileCount direction autoSplit).1.rows⟩]
  else []

/-- The rows at `positions` are removed, the last one first. -/
def removeRowsRows (s : CameraModel) : List ℕ → List (Emission Role Cell)
  | [] => []
  | pos :: positions =>
    s.removeRowsRows positions ++ [⟨.rowsRemoved pos pos, (s.removeRows (pos :: positions)).rows⟩]

def mergeGroupByIndexRows (s : CameraModel) (anyTileRowIndex : ℤ) : List (Emission Role Cell) :=
  let target := s.cameras.getD anyTileRowIndex.toNat .default
  if ¬ s.IsRow anyTileRowIndex ∨ target.splitCount ≤ 1 ∨ target.splitGroupId < 0 then []
  else
    match s.groupIndices target.splitGroupId with
    | [] | [_] => []
    | firstPos :: rest =>
      s.removeRowsRows rest ++
        [((s.removeRows rest).modifyRow firstPos mergedEntry).rowChanged firstPos []]

def autoSplitForIndexRows (autoSplit : String → ℤ) (s : CameraModel) (rowIndex : ℤ) :
    List (Emission Role Cell) :=
  let entry := s.cameras.getD rowIndex.toNat .default
  if ¬ s.IsRow rowIndex ∨ entry.isOnline = false ∨ entry.splitCount ≠ 1 ∨
      entry.slotId ∈ s.autoSplitAppliedSlotIds then []
  else s.splitSlotAtIndexRows rowIndex (autoSplit entry.cameraId) .col true

def applyAutoSplitForSlotRows (autoSplit : String → ℤ) (s : CameraModel) (slotId : ℤ) :
    List (Emission Role Cell) :=
  match s.indexBySlotId slotId with
  | none => []
  | some idx => autoSplitForIndexRows autoSplit s idx

/-- `changedRoles`: the roles in which an existing row differs from the snapshot. -/
def changedRoles (byCid : List (String × CameraData)) (entry : CameraEntry) : List Role :=
  match byCid.lookup entry.cameraId with
  | none => if entry.isOnline then [.isOnline] else []
  | some snap =>
    (if entry.isOnline ≠ snap.isOnline then [.isOnline] else []) ++
      (if entry.cameraType ≠ snap.cameraType then [.cameraType] else []) ++
      (if entry.splitCount = 1 ∧ entry.title ≠ snap.title then [.title] else [])

/-- The loop over the existing rows; those of `done` are updated already. -/
def updateEntriesRows (byCid : List (String × CameraData)) :
    List CameraEntry → List CameraEntry → List (Emission Role Cell)
  | _, [] => []
  | done, entry :: todo =>
    (if changedRoles byCid entry = [] then []
      else [⟨.dataChanged ⟨done.length, done.length, changedRoles byCid entry⟩,
        (done ++ updateEntry byCid entry :: todo).map data⟩]) ++
      updateEntriesRows byCid (done ++ [updateEntry byCid entry]) todo

/-- The loop over `candidateSlots`. -/
def applyAutoSplitsRows (autoSplit : String → ℤ) (s : CameraModel) :
    List ℤ → List (Emission Role Cell)
  | [] => []
  | slotId :: slotIds =>
    applyAutoSplitForSlotRows autoSplit s slotId ++
      applyAutoSplitsRows autoSplit (applyAutoSplitForSlot autoSplit s slotId).1 slotIds

/-- The streams without a row; their rows are told of at once. -/
def newEntriesRows (order : HashOrder CameraData) (s : CameraModel) (snapshot : List CameraData) :
    List (Emission Role Cell) :=
  let byCid := snapshotByCid snapshot
  let representedCids := (s.cameras.map CameraEntry.cameraId).filter fun cid =>
    (byCid.lookup cid).isSome
  let newEntries := (order.walk byCid).filter fun e => e.1 ∉ representedCids
  if newEntries = [] then []
  else
    [⟨.rowsInserted s.cameras.length (s.cameras.length + newEntries.length - 1),
      (mergeSnapshot order s snapshot).rows⟩]

def onStoreUpdatedRows (autoSplit : String → ℤ) (order : HashOrder CameraData) (s : CameraModel)
    (snapshot : List CameraData) : List (Emission Role Cell) :=
  let s' := mergeSnapshot order s snapshot
  updateEntriesRows (snapshotByCid snapshot) [] s.cameras ++ newEntriesRows order s snapshot ++
    applyAutoSplitsRows autoSplit s' s'.candidateSlots

/-- The row notifications of an operation; `updateSensorInfo` has none. -/
def rowChanges (autoSplit : String → ℤ) (s : CameraModel) : Op → List (Emission Role Cell)
  | .onStoreUpdated order snapshot => s.onStoreUpdatedRows autoSplit order snapshot
  | .splitSlot rowIndex tileCount direction =>
    s.splitSlotAtIndexRows rowIndex tileCount
      (if direction = 2 then .grid else if direction = 1 then .row else .col) false
  | .mergeSlots anyTileRowIndex => s.mergeGroupByIndexRows anyTileRowIndex
  | .swapSlots indexA indexB => s.swapSlotsRows indexA indexB
  | .applyAutoSplitForSlot slotId => s.applyAutoSplitForSlotRows autoSplit slotId
  | .setOnline index online => s.setOnlineRows index online
  | .setData row edit => s.setDataRows row edit
  | .updateSensorInfo _ _ => []
  | .clearAll => [⟨.modelReset, s.clearAll.1.rows⟩]

/-- One operation with the notifications it makes. -/
def observed (autoSplit : String → ℤ) (s : CameraModel) (op : Op) :
    CameraModel × List (Emission Role Cell) :=
  ((s.step autoSplit op).1, s.rowChanges autoSplit op)

/-! ## The size of a card -/

def size (cam : CameraEntry) : ℤ × ℤ := (cam.width, cam.height)

/-- All cards have the size they are made with. -/
def Sized (s : CameraModel) : Prop := ∀ cam ∈ s.cameras, size cam = size .default

variable {s : CameraModel}

theorem Sized.of_map (h : s.Sized) {s' : CameraModel}
    (hm : s'.cameras.map size = s.cameras.map size) : s'.Sized := by
  intro cam hc
  have hc' : size cam ∈ s.cameras.map size := hm ▸ List.mem_map_of_mem hc
  obtain ⟨cam', hc', he⟩ := List.mem_map.mp hc'
  rw [← he, h cam' hc']

theorem Sized.modifyRow (h : s.Sized) (row : ℤ) {f : CameraEntry → CameraEntry}
    (hf : ∀ cam, size (f cam) = size cam) : (s.modifyRow row f).Sized :=
  h.of_map (map_modify_of_eq size hf _ _)

theorem Sized.getD (h : s.Sized) (i : ℕ) : size (s.cameras.getD i .default) = size .default := by
  by_cases hi : i < s.cameras.length
  · rw [List.getD_eq_getElem _ _ hi]
    exact h _ (List.getElem_mem hi)
  · rw [List.getD_eq_default _ _ (by omega)]

theorem Sized.swapSlots (h : s.Sized) (indexA indexB : ℤ) : (s.swapSlots indexA indexB).1.Sized := by
  unfold CameraModel.swapSlots
  split_ifs
  · intro cam hc
    obtain hc | rfl := List.mem_or_eq_of_mem_set hc
    · obtain hc | rfl := List.mem_or_eq_of_mem_set hc
      · exact h cam hc
      · exact h.getD indexB.toNat
    · exact h.getD indexA.toNat
  · exact h

theorem Sized.splitSlotAtIndex (h : s.Sized) (rowIndex tileCount : ℤ) (direction : SplitDirection)
    (autoSplit : Bool) : (s.splitSlotAtIndex rowIndex tileCount direction autoSplit).1.Sized := by
  by_cases hc : s.IsRow rowIndex ∧ ValidCount tileCount direction ∧
      (s.cameras.getD rowIndex.toNat .default).splitCount = 1 ∧
      (s.cameras.getD rowIndex.toNat .default).isOnline = true
  · obtain ⟨before, after, -, hs⟩ := s.exists_splitting autoSplit hc.1 hc.2.1 hc.2.2.1 hc.2.2.2
    intro cam hm
    rw [hs.cameras, List.append_assoc, List.mem_append, List.mem_append] at hm
    obtain hm | hm | hm := hm
    · exact h cam (by rw [hs.rows]; simp [hm])
    · obtain ⟨k, -, rfl⟩ := List.mem_map.mp hm
      rfl
    · exact h cam (by rw [hs.rows]; simp [hm])
  · rw [splitSlotAtIndex_of_not autoSplit hc]
    exact h

theorem Sized.mergeGroupByIndex (h : s.Sized) (anyTileRowIndex : ℤ) :
    (s.mergeGroupByIndex anyTileRowIndex).1.Sized := by
  unfold CameraModel.mergeGroupByIndex
  dsimp only
  split_ifs
  · exact h
  split
  · exact h
  · exact h
  · next firstPos rest _ hi =>
    obtain ⟨before, after, first, hrows, hsub, -⟩ := mergeRows_perm s _ hi
    intro cam hc
    rw [hrows, List.mem_append, List.mem_cons] at hc
    obtain hc | rfl | hc := hc
    · exact h cam (hsub.subset (by simp [hc]))
    · exact h first (hsub.subset (by simp))
    · exact h cam (hsub.subset (by simp [hc]))

theorem Sized.applyAutoSplitForSlot (h : s.Sized) (autoSplit : String → ℤ) (slotId : ℤ) :
    (s.applyAutoSplitForSlot autoSplit slotId).1.Sized := by
  unfold CameraModel.applyAutoSplitForSlot
  split
  · exact h
  · unfold CameraModel.autoSplitForIndex
    dsimp only
    split_ifs
    · exact h
    · exact h.splitSlotAtIndex _ _ _ _

theorem size_updateEntry (byCid : List (String × CameraData)) (entry : CameraEntry) :
    size (updateEntry byCid entry) = size entry := by
  unfold updateEntry
  split <;> rfl

theorem Sized.appendNew (h : s.Sized) (streams : List (String × CameraData)) :
    (s.appendNew streams).Sized := by
  unfold CameraModel.appendNew
  induction streams generalizing s with
  | nil => exact h
  | cons e streams ih =>
    apply ih
    intro cam hc
    obtain hc | hc := List.mem_append.mp hc
    · exact h cam hc
    · rw [List.mem_singleton.mp hc]
      rfl

theorem Sized.onStoreUpdated (h : s.Sized) (autoSplit : String → ℤ)
    (order : HashOrder CameraData) (snapshot : List CameraData) :
    (s.onStoreUpdated autoSplit order snapshot).1.Sized := by
  have hu : ({ s with
      cameras := s.cameras.map (updateEntry (snapshotByCid snapshot)) } : CameraModel).Sized :=
    h.of_map (by rw [List.map_map]; exact List.map_congr_left fun cam _ => size_updateEntry _ cam)
  unfold CameraModel.onStoreUpdated
  dsimp only
  rw [applyAutoSplits_eq]
  exact Machine.invariant _ Sized (fun _ => True) (hu.appendNew _)
    (fun t slotId _ ht => ht.applyAutoSplitForSlot autoSplit slotId) _ fun _ _ => trivial

theorem Sized.updateSensorInfo (h : s.Sized) (cameraId : String) (info : DeviceInfo) :
    (s.updateSensorInfo cameraId info).1.Sized := by
  refine h.of_map ?_
  rw [CameraModel.updateSensorInfo, List.map_map]
  refine List.map_congr_left fun cam _ => ?_
  simp only [Function.comp_apply]
  split_ifs <;> rfl

theorem Sized.step (h : s.Sized) (autoSplit : String → ℤ) (op : Op) :
    (s.step autoSplit op).1.Sized := by
  cases op with
  | onStoreUpdated order snapshot => exact h.onStoreUpdated autoSplit order snapshot
  | splitSlot rowIndex tileCount direction => exact h.splitSlotAtIndex _ _ _ _
  | mergeSlots anyTileRowIndex => exact h.mergeGroupByIndex anyTileRowIndex
  | swapSlots indexA indexB => exact h.swapSlots indexA indexB
  | applyAutoSplitForSlot slotId => exact h.applyAutoSplitForSlot autoSplit slotId
  | setOnline index online =>
    unfold CameraModel.step CameraModel.setOnline
    dsimp only
    split_ifs
    · exact h.modifyRow index fun _ => rfl
    · exact h
  | setData row edit =>
    unfold CameraModel.step CameraModel.setData
    dsimp only
    split_ifs
    · cases edit with
      | title value => exact h.modifyRow row fun _ => rfl
      | isOnline value => exact h.modifyRow row fun _ => rfl
      | cameraType value => exact h.modifyRow row fun _ => rfl
      | other => exact h
    · exact h
  | updateSensorInfo cameraId info => exact h.updateSensorInfo cameraId info
  | clearAll => exact fun _ hc => absurd hc List.not_mem_nil

/-! ## One operation -/

/-- What is announced when the rows `cameras` become those of `cameras'`. -/
abbrev Tells (cameras : List CameraEntry) (es : List (Emission Role Cell))
    (cameras' : List CameraEntry) : Prop :=
  Announces Role.slotId (cameras.map data) es (cameras'.map data)

theorem tells_row {cam cam' : CameraEntry} (before after : List CameraEntry) (roles : List Role)
    (hid : cam'.slotId = cam.slotId) (hr : ∀ k, data cam k = data cam' k ∨ roles = [] ∨ k ∈ roles) :
    Tells (before ++ cam :: after)
      [⟨.dataChanged ⟨before.length, before.length, roles⟩, (before ++ cam' :: after).map data⟩]
      (before ++ cam' :: after) := by
  have h : Announces Role.slotId _ _ _ :=
    Announces.update_row (before.map data) (after.map data) roles
      (show data cam' .slotId = data cam .slotId by rw [data, data, hid]) hr
  rw [List.length_map] at h
  rw [Tells, List.map_append, List.map_append, List.map_cons, List.map_cons]
  exact h

theorem tells_modify {cameras : List CameraEntry} {row : ℕ} (hrow : row < cameras.length)
    {f : CameraEntry → CameraEntry} (roles : List Role) (hid : ∀ cam, (f cam).slotId = cam.slotId)
    (hr : ∀ cam k, data cam k = data (f cam) k ∨ roles = [] ∨ k ∈ roles) :
    Tells cameras [⟨.dataChanged ⟨row, row, roles⟩, (cameras.modify row f).map data⟩]
      (cameras.modify row f) := by
  have h := tells_row (cameras.take row) (cameras.drop (row + 1)) roles (hid cameras[row])
    (hr cameras[row])
  rw [List.getElem_cons_drop, List.take_append_drop, List.length_take,
    Nat.min_eq_left hrow.le] at h
  rw [List.modify_eq_take_cons_drop hrow]
  exact h

theorem tells_remove {cameras : List CameraEntry} {pos : ℕ} (hpos : pos < cameras.length) :
    Tells cameras [⟨.rowsRemoved pos pos, (cameras.eraseIdx pos).map data⟩]
      (cameras.eraseIdx pos) := by
  have h : Announces Role.slotId _ _ _ := Announces.remove ((cameras.take pos).map data)
    ([cameras[pos]].map data) ((cameras.drop (pos + 1)).map data) Nat.one_pos
  rw [← List.map_append, ← List.map_append, ← List.map_append, List.append_assoc,
    List.singleton_append, List.getElem_cons_drop, List.take_append_drop, List.length_map,
    List.length_take, Nat.min_eq_left hpos.le, ← List.eraseIdx_eq_take_drop_succ] at h
  exact h

theorem tells_insert (before new after : List CameraEntry) (hn : 0 < new.length) :
    Tells (before ++ after)
      [⟨.rowsInserted before.length (before.length + new.length - 1),
        (before ++ new ++ after).map data⟩] (before ++ new ++ after) := by
  have h : Announces Role.slotId _ _ _ := Announces.insert (before.map data) (new.map data)
    (after.map data) (by rwa [List.length_map])
  rw [List.length_map, List.length_map] at h
  rw [Tells, List.map_append, List.map_append, List.map_append]
  exact h

/-- Of what a swap changes in a row, only the size is not told. -/
theorem data_takeContent {a b : CameraEntry} (h : size a = size b) (k : Role) :
    data a k = data (takeContent a b) k ∨ k ∈ allRoles := by
  obtain ⟨hw, hh⟩ := Prod.ext_iff.mp h
  cases k with
  | slotId => exact Or.inl rfl
  | cardWidth => exact Or.inl (congrArg Cell.int hw)
  | cardHeight => exact Or.inl (congrArg Cell.int hh)
  | _ => right; decide

theorem Sized.tells_swapSlots (h : s.Sized) (indexA indexB : ℤ) :
    Tells s.cameras (s.swapSlotsRows indexA indexB) (s.swapSlots indexA indexB).1.cameras := by
  by_cases hr : s.IsRow indexA ∧ s.IsRow indexB ∧ indexA ≠ indexB
  · have hrows : (s.swapSlots indexA indexB).1.cameras =
        (s.cameras.set indexA.toNat (takeContent (s.cameras.getD indexA.toNat .default)
          (s.cameras.getD indexB.toNat .default))).set indexB.toNat
            (takeContent (s.cameras.getD indexB.toNat .default)
              (s.cameras.getD indexA.toNat .default)) := by
      unfold CameraModel.swapSlots
      rw [if_pos hr]
    have hes : s.swapSlotsRows indexA indexB = [⟨indexA.toNat, indexA.toNat, allRoles⟩,
        ⟨indexB.toNat, indexB.toNat, allRoles⟩].map fun c =>
          ⟨.dataChanged c, (s.swapSlots indexA indexB).1.cameras.map data⟩ := if_pos hr
    have hsize : size (s.cameras.getD indexA.toNat .default) =
        size (s.cameras.getD indexB.toNat .default) := by
      rw [h.getD, h.getD]
    rw [hes, hrows]
    obtain ⟨⟨ha0, ha⟩, ⟨hb0, hb⟩, hab⟩ := hr
    refine Announces.update _ ?_ ?_ fun i hi hi' k => ?_
    · refine List.ext_getElem (by simp) fun i hi hi' => ?_
      simp only [List.getElem_map, List.getElem_set]
      split_ifs with h₁ h₂
      · subst h₁
        rw [List.getD_eq_getElem _ _ (by omega)]
        rfl
      · subst h₂
        rw [List.getD_eq_getElem _ _ (by omega)]
        rfl
      · rfl
    · simp only [List.length_map, List.mem_cons, List.not_mem_nil, or_false, forall_eq_or_imp,
        forall_eq]
      omega
    · rw [List.length_map] at hi
      simp only [List.getElem_map, List.getElem_set]
      split_ifs with h₁ h₂
      · subst h₁
        rw [← List.getD_eq_getElem _ .default hi]
        obtain he | hk := data_takeContent hsize.symm k
        · exact Or.inl he
        · exact Or.inr ⟨_, List.mem_cons_of_mem _ List.mem_cons_self, ⟨le_refl _, le_refl _⟩,
            Or.inr hk⟩
      · subst h₂
        rw [← List.getD_eq_getElem _ .default hi]
        obtain he | hk := data_takeContent hsize k
        · exact Or.inl he
        · exact Or.inr ⟨_, List.mem_cons_self, ⟨le_refl _, le_refl _⟩, Or.inr hk⟩
      · exact Or.inl rfl
  · unfold CameraModel.swapSlotsRows CameraModel.swapSlots
    rw [if_neg hr, if_neg hr]
    exact Announces.refl _

theorem tells_setOnline (s : CameraModel) (index : ℤ) (online : Bool) :
    Tells s.cameras (s.setOnlineRows index online) (s.setOnline index online).cameras := by
  unfold CameraModel.setOnlineRows CameraModel.setOnline
  split_ifs with hr
  · obtain ⟨h0, hl⟩ := hr
    refine tells_modify (by omega) _ (fun _ => rfl) fun cam k => ?_
    cases k with
    | isOnline => exact Or.inr (Or.inr List.mem_cons_self)
    | _ => exact Or.inl rfl
  · exact Announces.refl _

theorem tells_setData (s : CameraModel) (row : ℤ) (edit : EditRole) :
    Tells s.cameras (s.setDataRows row edit) (s.setData row edit).cameras := by
  unfold CameraModel.setDataRows CameraModel.setData
  split_ifs with hr
  · have hl : row.toNat < s.cameras.length := by
      have := hr.1
      have := hr.2
      omega
    cases edit with
    | title value =>
      refine tells_modify hl _ (fun _ => rfl) fun cam k => ?_
      cases k with
      | title => exact Or.inr (Or.inr List.mem_cons_self)
      | _ => exact Or.inl rfl
    | isOnline value =>
      refine tells_modify hl _ (fun _ => rfl) fun cam k => ?_
      cases k with
      | isOnline => exact Or.inr (Or.inr List.mem_cons_self)
      | _ => exact Or.inl rfl
    | cameraType value =>
      refine tells_modify hl _ (fun _ => rfl) fun cam k => ?_
      cases k with
      | cameraType => exact Or.inr (Or.inr List.mem_cons_self)
      | _ => exact Or.inl rfl
    | other => exact Announces.refl _
  · exact Announces.refl _

theorem tells_splitSlotAtIndex (s : CameraModel) (rowIndex tileCount : ℤ)
    (direction : SplitDirection) (autoSplit : Bool) :
    Tells s.cameras (s.splitSlotAtIndexRows rowIndex tileCount direction autoSplit)
      (s.splitSlotAtIndex rowIndex tileCount direction autoSplit).1.cameras := by
  unfold CameraModel.splitSlotAtIndexRows
  dsimp only
  split_ifs with hc
  · obtain ⟨before, after, hb, hs⟩ := s.exists_splitting autoSplit hc.1 hc.2.1 hc.2.2.1 hc.2.2.2
    have hn := two_le_of_validCount hc.2.1
    have hr := hc.1.1
    have hl := hc.1.2
    have hrest : s.cameras.eraseIdx rowIndex.toNat = before ++ after := by
      rw [← hb, hs.rows, List.eraseIdx_append_of_length_le (le_refl _), Nat.sub_self]
      rfl
    have hlen : (s.tilesOf (s.cameras.getD rowIndex.toNat .default) tileCount direction).length =
        tileCount.toNat := by
      simp [tilesOf, newTiles]
    have hlast : (rowIndex + tileCount - 1).toNat = before.length +
        (s.tilesOf (s.cameras.getD rowIndex.toNat .default) tileCount direction).length - 1 := by
      omega
    have h1 : Tells s.cameras _ (s.cameras.eraseIdx rowIndex.toNat) := tells_remove (by omega)
    have h2 := tells_insert before
      (s.tilesOf (s.cameras.getD rowIndex.toNat .default) tileCount direction) after (by omega)
    rw [← hs.cameras, ← hlast, ← hrest, hb] at h2
    exact h1.trans h2
  · rw [splitSlotAtIndex_of_not autoSplit hc]
    exact Announces.refl _

theorem tells_removeRows (s : CameraModel) {positions : List ℕ}
    (hsorted : positions.Pairwise (· < ·)) (hlt : ∀ p ∈ positions, p < s.cameras.length) :
    Tells s.cameras (s.removeRowsRows positions) (s.removeRows positions).cameras := by
  induction positions with
  | nil => exact Announces.refl _
  | cons pos positions ih =>
    obtain ⟨hp, hps⟩ := List.pairwise_cons.mp hsorted
    have hlt' := fun q hq => hlt q (List.mem_cons_of_mem pos hq)
    -- the rows up to `pos` are still where they were
    have hkeep := (removeRows_perm positions s hps hlt').2.1 pos hp
    rw [List.getElem?_eq_getElem (hlt pos List.mem_cons_self)] at hkeep
    obtain ⟨hpos, -⟩ := List.getElem?_eq_some_iff.mp hkeep
    exact (ih hps hlt').trans (tells_remove hpos)

theorem slotId_mergedEntry (cam : CameraEntry) : (mergedEntry cam).slotId = cam.slotId := rfl

theorem tells_mergeGroupByIndex (s : CameraModel) (anyTileRowIndex : ℤ) :
    Tells s.cameras (s.mergeGroupByIndexRows anyTileRowIndex)
      (s.mergeGroupByIndex anyTileRowIndex).1.cameras := by
  unfold CameraModel.mergeGroupByIndexRows CameraModel.mergeGroupByIndex
  dsimp only
  split_ifs
  · exact Announces.refl _
  generalize (s.cameras.getD anyTileRowIndex.toNat .default).splitGroupId = g
  have hsorted := groupIndices_sorted s g
  have hlt : ∀ p ∈ s.groupIndices g, p < s.cameras.length := fun p hp => groupIndices_lt s g hp
  cases hi : s.groupIndices g with
  | nil => exact Announces.refl _
  | cons firstPos rest =>
    cases rest with
    | nil => exact Announces.refl _
    | cons pos rest =>
      rw [hi] at hsorted hlt
      obtain ⟨hfirst, hrest⟩ := List.pairwise_cons.mp hsorted
      have hlt' := fun q hq => hlt q (List.mem_cons_of_mem firstPos hq)
      have hkeep := (removeRows_perm (pos :: rest) s hrest hlt').2.1 firstPos hfirst
      rw [List.getElem?_eq_getElem (hlt firstPos List.mem_cons_self)] at hkeep
      obtain ⟨hpos, -⟩ := List.getElem?_eq_some_iff.mp hkeep
      exact (tells_removeRows s hrest hlt').trans
        (tells_modify hpos [] slotId_mergedEntry fun _ _ => Or.inr (Or.inl rfl))

theorem tells_applyAutoSplitForSlot (autoSplit : String → ℤ) (s : CameraModel) (slotId : ℤ) :
    Tells s.cameras (s.applyAutoSplitForSlotRows autoSplit slotId)
      (s.applyAutoSplitForSlot autoSplit slotId).1.cameras := by
  unfold CameraModel.applyAutoSplitForSlotRows CameraModel.applyAutoSplitForSlot
  cases s.indexBySlotId slotId with
  | none => exact Announces.refl _
  | some idx =>
    dsimp only
    unfold CameraModel.autoSplitForIndexRows CameraModel.autoSplitForIndex
    dsimp only
    split_ifs
    · exact Announces.refl _
    · exact tells_splitSlotAtIndex s _ _ _ _

theorem tells_applyAutoSplits (autoSplit : String → ℤ) (s : CameraModel) (slotIds : List ℤ) :
    Tells s.cameras (s.applyAutoSplitsRows autoSplit slotIds)
      (s.applyAutoSplits autoSplit slotIds).1.cameras := by
  rw [applyAutoSplits_eq]
  induction slotIds generalizing s with
  | nil => exact Announces.refl _
  | cons slotId slotIds ih => exact (tells_applyAutoSplitForSlot autoSplit s slotId).trans (ih _)

/-- A row differs from the snapshot in the roles that are told, and in no other. -/
theorem data_updateEntry (byCid : List (String × CameraData)) (entry : CameraEntry) (k : Role) :
    data entry k = data (updateEntry byCid entry) k ∨ k ∈ changedRoles byCid entry := by
  unfold updateEntry changedRoles
  cases byCid.lookup entry.cameraId with
  | none =>
    cases k with
    | isOnline => cases h : entry.isOnline <;> simp [data, h]
    | _ => exact Or.inl rfl
  | some snap =>
    cases k with
    | isOnline => by_cases h : entry.isOnline = snap.isOnline <;> simp [data, h]
    | cameraType => by_cases h : entry.cameraType = snap.cameraType <;> simp [data, h]
    | title =>
      by_cases h₁ : entry.splitCount = 1
      · by_cases h₂ : entry.title = snap.title <;> simp [data, h₁, h₂]
      · simp [data, h₁]
    | _ => exact Or.inl rfl

theorem tells_updateEntries (byCid : List (String × CameraData)) (done todo : List CameraEntry) :
    Tells (done ++ todo) (updateEntriesRows byCid done todo)
      (done ++ todo.map (updateEntry byCid)) := by
  induction todo generalizing done with
  | nil => exact Announces.refl _
  | cons entry todo ih =>
    have hone : Tells (done ++ entry :: todo)
        (if changedRoles byCid entry = [] then []
          else [⟨.dataChanged ⟨done.length, done.length, changedRoles byCid entry⟩,
            (done ++ updateEntry byCid entry :: todo).map data⟩])
        (done ++ updateEntry byCid entry :: todo) := by
      split_ifs with hnone
      · have hsame : data entry = data (updateEntry byCid entry) := funext fun k =>
          (data_updateEntry byCid entry k).resolve_right fun hk =>
            absurd (hnone ▸ hk) List.not_mem_nil
        unfold Tells
        rw [List.map_append, List.map_append, List.map_cons, List.map_cons, hsame]
        exact Announces.refl _
      · exact tells_row done todo _ (by unfold updateEntry; split <;> rfl) fun k =>
          (data_updateEntry byCid entry k).imp id Or.inr
    have hrest := ih (done ++ [updateEntry byCid entry])
    rw [List.append_assoc, List.append_assoc] at hrest
    exact hone.trans hrest

theorem appendNew_eq (s : CameraModel) (streams : List (String × CameraData)) :
    ∃ new : List CameraEntry, new.length = streams.length ∧
      (s.appendNew streams).cameras = s.cameras ++ new := by
  unfold CameraModel.appendNew
  induction streams generalizing s with
  | nil => exact ⟨[], rfl, (List.append_nil _).symm⟩
  | cons e streams ih =>
    obtain ⟨new, hl, heq⟩ := ih { s with
      nextSlotId := s.nextSlotId + 1
      cameras := s.cameras ++ [newEntry s.nextSlotId e.1 e.2] }
    refine ⟨newEntry s.nextSlotId e.1 e.2 :: new, by rw [List.length_cons, List.length_cons, hl], ?_⟩
    rw [List.foldl_cons, heq, List.append_assoc]
    rfl

theorem tells_mergeSnapshot (order : HashOrder CameraData) (s : CameraModel)
    (snapshot : List CameraData) :
    Tells s.cameras
      (updateEntriesRows (snapshotByCid snapshot) [] s.cameras ++ newEntriesRows order s snapshot)
      (mergeSnapshot order s snapshot).cameras := by
  refine (tells_updateEntries (snapshotByCid snapshot) [] s.cameras).trans ?_
  have hlen : (s.cameras.map (updateEntry (snapshotByCid snapshot))).length = s.cameras.length :=
    List.length_map _
  unfold newEntriesRows
  dsimp only
  split_ifs with hnone
  · unfold mergeSnapshot
    dsimp only
    rw [hnone]
    exact Announces.refl _
  · obtain ⟨new, hl, heq⟩ := appendNew_eq
      { s with cameras := s.cameras.map (updateEntry (snapshotByCid snapshot)) }
      ((order.walk (snapshotByCid snapshot)).filter fun e => e.1 ∉
        (s.cameras.map CameraEntry.cameraId).filter fun cid =>
          ((snapshotByCid snapshot).lookup cid).isSome)
    have hpos : 0 < new.length := by
      rw [hl]
      exact List.length_pos_iff.mpr hnone
    have h := tells_insert (s.cameras.map (updateEntry (snapshotByCid snapshot))) new [] hpos
    rw [List.append_nil, List.append_nil, ← heq, hlen, hl] at h
    exact h

/-- **What an operation tells** says all that it changes. -/
theorem announces_step (h : s.Sized) (autoSplit : String → ℤ) (op : Op) :
    Announces Role.slotId s.rows (s.rowChanges autoSplit op) (s.step autoSplit op).1.rows := by
  cases op with
  | onStoreUpdated order snapshot =>
    exact (tells_mergeSnapshot order s snapshot).trans (tells_applyAutoSplits autoSplit _ _)
  | splitSlot rowIndex tileCount direction => exact tells_splitSlotAtIndex s _ _ _ _
  | mergeSlots anyTileRowIndex => exact tells_mergeGroupByIndex s anyTileRowIndex
  | swapSlots indexA indexB => exact h.tells_swapSlots indexA indexB
  | applyAutoSplitForSlot slotId => exact tells_applyAutoSplitForSlot autoSplit s slotId
  | setOnline index online => exact tells_setOnline s index online
  | setData row edit => exact tells_setData s row edit
  | updateSensorInfo cameraId info =>
    have hsame : (s.updateSensorInfo cameraId info).1.rows = s.rows := by
      unfold CameraModel.updateSensorInfo rows
      rw [List.map_map]
      refine List.map_congr_left fun cam _ => ?_
      simp only [Function.comp_apply]
      split_ifs
      · funext k
        cases k <;> rfl
      · rfl
    rw [step, hsame]
    exact Announces.refl _
  | clearAll => exact Announces.reset _ _

/-! ## Runs -/

theorem sized_final (autoSplit : String → ℤ) (ops : List Op) :
    (Machine.final (observed autoSplit) empty ops).Sized :=
  Machine.invariant _ Sized (fun _ => True) (fun _ hc => absurd hc List.not_mem_nil)
    (fun _ op _ h => h.step autoSplit op) ops fun _ _ => trivial

theorem announces_run (autoSplit : String → ℤ) (pre ops : List Op) :
    Announces Role.slotId (Machine.final (observed autoSplit) empty pre).rows
      (Machine.outputs (observed autoSplit) (Machine.final (observed autoSplit) empty pre) ops)
      (Machine.final (observed autoSplit) empty (pre ++ ops)).rows := by
  rw [Machine.final_append]
  exact Announces.run (observed autoSplit) rows
    (fun t op h => ⟨h.step autoSplit op, announces_step h autoSplit op⟩)
    (sized_final autoSplit pre) ops

/-- **The dashboard is in sync.** Cards that show the rows at any moment of a run can follow all row
notifications from then on, and show the rows ever after. -/
theorem dashboard_in_sync (autoSplit : String → ℤ) (pre ops : List Op) :
    replay (Machine.final (observed autoSplit) empty pre).rows
        (Machine.outputs (observed autoSplit) (Machine.final (observed autoSplit) empty pre) ops) =
      some (Machine.final (observed autoSplit) empty (pre ++ ops)).rows :=
  (announces_run autoSplit pre ops).replay_eq

/-! ## Detached windows -/

def hasSlot (s : CameraModel) (slotId : ℤ) : Bool := (s.indexBySlotId slotId).isSome

def entryForSlot (s : CameraModel) (slotId : ℤ) : Option CameraEntry :=
  (s.indexBySlotId slotId).bind fun idx => s.cameras[idx]?

def titleForSlot (s : CameraModel) (slotId : ℤ) : String :=
  match s.entryForSlot slotId with
  | none => ""
  | some cam => cam.title

def cameraIdForSlot (s : CameraModel) (slotId : ℤ) : String :=
  match s.entryForSlot slotId with
  | none => ""
  | some cam => cam.cameraId

def isOnlineForSlot (s : CameraModel) (slotId : ℤ) : Bool :=
  match s.entryForSlot slotId with
  | none => false
  | some cam => cam.isOnline

def cropRectForSlot (s : CameraModel) (slotId : ℤ) : Rect ℚ :=
  match s.entryForSlot slotId with
  | none => ⟨0, 0, 1, 1⟩
  | some cam => cam.cropRect

/-- The properties that a `CameraWindow` is opened with. -/
structure Window where
  sourceSlotId : ℤ
  sourceTitle : String
  sourceCameraId : String
  sourceOnline : Bool
  sourceCropRect : Rect ℚ
  deriving DecidableEq, Repr

/-- The values of the bindings of a `CameraWindow`. -/
structure Shown where
  title : String
  cameraId : String
  isOnline : Bool
  cropRect : Rect ℚ
  deriving DecidableEq, Repr

namespace Window

/-- The bindings, evaluated on the model. -/
def shown (w : Window) (s : CameraModel) : Shown :=
  if w.sourceSlotId < 0 ∨ s.hasSlot w.sourceSlotId = false then
    ⟨w.sourceTitle, w.sourceCameraId, w.sourceOnline, w.sourceCropRect⟩
  else
    let t := s.titleForSlot w.sourceSlotId
    let u := s.cameraIdForSlot w.sourceSlotId
    ⟨if t = "" then w.sourceTitle else t, if u = "" then w.sourceCameraId else u,
      s.isOnlineForSlot w.sourceSlotId, s.cropRectForSlot w.sourceSlotId⟩

/-- The bindings on the cells of the slot's row. -/
def shownRow (w : Window) : Option (Role → Cell) → Shown
  | none => ⟨w.sourceTitle, w.sourceCameraId, w.sourceOnline, w.sourceCropRect⟩
  | some row =>
    if w.sourceSlotId < 0 then
      ⟨w.sourceTitle, w.sourceCameraId, w.sourceOnline, w.sourceCropRect⟩
    else
      let t := (row .title).asString
      let u := (row .cameraId).asString
      ⟨if t = "" then w.sourceTitle else t, if u = "" then w.sourceCameraId else u,
        (row .isOnline).asBool, (row .cropRect).asRect⟩

/-- `updateTrigger`: the bindings are evaluated again when rows come or go, when the model is reset
and when the row of the slot is changed. -/
def follow (w : Window) (shown : Shown) (e : Emission Role Cell) : Shown :=
  watch Role.slotId (.int w.sourceSlotId) w.shownRow shown e

end Window

theorem rowWith_rows (s : CameraModel) (slotId : ℤ) :
    rowWith Role.slotId (.int slotId) s.rows = (s.entryForSlot slotId).map data := by
  have hidx : indexWith Role.slotId (.int slotId) s.rows = s.indexBySlotId slotId := by
    rw [indexWith, rows, List.findIdx?_map, indexBySlotId]
    congr 1
    funext cam
    simp [data]
  rw [rowWith_eq, hidx, entryForSlot, Option.map_bind]
  refine Option.bind_congr fun idx _ => ?_
  rw [rows, List.getElem?_map, Function.comp_apply]

theorem Window.shown_eq (w : Window) (s : CameraModel) :
    w.shown s = w.shownRow (rowWith Role.slotId (.int w.sourceSlotId) s.rows) := by
  rw [rowWith_rows]
  unfold Window.shown
  cases he : s.entryForSlot w.sourceSlotId with
  | none =>
    have hn : s.hasSlot w.sourceSlotId = false := by
      unfold entryForSlot at he
      unfold hasSlot
      cases hi : s.indexBySlotId w.sourceSlotId with
      | none => rfl
      | some idx =>
        rw [hi, Option.bind_some, List.getElem?_eq_none_iff] at he
        obtain ⟨hlt, -⟩ := List.findIdx?_eq_some_iff_getElem.mp hi
        omega
    rw [if_pos (Or.inr hn)]
    rfl
  | some cam =>
    have hs : s.hasSlot w.sourceSlotId = true := by
      unfold entryForSlot at he
      unfold hasSlot
      cases hi : s.indexBySlotId w.sourceSlotId with
      | none => rw [hi] at he; cases he
      | some idx => rfl
    simp only [hs, Bool.true_eq_false, or_false, titleForSlot, cameraIdForSlot, isOnlineForSlot,
      cropRectForSlot, he]
    rfl

/-- **A detached window is in sync.** Opened at any moment of a run, it shows its slot ever after,
although it looks again on some notifications only. -/
theorem window_in_sync (autoSplit : String → ℤ) (pre ops : List Op) (w : Window) :
    (Machine.outputs (observed autoSplit) (Machine.final (observed autoSplit) empty pre) ops).foldl
        w.follow (w.shown (Machine.final (observed autoSplit) empty pre)) =
      w.shown (Machine.final (observed autoSplit) empty (pre ++ ops)) := by
  rw [w.shown_eq, w.shown_eq]
  exact (announces_run autoSplit pre ops).watch_eq _ _

end CameraModel

end Models

end AnoMap
