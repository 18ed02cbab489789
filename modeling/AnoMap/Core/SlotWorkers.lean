import AnoMap.Core.StreamUrls
import AnoMap.Services.VideoStream

/-!
# Slots and workers

The camera model and the video manager, as they run on the GUI thread: every operation of the model
with the signals it sends to the manager, and the logout that clears both.

* `Wall`, `step`: the two, and one operation.
* `Registers`: the ids that an operation's signals name, against those of the rows; one lemma for
  each operation.
* `Attached`: every card's slot leads to the worker of its camera, and the workers are those of the
  cameras on the dashboard.
* **`slots_have_workers`**: so it is after every run, whatever the providers answer.
-/

set_option autoImplicit false

namespace AnoMap

open Domain Models Services

/-- The camera model and the video manager. -/
structure Wall where
  model : CameraModel
  manager : VideoManager

namespace Wall

def init : Wall := ⟨.empty, .empty⟩

/-- One operation, with what the providers answer at that time, and the workers registered.
`clearAll` stands for the logout, which clears the manager first. -/
def step (autoSplit : String → ℤ) (w : Wall) (e : Providers × CameraModel.Op) :
    Wall × List String :=
  let r := w.model.step autoSplit e.2
  let manager :=
    match e.2 with
    | .clearAll => w.manager.clearAll
    | _ => w.manager
  let v := manager.onSignals e.1 r.2
  (⟨r.1, v.1⟩, v.2)

/-- **The slots lead to workers.** -/
structure Attached (w : Wall) : Prop where
  /-- The slot of a card leads to the worker of its camera. -/
  card : ∀ cam ∈ w.model.cameras, w.manager.getWorkerBySlot cam.slotId = some cam.cameraId
  /-- A slot without a card leads to none. -/
  noCard : ∀ slotId, (∀ cam ∈ w.model.cameras, cam.slotId ≠ slotId) →
    w.manager.getWorkerBySlot slotId = none
  /-- The workers are those of the cameras that have a card. -/
  camera : ∀ id, id ∈ w.manager.workers ↔ ∃ cam ∈ w.model.cameras, cam.cameraId = id
  /-- Every worker with a URL streams it. -/
  streams : ∀ id wk, w.manager.workers.get? id = some wk →
    wk.streaming = if wk.connectionString = "" then none else some wk.connectionString

end Wall

/-! ## The manager -/

namespace Services

namespace VideoManager

theorem mem_onSignal (p : Providers) (m : VideoManager) (signal : CameraSignal) (id : String) :
    id ∈ (m.onSignal p signal).1.workers ↔ id ∈ m.workers ∨ Names signal id ∧ id ≠ "" := by
  cases signal with
  | slotsUpdated slots => exact mem_registerCameraIds p _ _ id
  | cameraIdsUpdated cameraIds => exact mem_registerCameraIds p m cameraIds id
  | sensorDataUpdated cameraId =>
    exact (or_iff_left fun h : Names (.sensorDataUpdated cameraId) id ∧ _ => h.1).symm
  | cameraOnline cameraId =>
    show id ∈ (restartWorker p m cameraId).1.workers ↔ id ∈ m.workers ∨ id = cameraId ∧ id ≠ ""
    obtain ⟨rfl, -, heq⟩ | ⟨hmem, w, heq⟩ := restartWorker_cases p m cameraId
    · rw [heq]
      exact (or_iff_left fun h => h.2 h.1).symm
    · rw [heq, KeyMap.mem_set]
      by_cases hid : id = cameraId
      · subst hid
        by_cases he : id = ""
        · exact iff_of_true (Or.inl rfl) (Or.inl (hmem he))
        · exact iff_of_true (Or.inl rfl) (Or.inr ⟨rfl, he⟩)
      · simp [hid]

theorem mem_onSignals (p : Providers) (m : VideoManager) (signals : List CameraSignal)
    (id : String) : id ∈ (m.onSignals p signals).1.workers ↔
      id ∈ m.workers ∨ (∃ signal ∈ signals, Names signal id) ∧ id ≠ "" := by
  rw [onSignals_eq]
  induction signals generalizing m with
  | nil => simp
  | cons signal signals ih =>
    rw [Machine.final_cons, ih, mem_onSignal]
    simp only [List.mem_cons, exists_eq_or_imp]
    tauto

/-- Every worker with a URL streams it. -/
def Streaming (m : VideoManager) : Prop := ∀ id wk, m.workers.get? id = some wk →
  wk.streaming = if wk.connectionString = "" then none else some wk.connectionString

theorem streaming_empty : empty.Streaming := by
  intro id wk h
  cases h

theorem streaming_configure (p : Providers) (cameraId : String) {w : VideoWorker}
    (h : w.streaming = none) : (configure p cameraId w).streaming =
      if (configure p cameraId w).connectionString = "" then none
      else some (configure p cameraId w).connectionString := by
  rw [connectionString_configure]
  unfold configure VideoWorker.startStream
  dsimp only
  split_ifs
  · exact h
  · rfl

theorem Streaming.set {m : VideoManager} (h : m.Streaming) (p : Providers) (cameraId : String)
    {w : VideoWorker} (hw : w.streaming = none) (slots : KeyMap ℤ String) :
    Streaming ⟨m.workers.set cameraId (configure p cameraId w), slots⟩ := by
  intro id wk hid
  dsimp only at hid
  rw [KeyMap.get?_set] at hid
  split_ifs at hid
  · rw [← Option.some.inj hid]
    exact streaming_configure p cameraId hw
  · exact h id wk hid

theorem Streaming.addWorker {m : VideoManager} (h : m.Streaming) (p : Providers)
    (cameraId : String) : (addWorker p m cameraId).1.Streaming := by
  obtain ⟨-, heq⟩ | ⟨-, -, heq⟩ := addWorker_cases p m cameraId
  · rw [heq]
    exact h
  · rw [heq]
    exact h.set p cameraId rfl _

theorem Streaming.registerCameraIds {m : VideoManager} (h : m.Streaming) (p : Providers)
    (cameraIds : List String) : (registerCameraIds p m cameraIds).1.Streaming := by
  rw [registerCameraIds_eq]
  exact Machine.invariant _ Streaming (fun _ => True) h (fun _ id _ ht => ht.addWorker p id)
    cameraIds fun _ _ => trivial

theorem Streaming.onSignal {m : VideoManager} (h : m.Streaming) (p : Providers)
    (signal : CameraSignal) : (m.onSignal p signal).1.Streaming := by
  cases signal with
  | slotsUpdated slots =>
    have h' : Streaming { m with slotToCameraId := slotMap slots } := h
    exact h'.registerCameraIds p _
  | cameraIdsUpdated cameraIds => exact h.registerCameraIds p cameraIds
  | sensorDataUpdated cameraId => exact h
  | cameraOnline cameraId =>
    show (restartWorker p m cameraId).1.Streaming
    unfold restartWorker
    split
    · exact h.set p cameraId rfl _
    · exact h.addWorker p cameraId

theorem Streaming.onSignals {m : VideoManager} (h : m.Streaming) (p : Providers)
    (signals : List CameraSignal) : (m.onSignals p signals).1.Streaming := by
  rw [onSignals_eq]
  exact Machine.invariant _ Streaming (fun _ => True) h (fun _ signal _ ht => ht.onSignal p signal)
    signals fun _ _ => trivial

end VideoManager

end Services

/-! ## The ids that an operation names -/

namespace Models

namespace CameraModel

open VideoManager (Names)

/-- The camera has a card. -/
def HasCard (s : CameraModel) (id : String) : Prop := ∃ cam ∈ s.cameras, cam.cameraId = id

theorem hasCard_iff {s : CameraModel} {id : String} :
    s.HasCard id ↔ id ∈ s.cameras.map CameraEntry.cameraId := List.mem_map.symm

/-- From `s` to `s'` no camera loses its cards, and `signals` name the cameras that get one. -/
structure Registers (s s' : CameraModel) (signals : List CameraSignal) : Prop where
  named : ∀ id, (∃ signal ∈ signals, Names signal id) → s'.HasCard id
  kept : ∀ id, s.HasCard id → s'.HasCard id
  added : ∀ id, s'.HasCard id → s.HasCard id ∨ ∃ signal ∈ signals, Names signal id

variable {s s' s'' : CameraModel} {signals signals' : List CameraSignal}

theorem registers_of_cameraIds
    (h : s'.cameras.map CameraEntry.cameraId = s.cameras.map CameraEntry.cameraId)
    (hn : ∀ signal ∈ signals, ∀ id, ¬ Names signal id) : Registers s s' signals where
  named := by
    rintro id ⟨signal, hs, hname⟩
    exact absurd hname (hn signal hs id)
  kept id hid := by
    rw [hasCard_iff] at hid ⊢
    rwa [h]
  added id hid := by
    rw [hasCard_iff] at hid ⊢
    exact Or.inl (h ▸ hid)

theorem Registers.refl (s : CameraModel) : Registers s s [] :=
  registers_of_cameraIds rfl fun _ h => absurd h List.not_mem_nil

theorem Registers.trans (h : Registers s s' signals) (h' : Registers s' s'' signals') :
    Registers s s'' (signals ++ signals') where
  named := by
    rintro id ⟨signal, hs, hn⟩
    obtain hs | hs := List.mem_append.mp hs
    · exact h'.kept id (h.named id ⟨signal, hs, hn⟩)
    · exact h'.named id ⟨signal, hs, hn⟩
  kept id hid := h'.kept id (h.kept id hid)
  added id hid := by
    obtain hid | ⟨signal, hs, hn⟩ := h'.added id hid
    · obtain hid | ⟨signal, hs, hn⟩ := h.added id hid
      · exact Or.inl hid
      · exact Or.inr ⟨signal, List.mem_append_left _ hs, hn⟩
    · exact Or.inr ⟨signal, List.mem_append_right _ hs, hn⟩

theorem mem_cameraIds_of_mem {s : CameraModel} {id : String} (h : id ∈ s.cameraIds) :
    s.HasCard id := by
  have hfold : ∀ (rows : List CameraEntry) (acc : List String),
      id ∈ rows.foldl (fun (acc : List String) cam =>
        if cam.cameraId ≠ "" ∧ cam.cameraId ∉ acc then acc ++ [cam.cameraId] else acc) acc →
      id ∈ acc ∨ ∃ cam ∈ rows, cam.cameraId = id := by
    intro rows
    induction rows with
    | nil => exact fun acc h => Or.inl h
    | cons cam rows ih =>
      intro acc h
      obtain h | ⟨cam', hc, rfl⟩ := ih _ h
      · dsimp only at h
        split_ifs at h
        · obtain h | h := List.mem_append.mp h
          · exact Or.inl h
          · exact Or.inr ⟨cam, List.mem_cons_self, (List.mem_singleton.mp h).symm⟩
        · exact Or.inl h
      · exact Or.inr ⟨cam', List.mem_cons_of_mem cam hc, rfl⟩
  exact (hfold s.cameras [] h).resolve_left List.not_mem_nil

theorem names_slotsSignals {s : CameraModel} {id : String} :
    (∃ signal ∈ s.slotsSignals, Names signal id) ↔ s.HasCard id := by
  constructor
  · rintro ⟨signal, hs, hn⟩
    obtain rfl | hs := List.mem_cons.mp hs
    · have hn : id ∈ (s.cameras.map fun cam => SlotInfo.mk cam.slotId cam.cameraId).map
          SlotInfo.cameraId := hn
      rw [List.map_map] at hn
      exact hasCard_iff.mpr hn
    · rw [List.mem_singleton.mp hs] at hn
      exact mem_cameraIds_of_mem hn
  · exact fun h => mem_slotsSignals_names (hasCard_iff.mp h)

/-- An operation that tells of all slots has to keep the cameras that have a card. -/
theorem registers_slotsSignals (h : ∀ id, s.HasCard id → s'.HasCard id) :
    Registers s s' s'.slotsSignals where
  named _ := names_slotsSignals.mp
  kept := h
  added _ hid := Or.inr (names_slotsSignals.mpr hid)

theorem registers_splitting {before after : List CameraEntry} {original : CameraEntry}
    {tileCount : ℤ} {direction : SplitDirection} {autoSplit : Bool}
    (hs : Splitting s before original after tileCount direction autoSplit s')
    (hv : ValidCount tileCount direction) : Registers s s' s'.slotsSignals := by
  apply registers_slotsSignals
  rintro id ⟨cam, hc, rfl⟩
  unfold HasCard
  rw [hs.rows, List.mem_append, List.mem_cons] at hc
  rw [hs.cameras]
  obtain hc | rfl | hc := hc
  · exact ⟨cam, by simp [hc], rfl⟩
  · have hn := two_le_of_validCount hv
    have htile : tileEntry cam (s.nextSlotId + (0 : ℕ)) s.nextSplitGroupId tileCount direction
        (0 + 0) ∈ s.tilesOf cam tileCount direction :=
      List.mem_map_of_mem (List.mem_range.mpr (show 0 < tileCount.toNat by omega))
    exact ⟨_, List.mem_append_left _ (List.mem_append_right _ htile), rfl⟩
  · exact ⟨cam, by simp [hc], rfl⟩

theorem registers_splitSlotAtIndex (s : CameraModel) (rowIndex tileCount : ℤ)
    (direction : SplitDirection) (autoSplit : Bool) :
    Registers s (s.splitSlotAtIndex rowIndex tileCount direction autoSplit).1
      (s.splitSlotAtIndex rowIndex tileCount direction autoSplit).2 := by
  by_cases hc : s.IsRow rowIndex ∧ ValidCount tileCount direction ∧
      (s.cameras.getD rowIndex.toNat .default).splitCount = 1 ∧
      (s.cameras.getD rowIndex.toNat .default).isOnline = true
  · obtain ⟨before, after, -, hs⟩ := s.exists_splitting autoSplit hc.1 hc.2.1 hc.2.2.1 hc.2.2.2
    have hsig : (s.splitSlotAtIndex rowIndex tileCount direction autoSplit).2 =
        (s.splitSlotAtIndex rowIndex tileCount direction autoSplit).1.slotsSignals := by
      unfold CameraModel.splitSlotAtIndex
      dsimp only
      rw [if_pos hc]
    rw [hsig]
    exact registers_splitting hs hc.2.1
  · rw [splitSlotAtIndex_of_not autoSplit hc]
    exact .refl s

/-- A merge keeps a row of the group, and all rows of a group have one camera. -/
theorem registers_mergeGroupByIndex (hg : SlotGrid s) (anyTileRowIndex : ℤ) :
    Registers s (s.mergeGroupByIndex anyTileRowIndex).1 (s.mergeGroupByIndex anyTileRowIndex).2 := by
  unfold CameraModel.mergeGroupByIndex
  dsimp only
  split_ifs with hc
  · exact .refl s
  rw [not_or, not_or, not_lt] at hc
  obtain ⟨-, -, hgroup⟩ := hc
  generalize (s.cameras.getD anyTileRowIndex.toNat .default).splitGroupId = g at *
  split
  · exact .refl s
  · exact .refl s
  · next firstPos rest _ hi =>
    obtain ⟨before, after, first, hrows, hsub, hfirst, hperm, -⟩ := mergeRows_perm s _ hi
    apply registers_slotsSignals
    have hmem : first ∈ s.cameras := hsub.subset (by simp)
    rintro id ⟨cam, hcam, rfl⟩
    unfold HasCard
    rw [hrows]
    obtain hin | hin := List.mem_append.mp (hperm.mem_iff.mp hcam)
    · -- the row is one of the group
      have hcg : cam.splitGroupId = g := by simpa using (List.mem_filter.mp hin).2
      have hcid : cam.cameraId = first.cameraId := by
        obtain ⟨cam', hcam', -, hneg, -⟩ | ⟨g', d, hsplit⟩ := hg.camera first hmem
        · have hone : first ∈ s.rowsOf first.cameraId :=
            List.mem_filter.mpr ⟨hmem, decide_eq_true rfl⟩
          rw [hcam', List.mem_singleton] at hone
          rw [← hone] at hneg
          omega
        · have hg' : g' = g := by
            rw [← (hsplit.group first hmem).mpr rfl]
            exact hfirst
          exact (hsplit.group cam hcam).mp (hcg.trans hg'.symm)
      exact ⟨mergedEntry first, by simp, hcid.symm⟩
    · refine ⟨cam, ?_, rfl⟩
      obtain hin | hin := List.mem_append.mp hin
      · simp [hin]
      · simp [hin]

theorem registers_applyAutoSplitForSlot (autoSplit : String → ℤ) (s : CameraModel) (slotId : ℤ) :
    Registers s (s.applyAutoSplitForSlot autoSplit slotId).1
      (s.applyAutoSplitForSlot autoSplit slotId).2 := by
  unfold CameraModel.applyAutoSplitForSlot
  cases s.indexBySlotId slotId with
  | none => exact .refl s
  | some idx =>
    dsimp only
    unfold CameraModel.autoSplitForIndex
    dsimp only
    split_ifs
    · exact .refl s
    · exact registers_splitSlotAtIndex s _ _ _ _

theorem registers_applyAutoSplits (autoSplit : String → ℤ) (s : CameraModel) (slotIds : List ℤ) :
    Registers s (s.applyAutoSplits autoSplit slotIds).1 (s.applyAutoSplits autoSplit slotIds).2 := by
  rw [applyAutoSplits_eq]
  induction slotIds generalizing s with
  | nil => exact .refl s
  | cons slotId slotIds ih => exact (registers_applyAutoSplitForSlot autoSplit s slotId).trans (ih _)

theorem registers_onStoreUpdated (autoSplit : String → ℤ) (order : HashOrder CameraData)
    (s : CameraModel) (snapshot : List CameraData) :
    Registers s (s.onStoreUpdated autoSplit order snapshot).1
      (s.onStoreUpdated autoSplit order snapshot).2 := by
  have hids : CameraEntry.cameraId ∘ updateEntry (snapshotByCid snapshot) = CameraEntry.cameraId :=
    funext (cameraId_updateEntry _)
  have hkept : ∀ id, s.HasCard id → (mergeSnapshot order s snapshot).HasCard id := by
    intro id hid
    rw [hasCard_iff] at hid ⊢
    rw [mergeSnapshot, cameraIds_appendNew, List.map_map, hids]
    exact List.mem_append_left _ hid
  have honline : Registers s s (s.cameras.flatMap (onlineSignals (snapshotByCid snapshot))) := by
    refine ⟨?_, fun _ h => h, fun _ h => Or.inl h⟩
    rintro id ⟨signal, hs, hn⟩
    obtain ⟨cam, hc, hs⟩ := List.mem_flatMap.mp hs
    unfold onlineSignals at hs
    split at hs
    · exact absurd hs List.not_mem_nil
    · split_ifs at hs
      · rw [List.mem_singleton.mp hs] at hn
        exact ⟨cam, hc, hn.symm⟩
      · exact absurd hs List.not_mem_nil
  exact (honline.trans (registers_slotsSignals hkept)).trans
    (registers_applyAutoSplits autoSplit _ _)

theorem registers_step (hs : Sound s) (autoSplit : String → ℤ) {op : Op} (hop : op ≠ .clearAll) :
    Registers s (s.step autoSplit op).1 (s.step autoSplit op).2 := by
  obtain ⟨⟨l, hl⟩, -⟩ := hs
  have hmodify (row : ℤ) (f : CameraEntry → CameraEntry)
      (hf : ∀ cam, (f cam).cameraId = cam.cameraId) :
      Registers s (s.modifyRow row f) [] :=
    registers_of_cameraIds (map_modify_of_eq CameraEntry.cameraId hf _ _) fun _ h =>
      absurd h List.not_mem_nil
  cases op with
  | onStoreUpdated order snapshot => exact registers_onStoreUpdated autoSplit order s snapshot
  | splitSlot rowIndex tileCount direction => exact registers_splitSlotAtIndex s _ _ _ _
  | mergeSlots anyTileRowIndex => exact registers_mergeGroupByIndex hl.slotGrid anyTileRowIndex
  | applyAutoSplitForSlot slotId => exact registers_applyAutoSplitForSlot autoSplit s slotId
  | clearAll => exact absurd rfl hop
  | swapSlots indexA indexB =>
    have hiff (id : String) : s.HasCard id ↔ (s.swapSlots indexA indexB).1.HasCard id := by
      rw [hasCard_iff, hasCard_iff, ← hl.mem_cameras_iff,
        ← (hl.swapSlots indexA indexB).mem_cameras_iff]
    unfold CameraModel.step
    dsimp only
    by_cases hr : s.IsRow indexA ∧ s.IsRow indexB ∧ indexA ≠ indexB
    · have hsig : (s.swapSlots indexA indexB).2 = (s.swapSlots indexA indexB).1.slotsSignals := by
        unfold CameraModel.swapSlots
        rw [if_pos hr]
      rw [hsig]
      exact registers_slotsSignals fun id => (hiff id).mp
    · unfold CameraModel.swapSlots
      rw [if_neg hr]
      exact .refl s
  | setOnline index online =>
    unfold CameraModel.step CameraModel.setOnline
    dsimp only
    split_ifs
    · exact hmodify index _ fun _ => rfl
    · exact .refl s
  | setData row edit =>
    unfold CameraModel.step CameraModel.setData
    dsimp only
    split_ifs
    · cases edit with
      | title value => exact hmodify row _ fun _ => rfl
      | isOnline value => exact hmodify row _ fun _ => rfl
      | cameraType value => exact hmodify row _ fun _ => rfl
      | other => exact .refl s
    · exact .refl s
  | updateSensorInfo cameraId info =>
    refine registers_of_cameraIds ?_ fun signal hsig id => ?_
    · rw [step, updateSensorInfo, List.map_map]
      refine List.map_congr_left fun cam _ => ?_
      simp only [Function.comp_apply]
      split_ifs <;> rfl
    · unfold CameraModel.step CameraModel.updateSensorInfo at hsig
      dsimp only at hsig
      split_ifs at hsig
      · rw [List.mem_singleton.mp hsig]
        exact not_false
      · exact absurd hsig List.not_mem_nil

end CameraModel

end Models

/-! ## Runs -/

namespace Wall

open VideoManager

/-- The rows are sound, the slot map is theirs, and the workers are those of their cameras. -/
structure Invariant (w : Wall) : Prop where
  sound : CameraModel.Sound w.model
  slots : w.manager.slotToCameraId = slotMap w.model.slots
  workers : ∀ id, id ∈ w.manager.workers ↔ w.model.HasCard id
  streaming : w.manager.Streaming

theorem invariant_init : init.Invariant where
  sound := CameraModel.sound_empty
  slots := rfl
  workers _ := iff_of_false Finmap.notMem_empty fun ⟨_, hc, _⟩ => absurd hc List.not_mem_nil
  streaming := streaming_empty

theorem slots_step (p : Providers) (autoSplit : String → ℤ) {s : CameraModel} {m : VideoManager}
    (h : m.slotToCameraId = slotMap s.slots) (op : CameraModel.Op) :
    (m.onSignals p (s.step autoSplit op).2).1.slotToCameraId =
      slotMap (s.step autoSplit op).1.slots := by
  have hrows (s' : CameraModel) :
      (m.onSignals p s'.slotsSignals).1.slotToCameraId = slotMap s'.slots := by
    rw [onSignals_eq]
    exact slots_slotsSignals p m s'
  have hsame {s' : CameraModel} (hs : s'.slots = s.slots) :
      (m.onSignals p []).1.slotToCameraId = slotMap s'.slots := by
    rw [hs]
    exact h
  have hmodify (row : ℤ) (f : CameraEntry → CameraEntry)
      (hf : ∀ cam, (f cam).cameraId = cam.cameraId)
      (hg : ∀ cam, (f cam).slotId = cam.slotId) : (s.modifyRow row f).slots = s.slots :=
    CameraModel.map_modify_of_eq (fun cam : CameraEntry => SlotInfo.mk cam.slotId cam.cameraId)
      (fun cam => by rw [hf, hg]) _ _
  have hsplit (rowIndex tileCount : ℤ) (direction : SplitDirection) (auto : Bool) :
      (m.onSignals p (s.splitSlotAtIndex rowIndex tileCount direction auto).2).1.slotToCameraId =
        slotMap (s.splitSlotAtIndex rowIndex tileCount direction auto).1.slots := by
    unfold CameraModel.splitSlotAtIndex
    dsimp only
    split_ifs
    · exact hrows _
    · exact hsame rfl
  cases op with
  | onStoreUpdated order snapshot => exact slots_onStoreUpdated p autoSplit order m s snapshot
  | splitSlot rowIndex tileCount direction => exact hsplit _ _ _ _
  | mergeSlots anyTileRowIndex =>
    unfold CameraModel.step CameraModel.mergeSlots CameraModel.mergeGroupByIndex
    dsimp only
    split_ifs
    · exact hsame rfl
    split
    · exact hsame rfl
    · exact hsame rfl
    · exact hrows _
  | swapSlots indexA indexB =>
    unfold CameraModel.step CameraModel.swapSlots
    dsimp only
    split_ifs
    · exact hrows _
    · exact hsame rfl
  | applyAutoSplitForSlot slotId =>
    unfold CameraModel.step CameraModel.applyAutoSplitForSlot
    dsimp only
    split
    · exact hsame rfl
    · unfold CameraModel.autoSplitForIndex
      dsimp only
      split_ifs
      · exact hsame rfl
      · exact hsplit _ _ _ _
  | setOnline index online =>
    unfold CameraModel.step CameraModel.setOnline
    dsimp only
    split_ifs
    · exact hsame (hmodify index _ (fun _ => rfl) fun _ => rfl)
    · exact hsame rfl
  | setData row edit =>
    unfold CameraModel.step CameraModel.setData
    dsimp only
    split_ifs
    · cases edit with
      | title value => exact hsame (hmodify row _ (fun _ => rfl) fun _ => rfl)
      | isOnline value => exact hsame (hmodify row _ (fun _ => rfl) fun _ => rfl)
      | cameraType value => exact hsame (hmodify row _ (fun _ => rfl) fun _ => rfl)
      | other => exact hsame rfl
    · exact hsame rfl
  | updateSensorInfo cameraId info =>
    have hslots : (s.updateSensorInfo cameraId info).1.slots = s.slots := by
      unfold CameraModel.updateSensorInfo CameraModel.slots
      rw [List.map_map]
      refine List.map_congr_left fun cam _ => ?_
      simp only [Function.comp_apply]
      split_ifs <;> rfl
    unfold CameraModel.step
    dsimp only
    rw [hslots, onSignals_eq, ← h]
    unfold CameraModel.updateSensorInfo
    dsimp only
    split_ifs <;> rfl
  | clearAll => exact hrows _

theorem Invariant.step {w : Wall} (h : w.Invariant) (autoSplit : String → ℤ)
    (e : Providers × CameraModel.Op) : (w.step autoSplit e).1.Invariant := by
  obtain ⟨p, op⟩ := e
  have hsound := h.sound.step autoSplit op
  by_cases hop : op = .clearAll
  · subst hop
    exact ⟨hsound, rfl, invariant_init.workers, streaming_empty⟩
  · have hstep : (w.step autoSplit (p, op)).1 = ⟨(w.model.step autoSplit op).1,
        (w.manager.onSignals p (w.model.step autoSplit op).2).1⟩ := by
      unfold Wall.step
      cases op <;> first | rfl | exact absurd rfl hop
    have hreg := CameraModel.registers_step h.sound autoSplit hop
    rw [hstep]
    refine ⟨hsound, slots_step p autoSplit h.slots op, fun id => ?_, h.streaming.onSignals p _⟩
    rw [mem_onSignals, h.workers]
    constructor
    · rintro (hid | ⟨hn, -⟩)
      · exact hreg.kept id hid
      · exact hreg.named id hn
    · intro hid
      have hne : id ≠ "" := by
        obtain ⟨cam, hc, rfl⟩ := hid
        exact hsound.cameraIds cam hc
      exact (hreg.added id hid).imp_right fun hn => ⟨hn, hne⟩

theorem Invariant.attached {w : Wall} (h : w.Invariant) : w.Attached := by
  obtain ⟨l, hl⟩ := h.sound.shows
  have hn : (w.model.slots.map SlotInfo.slotId).Nodup := by
    rw [CameraModel.slots, List.map_map]
    exact hl.slotIds
  refine ⟨fun cam hc => ?_, fun slotId hnone => ?_, h.workers, h.streaming⟩
  · have hslot : w.manager.slotToCameraId.get? cam.slotId = some cam.cameraId := by
      rw [h.slots, get?_slotMap_iff hn]
      exact List.mem_map_of_mem hc
    unfold getWorkerBySlot slotCameraId
    rw [hslot]
    exact if_pos ((h.workers cam.cameraId).mpr ⟨cam, hc, rfl⟩)
  · have hslot : w.manager.slotToCameraId.get? slotId = none := by
      cases hs : w.manager.slotToCameraId.get? slotId with
      | none => rfl
      | some _ =>
        rw [h.slots, get?_slotMap_iff hn] at hs
        obtain ⟨cam, hc, he⟩ := List.mem_map.mp hs
        exact absurd (congrArg SlotInfo.slotId he) (hnone cam hc)
    have hempty : "" ∉ w.manager.workers := by
      rw [h.workers]
      rintro ⟨cam, hc, he⟩
      exact h.sound.cameraIds cam hc he
    unfold getWorkerBySlot slotCameraId
    rw [hslot]
    exact if_neg hempty

/-- **Slots have workers.** The slot of every card leads to the worker of its camera, no other slot
to one, and the workers are those of the cameras with a card. -/
theorem slots_have_workers (autoSplit : String → ℤ) (es : List (Providers × CameraModel.Op)) :
    (Machine.final (step autoSplit) init es).Attached := by
  refine Invariant.attached ?_
  exact Machine.invariant (step autoSplit) Invariant (fun _ => True) invariant_init
    (fun _ e _ h => h.step autoSplit e) es fun _ _ => trivial

end Wall

end AnoMap
