import AnoMap.Services.VideoManager

/-!
# A video tile

`VideoStream`, a tile of the dashboard, beside the manager whose workers it shows. A pointer to a
worker is the worker's id, for as long as the worker lives; deleting the worker makes it null.

* `tryAttach`, `onWorkerRegistered`, `setSlotId`, `setCameraId`: the operations of the tile.
* `Scene`, `step`: the tile and the manager under the calls of either, each `workerRegistered` being
  delivered when it is emitted.
* `Attaches`: a tile whose target has no worker listens, and a worker registered for the target is
  the one the tile shows.
* `announced_registerCameraIds`: which workers registered by a list of ids are shown.
* **`tile_attaches_iff`**: a run attaches the tile if and only if each step finds it prepared.
-/

set_option autoImplicit false

namespace AnoMap

namespace Services

open Models

namespace VideoManager

/-- The worker of an id. -/
def getWorker (m : VideoManager) (cameraId : String) : Option String :=
  if cameraId ∈ m.workers then some cameraId else none

def slotCameraId (m : VideoManager) (slotId : ℤ) : String :=
  (m.slotToCameraId.get? slotId).getD ""

def getWorkerBySlot (m : VideoManager) (slotId : ℤ) : Option String :=
  m.getWorker (m.slotCameraId slotId)

def hasSlot (m : VideoManager) (slotId : ℤ) : Prop := slotId ∈ m.slotToCameraId

instance (m : VideoManager) (slotId : ℤ) : Decidable (m.hasSlot slotId) := by
  unfold hasSlot
  infer_instance

end VideoManager

/-- `worker` is `m_worker`; `subscribed`: `workerRegistered` is connected to the tile. -/
structure VideoStream where
  slotId : ℤ
  cameraId : String
  worker : Option String
  subscribed : Bool
  deriving DecidableEq, Repr

namespace VideoStream

def new : VideoStream := ⟨-1, "", none, false⟩

/-- The worker to attach to. -/
def newWorker (m : VideoManager) (v : VideoStream) : Option String :=
  if 0 ≤ v.slotId then
    match m.getWorkerBySlot v.slotId with
    | some w => some w
    | none => if v.cameraId ≠ "" then m.getWorker v.cameraId else none
  else if v.cameraId ≠ "" then m.getWorker v.cameraId else none

def tryAttach (m : VideoManager) (v : VideoStream) : VideoStream :=
  if newWorker m v ≠ v.worker then
    { v with
      worker := newWorker m v
      subscribed := v.subscribed || (newWorker m v).isNone }
  else v

def setSlotId (m : VideoManager) (v : VideoStream) (id : ℤ) : VideoStream :=
  if v.slotId ≠ id then tryAttach m { v with slotId := id } else v

def setCameraId (m : VideoManager) (v : VideoStream) (id : String) : VideoStream :=
  if v.cameraId ≠ id then tryAttach m { v with cameraId := id } else v

def isTarget (m : VideoManager) (v : VideoStream) (id : String) : Prop :=
  if 0 ≤ v.slotId then m.slotCameraId v.slotId = id else v.cameraId = id

instance (m : VideoManager) (v : VideoStream) (id : String) : Decidable (v.isTarget m id) := by
  unfold isTarget
  infer_instance

def onWorkerRegistered (m : VideoManager) (v : VideoStream) (id : String) : VideoStream :=
  if v.isTarget m id then tryAttach m { v with subscribed := false } else v

/-- The camera the tile is to show: that of its slot, or its own when the slot is unset or unknown. -/
def target? (m : VideoManager) (v : VideoStream) : Option String :=
  let id := if 0 ≤ v.slotId ∧ m.hasSlot v.slotId then m.slotCameraId v.slotId else v.cameraId
  if id = "" then none else some id

end VideoStream

/-! ## The scene -/

/-- A call of the tile or the manager, with what the providers give at that time. -/
inductive TileCall where
  | setSlotId (id : ℤ)
  | setCameraId (id : String)
  | registerSlots (p : Providers) (slots : List SlotInfo)
  | registerCameraIds (p : Providers) (cameraIds : List String)
  | restartWorker (p : Providers) (cameraId : String)
  | clearAll

/-- `workerRegistered(id)`, with the tile's target and worker after it was delivered. -/
structure Registration where
  id : String
  target : Option String
  worker : Option String
  deriving DecidableEq, Repr

/-- If the worker is the target's, it is the one the tile is attached to. -/
def Registration.Shown (r : Registration) : Prop := r.target = some r.id → r.worker = some r.id

structure Scene where
  manager : VideoManager
  tile : VideoStream

namespace Scene

def init : Scene := ⟨.empty, .new⟩

def emitRegistered (s : Scene) (id : String) : Scene × List Registration :=
  let t := if s.tile.subscribed then s.tile.onWorkerRegistered s.manager id else s.tile
  (⟨s.manager, t⟩, [⟨id, t.target? s.manager, t.worker⟩])

/-- An operation of the manager that registers the ids at its end. -/
def announce (s : Scene) (r : VideoManager × List String) : Scene × List Registration :=
  (Machine.final emitRegistered ⟨r.1, s.tile⟩ r.2, Machine.outputs emitRegistered ⟨r.1, s.tile⟩ r.2)

def addWorker (p : Providers) (s : Scene) (cameraId : String) : Scene × List Registration :=
  s.announce (s.manager.addWorker p cameraId)

def registerCameraIds (p : Providers) (s : Scene) (cameraIds : List String) :
    Scene × List Registration :=
  (Machine.final (addWorker p) s cameraIds, Machine.outputs (addWorker p) s cameraIds)

def registerSlots (p : Providers) (s : Scene) (slots : List SlotInfo) :
    Scene × List Registration :=
  registerCameraIds p
    ⟨{ s.manager with
        slotToCameraId := slots.foldl (fun map si => map.set si.slotId si.cameraId) ∅ }, s.tile⟩
    (slots.map SlotInfo.cameraId)

/-- One call. The workers `clearAll` deletes are taken from the tile. -/
def step (s : Scene) : TileCall → Scene × List Registration
  | .setSlotId id => (⟨s.manager, s.tile.setSlotId s.manager id⟩, [])
  | .setCameraId id => (⟨s.manager, s.tile.setCameraId s.manager id⟩, [])
  | .registerSlots p slots => s.registerSlots p slots
  | .registerCameraIds p cameraIds => s.registerCameraIds p cameraIds
  | .restartWorker p cameraId => s.announce (s.manager.restartWorker p cameraId)
  | .clearAll => (⟨s.manager.clearAll, { s.tile with worker := none }⟩, [])

def target? (s : Scene) : Option String := s.tile.target? s.manager

/-- The target has no worker. -/
def Waits (s : Scene) : Prop := ∃ c, s.target? = some c ∧ c ∉ s.manager.workers

/-- **The tile attaches** in every state and at every registration of a run. -/
def Attaches (cs : List TileCall) : Prop :=
  (∀ pre, pre <+: cs → (Machine.final step init pre).Waits →
    (Machine.final step init pre).tile.subscribed = true) ∧
  ∀ r ∈ Machine.outputs step init cs, r.Shown

/-- The tile shows the worker of the id already, or it listens under a slot the manager knows or
under none. -/
def Ready (s : Scene) (id : String) : Prop :=
  s.tile.worker = some id ∨
    s.tile.subscribed = true ∧ (s.tile.slotId < 0 ∨ s.manager.hasSlot s.tile.slotId)

end Scene

/-! ## One registration -/

namespace VideoStream

variable {m : VideoManager} {v : VideoStream} {id : String}

theorem isTarget_iff (hid : id ≠ "") :
    v.isTarget m id ↔ v.target? m = some id ∧ (v.slotId < 0 ∨ m.hasSlot v.slotId) := by
  have hsome : ∀ x : String, (if x = "" then none else some x) = some id ↔ x = id := by
    intro x
    split_ifs with hx
    · exact iff_of_false nofun fun h => hid (h ▸ hx)
    · exact Option.some_inj
  rw [isTarget, target?, hsome]
  by_cases hslot : 0 ≤ v.slotId
  · by_cases hhas : m.hasSlot v.slotId
    · rw [if_pos hslot, if_pos ⟨hslot, hhas⟩]
      exact (and_iff_left (Or.inr hhas)).symm
    · -- the camera of an unknown slot has the empty id
      have hempty : m.slotCameraId v.slotId = "" := by
        rw [VideoManager.slotCameraId, (KeyMap.get?_eq_none_iff _ _).mpr hhas]
        rfl
      rw [if_pos hslot, hempty]
      exact iff_of_false (Ne.symm hid) fun h => h.2.elim (not_lt_of_ge hslot) hhas
  · rw [if_neg hslot, if_neg fun h => hslot h.1]
    exact (and_iff_left (Or.inl (lt_of_not_ge hslot))).symm

theorem onWorkerRegistered_of_isTarget (hid : id ≠ "") (hmem : id ∈ m.workers)
    (h : v.isTarget m id) :
    v.onWorkerRegistered m id = { v with worker := some id, subscribed := false } := by
  have hget : m.getWorker id = some id := if_pos hmem
  have hnew : newWorker m { v with subscribed := false } = some id := by
    by_cases hslot : 0 ≤ v.slotId
    · rw [isTarget, if_pos hslot] at h
      rw [newWorker, if_pos hslot, VideoManager.getWorkerBySlot, h, hget]
    · rw [isTarget, if_neg hslot] at h
      rw [newWorker, if_neg hslot, if_pos (h ▸ hid), h, hget]
  rw [onWorkerRegistered, if_pos h, tryAttach, hnew]
  split_ifs with heq
  · rfl
  · rw [not_not] at heq
    rw [heq]

end VideoStream

namespace Scene

theorem emitRegistered_tile {s : Scene} {id : String} (hid : id ≠ "")
    (hmem : id ∈ s.manager.workers) : (s.emitRegistered id).1.tile =
      if s.tile.subscribed = true ∧ s.tile.isTarget s.manager id then
        { s.tile with worker := some id, subscribed := false } else s.tile := by
  show (if s.tile.subscribed = true then s.tile.onWorkerRegistered s.manager id else s.tile) = _
  by_cases hsub : s.tile.subscribed = true
  · by_cases htarget : s.tile.isTarget s.manager id
    · rw [if_pos hsub, if_pos ⟨hsub, htarget⟩,
        VideoStream.onWorkerRegistered_of_isTarget hid hmem htarget]
    · rw [if_pos hsub, if_neg fun h => htarget h.2, VideoStream.onWorkerRegistered, if_neg htarget]
  · rw [if_neg hsub, if_neg fun h => hsub h.1]

theorem target?_congr {s t : Scene} (hslots : s.manager.slotToCameraId = t.manager.slotToCameraId)
    (hslot : s.tile.slotId = t.tile.slotId) (hcamera : s.tile.cameraId = t.tile.cameraId) :
    s.target? = t.target? := by
  obtain ⟨⟨_, slots⟩, ⟨slotId, cameraId, _, _⟩⟩ := s
  obtain ⟨⟨_, slots'⟩, ⟨slotId', cameraId', _, _⟩⟩ := t
  obtain rfl : slots = slots' := hslots
  obtain rfl : slotId = slotId' := hslot
  obtain rfl : cameraId = cameraId' := hcamera
  rfl

/-- What registering some ids does to the tile. -/
structure Announced (s : Scene) (ids : List String) (r : Scene × List Registration) : Prop where
  slots : r.1.manager.slotToCameraId = s.manager.slotToCameraId
  slotId : r.1.tile.slotId = s.tile.slotId
  cameraId : r.1.tile.cameraId = s.tile.cameraId
  shown_iff : (∀ o ∈ r.2, o.Shown) ↔ ∀ id ∈ ids, s.target? = some id → s.Ready id
  other : (∀ id ∈ ids, s.target? ≠ some id) → r.1.tile = s.tile

theorem announced_emitRegistered {s : Scene} {id : String} (hid : id ≠ "")
    (hmem : id ∈ s.manager.workers) : Announced s [id] (s.emitRegistered id) := by
  have htile := emitRegistered_tile hid hmem
  have hkeep : (s.emitRegistered id).1.tile.slotId = s.tile.slotId ∧
      (s.emitRegistered id).1.tile.cameraId = s.tile.cameraId := by
    rw [htile]
    split_ifs <;> exact ⟨rfl, rfl⟩
  refine ⟨rfl, hkeep.1, hkeep.2, ?_, fun h => ?_⟩
  · have hout : (s.emitRegistered id).2 =
        [⟨id, (s.emitRegistered id).1.target?, (s.emitRegistered id).1.tile.worker⟩] := rfl
    rw [hout, List.forall_mem_singleton, List.forall_mem_singleton, Registration.Shown,
      target?_congr (s := (s.emitRegistered id).1) (t := s) rfl hkeep.1 hkeep.2]
    refine imp_congr_right fun htarget => ?_
    have hiff := VideoStream.isTarget_iff (m := s.manager) (v := s.tile) hid
    rw [htile, Ready]
    split_ifs with h
    · exact iff_of_true rfl (Or.inr ⟨h.1, (hiff.mp h.2).2⟩)
    · refine (or_iff_left fun hr => h ⟨hr.1, hiff.mpr ⟨htarget, hr.2⟩⟩).symm
  · have hnot := List.forall_mem_singleton.mp h
    rw [htile, if_neg fun hh => hnot ((VideoStream.isTarget_iff hid).mp hh.2).1]

theorem ready_congr {s t : Scene} (hslots : s.manager.slotToCameraId = t.manager.slotToCameraId)
    (htile : s.tile = t.tile) (id : String) : s.Ready id ↔ t.Ready id := by
  rw [Ready, Ready, htile, VideoManager.hasSlot, VideoManager.hasSlot, hslots]

theorem Announced.target? {s : Scene} {ids : List String} {r : Scene × List Registration}
    (h : Announced s ids r) : r.1.target? = s.target? := target?_congr h.slots h.slotId h.cameraId

theorem Announced.congr {s t : Scene} {ids : List String} {r : Scene × List Registration}
    (h : Announced s ids r) (hslots : s.manager.slotToCameraId = t.manager.slotToCameraId)
    (htile : s.tile = t.tile) : Announced t ids r := by
  have htarget : s.target? = t.target? := target?_congr hslots (by rw [htile]) (by rw [htile])
  refine ⟨h.slots.trans hslots, htile ▸ h.slotId, htile ▸ h.cameraId, ?_, fun hn => ?_⟩
  · rw [h.shown_iff, htarget]
    exact forall₂_congr fun id _ => imp_congr_right fun _ => ready_congr hslots htile id
  · rw [← htile]
    exact h.other (htarget ▸ hn)

/-- One registration after the other, of no id twice. -/
theorem Announced.append {s : Scene} {ids js : List String} {r q : Scene × List Registration}
    (h₁ : Announced s ids r) (h₂ : Announced r.1 js q) (hdisj : ∀ id ∈ ids, id ∉ js) :
    Announced s (ids ++ js) (q.1, r.2 ++ q.2) := by
  refine ⟨h₂.slots.trans h₁.slots, h₂.slotId.trans h₁.slotId, h₂.cameraId.trans h₁.cameraId, ?_,
    fun hn => ?_⟩
  · have hrest : (∀ id ∈ js, s.target? = some id → r.1.Ready id) ↔
        ∀ id ∈ js, s.target? = some id → s.Ready id := by
      by_cases htile : ∀ id ∈ ids, s.target? ≠ some id
      · exact forall₂_congr fun id _ =>
          imp_congr_right fun _ => ready_congr h₁.slots (h₁.other htile) id
      · -- the target has been among the first
        simp only [not_forall, not_not] at htile
        obtain ⟨id, hid, htarget⟩ := htile
        have hnot : ∀ j ∈ js, s.target? ≠ some j := fun j hj heq =>
          hdisj id hid (Option.some.inj (htarget.symm.trans heq) ▸ hj)
        exact iff_of_true (fun j hj heq => absurd heq (hnot j hj))
          fun j hj heq => absurd heq (hnot j hj)
    rw [List.forall_mem_append, List.forall_mem_append, h₁.shown_iff, h₂.shown_iff, h₁.target?,
      hrest]
  · rw [List.forall_mem_append] at hn
    exact (h₂.other (h₁.target? ▸ hn.2)).trans (h₁.other hn.1)

theorem announced_nil (s : Scene) : Announced s [] (s, []) :=
  ⟨rfl, rfl, rfl, iff_of_true nofun nofun, fun _ => rfl⟩

theorem announced_registerCameraIds (p : Providers) (s : Scene) (ids : List String) :
    (s.registerCameraIds p ids).1.manager = (s.manager.registerCameraIds p ids).1 ∧
      Announced s (s.manager.registerCameraIds p ids).2 (s.registerCameraIds p ids) := by
  rw [VideoManager.registerCameraIds_eq]
  unfold registerCameraIds
  induction ids generalizing s with
  | nil => exact ⟨rfl, announced_nil s⟩
  | cons j ids ih =>
    rcases s.manager.addWorker_cases p j with ⟨-, heq⟩ | ⟨hj, hnot, heq⟩
    · have hstep : s.addWorker p j = (s, []) := by rw [addWorker, heq]; rfl
      simp only [Machine.final_cons, Machine.outputs_cons, hstep, heq, List.nil_append]
      exact ih s
    · obtain ⟨m, hm⟩ : ∃ m, m = { s.manager with
        workers := s.manager.workers.set j (VideoManager.configure p j .new) } := ⟨_, rfl⟩
      have hmem : j ∈ m.workers := hm ▸ (KeyMap.mem_set _ _ _ _).mpr (Or.inl rfl)
      have hslots : m.slotToCameraId = s.manager.slotToCameraId := by rw [hm]
      have hstep : s.addWorker p j = emitRegistered ⟨m, s.tile⟩ j := by rw [addWorker, heq, ← hm]; rfl
      rw [← hm] at heq
      simp only [Machine.final_cons, Machine.outputs_cons, hstep, heq]
      obtain ⟨hmanager, hrest⟩ := ih (emitRegistered ⟨m, s.tile⟩ j).1
      have hfirst : Announced s [j] (emitRegistered ⟨m, s.tile⟩ j) :=
        (announced_emitRegistered (s := ⟨m, s.tile⟩) hj hmem).congr hslots rfl
      refine ⟨hmanager, hfirst.append hrest fun id hid => ?_⟩
      rw [List.mem_singleton.mp hid]
      have hagain : j ∉ (m.registerCameraIds p ids).2 := fun h =>
        (VideoManager.of_mem_registerCameraIds h).2.2 hmem
      rwa [VideoManager.registerCameraIds_eq] at hagain

/-! ## One call -/

end Scene

namespace TileCall

/-- What the call does to the manager, with the ids it registers. -/
def manage (m : VideoManager) : TileCall → VideoManager × List String
  | .setSlotId _ => (m, [])
  | .setCameraId _ => (m, [])
  | .registerSlots p slots => m.registerSlots p slots
  | .registerCameraIds p cameraIds => m.registerCameraIds p cameraIds
  | .restartWorker p cameraId => m.restartWorker p cameraId
  | .clearAll => (m.clearAll, [])

/-- Where the call points the tile. -/
def aim (v : VideoStream) : TileCall → VideoStream
  | .setSlotId id => { v with slotId := id }
  | .setCameraId id => { v with cameraId := id }
  | _ => v

end TileCall

namespace Scene

/-- The scene after a call, but for what the tile is attached to. -/
def aimed (s : Scene) (c : TileCall) : Scene := ⟨(c.manage s.manager).1, c.aim s.tile⟩

/-- The call finds the tile prepared: it leaves a target without a worker only to a tile that listens,
or by changing the tile's slot or camera while the tile is attached; and it registers a worker for
the target only with the tile ready for it. -/
def Prepared (s : Scene) (c : TileCall) : Prop :=
  ((s.aimed c).Waits → s.tile.subscribed = true ∨ c.aim s.tile ≠ s.tile ∧ s.tile.worker ≠ none) ∧
    ∀ id ∈ (c.manage s.manager).2, (s.aimed c).target? = some id → (s.aimed c).Ready id

/-- Every slot's camera has a worker, and the empty id has none. -/
structure Staffed (m : VideoManager) : Prop where
  slots : ∀ slotId id, m.slotToCameraId.get? slotId = some id → id ≠ "" → id ∈ m.workers
  empty : "" ∉ m.workers

theorem newWorker_of_waits {s : Scene} (h : Staffed s.manager) (hw : s.Waits) :
    s.tile.newWorker s.manager = none := by
  obtain ⟨c, htarget, hnot⟩ := hw
  have hnone : ∀ id, id ∉ s.manager.workers → s.manager.getWorker id = none := fun _ hid =>
    if_neg hid
  have hid : (if 0 ≤ s.tile.slotId ∧ s.manager.hasSlot s.tile.slotId then
      s.manager.slotCameraId s.tile.slotId else s.tile.cameraId) = c ∧ c ≠ "" := by
    rw [target?, VideoStream.target?] at htarget
    split_ifs at htarget with h₁ h₂ h₂
    · rw [if_pos h₁]
      exact ⟨Option.some.inj htarget, Option.some.inj htarget ▸ h₂⟩
    · rw [if_neg h₁]
      exact ⟨Option.some.inj htarget, Option.some.inj htarget ▸ h₂⟩
  by_cases hslot : 0 ≤ s.tile.slotId
  · by_cases hhas : s.manager.hasSlot s.tile.slotId
    · -- the camera of a slot has a worker
      rw [if_pos ⟨hslot, hhas⟩] at hid
      obtain ⟨id, hget⟩ := (KeyMap.mem_iff_get? _ _).mp hhas
      rw [VideoManager.slotCameraId, hget] at hid
      obtain rfl : id = c := hid.1
      exact absurd (h.slots _ _ hget hid.2) hnot
    · rw [if_neg fun hh => hhas hh.2] at hid
      have hempty : s.manager.slotCameraId s.tile.slotId = "" := by
        rw [VideoManager.slotCameraId, (KeyMap.get?_eq_none_iff _ _).mpr hhas]
        rfl
      rw [VideoStream.newWorker, if_pos hslot, VideoManager.getWorkerBySlot, hempty,
        hnone _ h.empty, hid.1, if_pos hid.2]
      exact hnone _ hnot
  · rw [if_neg fun hh => hslot hh.1] at hid
    rw [VideoStream.newWorker, if_neg hslot, hid.1, if_pos hid.2]
    exact hnone _ hnot

theorem target?_tryAttach (s : Scene) :
    target? ⟨s.manager, s.tile.tryAttach s.manager⟩ = s.target? := by
  unfold VideoStream.tryAttach
  split_ifs
  · exact target?_congr rfl rfl rfl
  · rfl

theorem subscribed_tryAttach {s : Scene} (h : Staffed s.manager) (hw : s.Waits) :
    (s.tile.tryAttach s.manager).subscribed = true ↔
      s.tile.subscribed = true ∨ s.tile.worker ≠ none := by
  rw [VideoStream.tryAttach, newWorker_of_waits h hw]
  by_cases hnull : s.tile.worker = none
  · rw [if_neg (not_not.mpr hnull.symm)]
    exact (or_iff_left (not_not.mpr hnull)).symm
  · rw [if_pos (Ne.symm hnull)]
    exact iff_of_true (Bool.or_true _) (Or.inr hnull)

theorem waits_congr {s t : Scene} (hmanager : s.manager = t.manager)
    (htarget : s.target? = t.target?) : s.Waits ↔ t.Waits := by
  rw [Waits, Waits, hmanager, htarget]

theorem prepared_iff_of_announced {s : Scene} {c : TileCall} (haim : c.aim s.tile = s.tile)
    (hmanager : (s.step c).1.manager = (s.aimed c).manager)
    (hworkers : ∀ id ∈ (c.manage s.manager).2, id ∈ (c.manage s.manager).1.workers)
    (h : Announced (s.aimed c) (c.manage s.manager).2 (s.step c)) :
    (((s.step c).1.Waits → (s.step c).1.tile.subscribed = true) ∧ ∀ o ∈ (s.step c).2, o.Shown) ↔
      s.Prepared c := by
  refine and_congr ?_ h.shown_iff
  rw [waits_congr hmanager h.target?]
  refine imp_congr_right fun hw => ?_
  -- a target that waits was not registered
  have hnot : ∀ id ∈ (c.manage s.manager).2, (s.aimed c).target? ≠ some id := by
    obtain ⟨t, htarget, hnot⟩ := hw
    intro id hid heq
    exact hnot (Option.some.inj (htarget.symm.trans heq) ▸ hworkers id hid)
  rw [h.other hnot]
  show (c.aim s.tile).subscribed = true ↔ _
  rw [haim]
  exact (or_iff_left fun hn => hn.1 rfl).symm

theorem prepared_iff_of_tryAttach {s : Scene} {c : TileCall} (hstaffed : Staffed s.manager)
    (hmanage : c.manage s.manager = (s.manager, []))
    (hsub : (c.aim s.tile).subscribed = s.tile.subscribed)
    (hworker : (c.aim s.tile).worker = s.tile.worker)
    (hstep : s.step c = (⟨s.manager, if c.aim s.tile ≠ s.tile then
      (c.aim s.tile).tryAttach s.manager else s.tile⟩, [])) :
    (((s.step c).1.Waits → (s.step c).1.tile.subscribed = true) ∧ ∀ o ∈ (s.step c).2, o.Shown) ↔
      s.Prepared c := by
  have haimed : s.aimed c = ⟨s.manager, c.aim s.tile⟩ := by rw [aimed, hmanage]
  rw [Prepared, hmanage, hstep, haimed]
  refine and_congr ?_ (iff_of_true nofun nofun)
  by_cases hne : c.aim s.tile ≠ s.tile
  · have hwaits : Waits ⟨s.manager, (c.aim s.tile).tryAttach s.manager⟩ ↔
        Waits ⟨s.manager, c.aim s.tile⟩ :=
      waits_congr rfl (target?_tryAttach ⟨s.manager, c.aim s.tile⟩)
    rw [if_pos hne]
    refine (imp_congr_left hwaits).trans ?_
    refine imp_congr_right fun hw => ?_
    rw [subscribed_tryAttach (s := ⟨s.manager, c.aim s.tile⟩) hstaffed hw, hsub, hworker,
      and_iff_right hne]
  · rw [if_neg hne, not_not.mp hne]
    exact imp_congr_right fun _ => (or_iff_left fun hn => hn.1 rfl).symm

theorem mem_workers_of_registered {p : Providers} {m : VideoManager} {ids : List String}
    {id : String} (h : id ∈ (m.registerCameraIds p ids).2) :
    id ∈ (m.registerCameraIds p ids).1.workers := by
  have hnew := VideoManager.of_mem_registerCameraIds h
  exact (VideoManager.mem_registerCameraIds _ _ _ _).mpr (Or.inr ⟨hnew.1, hnew.2.1⟩)

/-- A restart of no worker registers nothing; that of a worker registers its id. -/
theorem prepared_iff_restartWorker {s : Scene} (h : Staffed s.manager) (p : Providers)
    (cameraId : String) :
    (((s.step (.restartWorker p cameraId)).1.Waits →
        (s.step (.restartWorker p cameraId)).1.tile.subscribed = true) ∧
      ∀ o ∈ (s.step (.restartWorker p cameraId)).2, o.Shown) ↔
      s.Prepared (.restartWorker p cameraId) := by
  have hstep : s.step (.restartWorker p cameraId) =
    s.announce (s.manager.restartWorker p cameraId) := rfl
  have hmanage : TileCall.manage s.manager (.restartWorker p cameraId) =
    s.manager.restartWorker p cameraId := rfl
  rcases s.manager.restartWorker_cases p cameraId with ⟨-, -, heq⟩ | ⟨hempty, w, heq⟩
  · rw [heq] at hstep hmanage
    refine prepared_iff_of_announced rfl ?_ ?_ ?_
    · rw [hstep, aimed, hmanage]
      rfl
    · rw [hmanage]
      exact nofun
    · rw [hstep, aimed, hmanage]
      exact announced_nil s
  · have hne : cameraId ≠ "" := fun he => h.empty (he ▸ hempty he)
    have hmem : cameraId ∈ s.manager.workers.set cameraId w :=
      (KeyMap.mem_set _ _ _ _).mpr (Or.inl rfl)
    rw [heq] at hstep hmanage
    refine prepared_iff_of_announced rfl ?_ ?_ ?_
    · rw [hstep, aimed, hmanage]
      rfl
    · rw [hmanage]
      exact fun id hid => List.mem_singleton.mp hid ▸ hmem
    · rw [hstep, aimed, hmanage]
      exact announced_emitRegistered (s := ⟨{ s.manager with workers := _ }, s.tile⟩) hne hmem

/-- **One call** leaves the tile as it should be if and only if it finds it prepared. -/
theorem prepared_iff {s : Scene} (h : Staffed s.manager) (c : TileCall) :
    (((s.step c).1.Waits → (s.step c).1.tile.subscribed = true) ∧ ∀ o ∈ (s.step c).2, o.Shown) ↔
      s.Prepared c := by
  cases c with
  | setSlotId id =>
    refine prepared_iff_of_tryAttach h rfl rfl rfl ?_
    have hiff : { s.tile with slotId := id } ≠ s.tile ↔ s.tile.slotId ≠ id :=
      not_congr ⟨fun he => (congrArg VideoStream.slotId he).symm, fun he => by rw [← he]⟩
    show (_, _) = (_, _)
    simp only [VideoStream.setSlotId, TileCall.aim, hiff]
  | setCameraId id =>
    refine prepared_iff_of_tryAttach h rfl rfl rfl ?_
    have hiff : { s.tile with cameraId := id } ≠ s.tile ↔ s.tile.cameraId ≠ id :=
      not_congr ⟨fun he => (congrArg VideoStream.cameraId he).symm, fun he => by rw [← he]⟩
    show (_, _) = (_, _)
    simp only [VideoStream.setCameraId, TileCall.aim, hiff]
  | registerSlots p slots =>
    obtain ⟨m, hm⟩ : ∃ m : VideoManager, m = { s.manager with
      slotToCameraId := slots.foldl (fun map si => map.set si.slotId si.cameraId) ∅ } := ⟨_, rfl⟩
    obtain ⟨hmanager, hannounced⟩ := announced_registerCameraIds p ⟨m, s.tile⟩
      (slots.map SlotInfo.cameraId)
    have hslots := VideoManager.slots_registerCameraIds p m (slots.map SlotInfo.cameraId)
    subst hm
    exact prepared_iff_of_announced rfl hmanager (fun id hid => mem_workers_of_registered hid)
      (hannounced.congr hslots.symm rfl)
  | registerCameraIds p cameraIds =>
    obtain ⟨hmanager, hannounced⟩ := announced_registerCameraIds p s cameraIds
    have hslots := VideoManager.slots_registerCameraIds p s.manager cameraIds
    exact prepared_iff_of_announced rfl hmanager (fun id hid => mem_workers_of_registered hid)
      (hannounced.congr hslots.symm rfl)
  | restartWorker p cameraId => exact prepared_iff_restartWorker h p cameraId
  | clearAll =>
    have htarget : (s.step .clearAll).1.target? = (s.aimed .clearAll).target? :=
      target?_congr rfl rfl rfl
    refine and_congr ?_ (iff_of_true nofun nofun)
    rw [waits_congr rfl htarget]
    exact imp_congr_right fun _ => (or_iff_left fun hn => hn.1 rfl).symm

theorem staffed_registerCameraIds {p : Providers} {m : VideoManager} {ids : List String}
    (hslots : ∀ slotId id, m.slotToCameraId.get? slotId = some id → id ≠ "" →
      id ∈ m.workers ∨ id ∈ ids) (hempty : "" ∉ m.workers) :
    Staffed (m.registerCameraIds p ids).1 := by
  refine ⟨fun slotId id hget hne => ?_, fun hmem => ?_⟩
  · rw [VideoManager.slots_registerCameraIds] at hget
    rw [VideoManager.mem_registerCameraIds]
    exact (hslots slotId id hget hne).imp_right fun h => ⟨h, hne⟩
  · exact ((VideoManager.mem_registerCameraIds _ _ _ _).mp hmem).elim hempty fun h => h.2 rfl

theorem staffed_manage {m : VideoManager} (h : Staffed m) (c : TileCall) :
    Staffed (c.manage m).1 := by
  cases c with
  | setSlotId _ => exact h
  | setCameraId _ => exact h
  | registerSlots p slots =>
    refine staffed_registerCameraIds (fun slotId id hget _ => Or.inr ?_) h.empty
    obtain ⟨si, hsi, -, rfl⟩ := VideoManager.exists_slotInfo hget
    exact List.mem_map_of_mem hsi
  | registerCameraIds p cameraIds =>
    exact staffed_registerCameraIds (fun slotId id hget hne => Or.inl (h.slots slotId id hget hne))
      h.empty
  | restartWorker p cameraId =>
    rcases m.restartWorker_cases p cameraId with ⟨-, -, heq⟩ | ⟨hempty, w, heq⟩
    · rwa [TileCall.manage, heq]
    · rw [TileCall.manage, heq]
      refine ⟨fun slotId id hget hne => ?_, fun hmem => ?_⟩
      · exact (KeyMap.mem_set _ _ _ _).mpr (Or.inr (h.slots slotId id hget hne))
      · rcases (KeyMap.mem_set _ _ _ _).mp hmem with he | hmem
        · exact h.empty (he ▸ hempty he.symm)
        · exact h.empty hmem
  | clearAll => exact ⟨fun _ _ hget => (nomatch hget), Finmap.notMem_empty⟩

theorem manager_step (s : Scene) (c : TileCall) :
    (s.step c).1.manager = (c.manage s.manager).1 := by
  cases c with
  | setSlotId _ => rfl
  | setCameraId _ => rfl
  | registerSlots p slots => exact (announced_registerCameraIds p _ _).1
  | registerCameraIds p cameraIds => exact (announced_registerCameraIds p s cameraIds).1
  | restartWorker p cameraId =>
    show (s.announce (s.manager.restartWorker p cameraId)).1.manager = _
    rcases s.manager.restartWorker_cases p cameraId with ⟨-, -, heq⟩ | ⟨-, w, heq⟩ <;>
      rw [TileCall.manage, heq] <;> rfl
  | clearAll => rfl

/-- **The tile attaches** in a run if and only if every call finds it prepared. -/
theorem tile_attaches_iff (cs : List TileCall) :
    Attaches cs ↔ Machine.Along step Prepared init cs := by
  have hinit : init.Waits → init.tile.subscribed = true := fun ⟨_, h, _⟩ => nomatch h
  have hempty : Staffed init.manager := ⟨fun _ _ hget => (nomatch hget), Finmap.notMem_empty⟩
  refine (Machine.along_leaves_iff step
    (P := fun s => s.Waits → s.tile.subscribed = true) hinit cs).symm.trans ?_
  refine Machine.along_congr step (P := fun s => Staffed s.manager) (fun s c h => ?_) hempty cs
  exact ⟨prepared_iff h c, fun _ => manager_step s c ▸ staffed_manage h c⟩

/-- A tile made before its worker: it does not listen when it is told its camera. -/
theorem tile_attaches_fails : ¬ Attaches [.setCameraId "cam"] := by
  intro h
  have hwaits : (Machine.final step init [.setCameraId "cam"]).Waits :=
    ⟨"cam", rfl, Finmap.notMem_empty⟩
  exact absurd (h.1 _ (List.prefix_refl _) hwaits) (by decide +kernel)

end Scene

end Services

end AnoMap
