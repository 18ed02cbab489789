import AnoMap.Core.Wiring
import AnoMap.Lib.Pipeline

/-!
# The order of the packets

When the threads are done, do the models show what the packets show one after the other? The tasks
of one store, with its model, are a pipeline of their own.

* `Core.items`: all that is under way; `Lane`: a store and its model as a pipeline.
* `Ordered`: a worker updates a store, and posts a snapshot of it, only when no earlier task of that
  store is still to do so.
* `Lane.outcome_step`: an ordered step leaves what a lane comes to as it is, up to the tasks of a
  packet received.
* `along_ordered_of_threadCount_eq_one`: with one worker every run is ordered.
* `in_order`: in an ordered run the models end as the packets one after the other make them.
-/

set_option autoImplicit false

namespace AnoMap

open Domain Models Services Pipeline

/-- A task or a snapshot. -/
abbrev Work := Item Task Snapshot

def Work.store : Work → StoreId
  | .task t => t.store
  | .snap x => x.store

def Running.work : Running → Work
  | .taken t => .task t
  | .posting x => .snap x

def GuiEvent.snap? : GuiEvent → Option Snapshot
  | .received _ => none
  | .update x => some x

def GuiEvent.tasks : GuiEvent → List Task
  | .received p => p.tasks
  | .update _ => []

/-- The tasks an event brings. -/
def Event.tasks : Event → List Task
  | .receive p => p.tasks
  | _ => []

/-- The snapshot handed on, if any. -/
def handed (o : Outcome Snapshot) : Option Snapshot :=
  match o with
  | .ok x => x
  | .error _ => none

namespace Data

/-- The snapshot handed on reaches its model. -/
def applyHanded (env : Env) (d : Data) : Option Snapshot → Data
  | some x => (d.applySnapshot env x).1
  | none => d

theorem runTask_eq (env : Env) (d : Data) (t : Task) :
    d.runTask env t = (d.runStore t).1.applyHanded env (handed (d.runStore t).2) := by
  unfold runTask
  cases d.runStore t with
  | mk d' o =>
    cases o with
    | error e => rfl
    | ok o => cases o <;> rfl

theorem store_handed {d : Data} {t : Task} {x : Snapshot} (h : handed (d.runStore t).2 = some x) :
    x.store = t.store := by
  have ho : (d.runStore t).2 = .ok (some x) := by
    cases ho : (d.runStore t).2 with
    | error e => rw [ho] at h; cases h
    | ok o => rw [ho] at h; exact congrArg Except.ok h
  cases t <;> (obtain ⟨y, -, rfl⟩ := map_eq_ok_some ho; rfl)

end Data

namespace Core

/-- The snapshots posted to the GUI thread. -/
def posted (c : Core) : List Work := (c.gui.filterMap GuiEvent.snap?).map .snap

/-- The tasks in the queue, and those of the packets the GUI thread has still to see. -/
def waiting (c : Core) : List Work := (c.queue ++ c.gui.flatMap GuiEvent.tasks).map .task

/-- What is under way, the oldest first. -/
def items (c : Core) : List Work := c.posted ++ c.running.map Running.work ++ c.waiting

end Core

/-! ## Lanes -/

/-- A store and its model, with what a task and a snapshot of it do. -/
structure Lane (env : Env) (σ μ : Type) where
  id : StoreId
  pipeline : Pipeline σ Task Snapshot μ
  store : Data → σ
  model : Data → μ
  runStore : ∀ d t, t.store = id →
    (store (d.runStore t).1, handed (d.runStore t).2) = pipeline.update (store d) t
  runStore_other : ∀ d t, t.store ≠ id → store (d.runStore t).1 = store d
  model_runStore : ∀ d t, model (d.runStore t).1 = model d
  applySnapshot : ∀ d x, model (d.applySnapshot env x).1 = pipeline.apply (model d) x
  applySnapshot_other : ∀ d x, x.store ≠ id → model (d.applySnapshot env x).1 = model d
  store_applySnapshot : ∀ d x, store (d.applySnapshot env x).1 = store d

namespace Lane

/-- The camera store and the camera model. -/
def camera (env : Env) : Lane env CameraStore CameraModel where
  id := .camera
  pipeline :=
    { update := fun s t =>
        match t with
        | .camera json =>
          let r := s.updateFromJson json
          (r.1, handed (r.2.map (Option.map .cameras)))
        | _ => (s, none)
      apply := fun m x =>
        match x with
        | .cameras data => (m.onStoreUpdated env.autoSplit env.order data).1
        | _ => m }
  store := Data.cameraStore
  model := Data.cameraModel
  runStore d t h := by cases t <;> first | rfl | cases h
  runStore_other d t h := by cases t <;> first | rfl | exact absurd rfl h
  model_runStore d t := by cases t <;> rfl
  applySnapshot d x := by cases x <;> rfl
  applySnapshot_other d x h := by cases x <;> first | rfl | exact absurd rfl h
  store_applySnapshot d x := by cases x <;> rfl

/-- The device store and the device model. -/
def device (env : Env) : Lane env DeviceStore DeviceModel where
  id := .device
  pipeline :=
    { update := fun s t =>
        match t with
        | .deviceCamera json =>
          let r := s.updateFromCameraJson json
          (r.1, handed (r.2.map (Option.map .devices)))
        | .deviceAvailable json clock =>
          let r := s.updateFromAvailableJson clock json
          (r.1, handed (r.2.map (Option.map .devices)))
        | _ => (s, none)
      apply := fun m x =>
        match x with
        | .devices data => m.onStoreUpdated data
        | _ => m }
  store := Data.deviceStore
  model := Data.deviceModel
  runStore d t h := by cases t <;> first | rfl | cases h
  runStore_other d t h := by cases t <;> first | rfl | exact absurd rfl h
  model_runStore d t := by cases t <;> rfl
  applySnapshot d x := by cases x <;> rfl
  applySnapshot_other d x h := by cases x <;> first | rfl | exact absurd rfl h
  store_applySnapshot d x := by cases x <;> rfl

/-- The server status store and the server status model. -/
def server (env : Env) : Lane env ServerStatusStore ServerStatusModel where
  id := .server
  pipeline :=
    { update := fun s t =>
        match t with
        | .serverStatus json clock =>
          let r := s.updateFromJson clock json
          (r.1, handed (r.2.map (Option.map .server)))
        | _ => (s, none)
      apply := fun m x =>
        match x with
        | .server data => m.onStoreUpdated data
        | _ => m }
  store := Data.serverStatusStore
  model := Data.serverStatus
  runStore d t h := by cases t <;> first | rfl | cases h
  runStore_other d t h := by cases t <;> first | rfl | exact absurd rfl h
  model_runStore d t := by cases t <;> rfl
  applySnapshot d x := by cases x <;> rfl
  applySnapshot_other d x h := by cases x <;> first | rfl | exact absurd rfl h
  store_applySnapshot d x := by cases x <;> rfl

variable {env : Env} {σ μ : Type} (L : Lane env σ μ)

def pair (d : Data) : σ × μ := (L.store d, L.model d)

/-- The work of the lane's store. -/
def own (ws : List Work) : List Work := ws.filter fun w => w.store = L.id

@[simp] theorem own_append (ws vs : List Work) : L.own (ws ++ vs) = L.own ws ++ L.own vs :=
  List.filter_append ws vs

theorem own_cons_of_eq {w : Work} (h : w.store = L.id) (ws : List Work) :
    L.own (w :: ws) = w :: L.own ws := List.filter_cons_of_pos (decide_eq_true h)

theorem own_cons_of_ne {w : Work} (h : w.store ≠ L.id) (ws : List Work) :
    L.own (w :: ws) = L.own ws := List.filter_cons_of_neg (by rwa [decide_eq_true_eq])

theorem own_eq_nil {ws : List Work} (h : ∀ w ∈ ws, w.store ≠ L.id) : L.own ws = [] :=
  List.filter_eq_nil_iff.mpr fun w hw => by rw [decide_eq_true_eq]; exact h w hw

/-- What the lane comes to when all that is under way is done in order. -/
def outcome (c : Core) : σ × μ := L.pipeline.drain (L.pair c.data) (L.own c.items)

/-! ## One packet after the other -/

theorem pair_applyHanded (d : Data) (o : Option Snapshot) :
    L.pair (d.applyHanded env o) = (L.store d, L.pipeline.applyHanded (L.model d) o) := by
  cases o with
  | none => rfl
  | some x => exact Prod.ext (L.store_applySnapshot d x) (L.applySnapshot d x)

theorem pair_applyHanded_other (d : Data) {o : Option Snapshot}
    (h : ∀ x, o = some x → x.store ≠ L.id) : L.pair (d.applyHanded env o) = L.pair d := by
  cases o with
  | none => rfl
  | some x => exact Prod.ext (L.store_applySnapshot d x) (L.applySnapshot_other d x (h x rfl))

theorem pair_runTask (d : Data) (t : Task) :
    L.pair (d.runTask env t) = L.pipeline.drain (L.pair d) (L.own [.task t]) := by
  rw [Data.runTask_eq]
  by_cases ht : t.store = L.id
  · have hu := L.runStore d t ht
    rw [L.own_cons_of_eq (w := .task t) ht, drain_cons,
      L.pair_applyHanded, L.model_runStore,
      show L.store (d.runStore t).1 = _ from congrArg Prod.fst hu,
      show handed (d.runStore t).2 = _ from congrArg Prod.snd hu]
    rfl
  · rw [L.own_cons_of_ne (w := .task t) ht,
      L.pair_applyHanded_other _ fun x hx => by rw [Data.store_handed hx]; exact ht]
    exact Prod.ext (L.runStore_other d t ht) (L.model_runStore d t)

/-- **Sequential runs.** The packets one after the other are the lane's tasks in order. -/
theorem pair_processAll (d : Data) (ps : List Packet) :
    L.pair (d.processAll env ps) =
      L.pipeline.drain (L.pair d) (L.own ((ps.flatMap Packet.tasks).map .task)) := by
  have htasks : ∀ (ts : List Task) (d : Data),
      L.pair (ts.foldl (Data.runTask env) d) = L.pipeline.drain (L.pair d) (L.own (ts.map .task)) := by
    intro ts
    induction ts with
    | nil => exact fun d => rfl
    | cons t ts ih =>
      intro d
      rw [List.foldl_cons, ih, pair_runTask, ← drain_append, ← own_append]
      rfl
  induction ps generalizing d with
  | nil => rfl
  | cons p ps ih =>
    rw [Data.processAll, List.foldl_cons, ← Data.processAll, ih, Data.process, htasks,
      ← drain_append, ← own_append, ← List.map_append]
    rfl

end Lane

/-! ## Ordered runs -/

namespace Core

/-- No task of the same store that was taken earlier has still to update it, or to post. -/
def Ordered (c : Core) : Event → Prop
  | .update i => ∀ w ∈ c.running[i]?, w.isTaken = true →
    ∀ r ∈ c.running.take i, r.isTaken = true → r.store ≠ w.store
  | .post i => ∀ w ∈ c.running[i]?, w.isTaken = false →
    ∀ r ∈ c.running.take i, r.store ≠ w.store
  | _ => True

instance (c : Core) : ∀ e : Event, Decidable (c.Ordered e)
  | .update i => inferInstanceAs (Decidable (∀ w ∈ c.running[i]?, w.isTaken = true →
      ∀ r ∈ c.running.take i, r.isTaken = true → r.store ≠ w.store))
  | .post i => inferInstanceAs (Decidable (∀ w ∈ c.running[i]?, w.isTaken = false →
      ∀ r ∈ c.running.take i, r.store ≠ w.store))
  | .connect | .receive _ | .take | .gui | .logout => isTrue trivial

/-- Connected, with nothing received yet. -/
def start : Core := { init with connected := true }

/-- The packets of a run, in the order received. -/
def received (es : List Event) : List Packet :=
  es.filterMap fun e =>
    match e with
    | .receive p => some p
    | _ => none

theorem flatMap_received (es : List Event) :
    (received es).flatMap Packet.tasks = es.flatMap Event.tasks := by
  induction es with
  | nil => rfl
  | cons e es ih =>
    rw [List.flatMap_cons, ← ih]
    cases e <;> rfl

variable {env : Env} {c : Core}

theorem ordered_of_length_le_one (h : c.running.length ≤ 1) (e : Event) : c.Ordered e := by
  have htake : ∀ (i : ℕ) (w : Running), w ∈ c.running[i]? → ∀ r, r ∉ c.running.take i := by
    intro i w hw r hr
    have hi := (List.getElem?_eq_some_iff.mp hw).1
    rw [show i = 0 by omega] at hr
    exact List.not_mem_nil hr
  cases e with
  | update i => exact fun w hw _ r hr => absurd hr (htake i w hw r)
  | post i => exact fun w hw _ r hr => absurd hr (htake i w hw r)
  | _ => trivial

theorem length_running_update (c : Core) (i : ℕ) : (c.update i).running.length ≤ c.running.length := by
  unfold update
  split
  · split
    · exact le_rfl
    · exact List.length_eraseIdx_le _ _
    · exact (List.length_set ..).le
  · exact le_rfl

theorem length_running_step (h : c.running.length ≤ env.threadCount) (e : Event) :
    (c.step env e).1.running.length ≤ env.threadCount := by
  unfold step
  split
  · exact h
  · cases e with
    | connect => exact h
    | receive p =>
      dsimp only
      split <;> exact h
    | take =>
      dsimp only
      split
      · split
        · next hlt =>
          rw [List.length_append, List.length_singleton]
          omega
        · exact h
      · exact h
    | update i => exact (length_running_update c i).trans h
    | post i =>
      dsimp only
      split
      · exact (List.length_eraseIdx_le _ _).trans h
      · exact h
    | gui =>
      dsimp only
      unfold runGui
      split <;> exact h
    | logout => exact h

/-- **One worker.** Every run of a pool with a single worker is ordered. -/
theorem along_ordered_of_threadCount_eq_one (hone : env.threadCount = 1) (es : List Event) :
    Machine.Along (step env) Ordered start es := by
  have hrun : ∀ (es : List Event) (c : Core), c.running.length ≤ env.threadCount →
      Machine.Along (step env) Ordered c es := by
    intro es
    induction es with
    | nil => exact fun _ _ => trivial
    | cons e es ih =>
      intro c hc
      exact ⟨ordered_of_length_le_one (hc.trans hone.le) e, ih _ (length_running_step hc e)⟩
  exact hrun es start (Nat.zero_le _)

theorem final_of_terminated (h : c.terminated = true) (es : List Event) :
    Machine.final (step env) c es = c := by
  induction es with
  | nil => rfl
  | cons e es ih =>
    rw [Machine.final_cons, show (step env c e).1 = c by unfold step; rw [if_pos h]]
    exact ih

end Core

namespace Core

variable {env : Env} {c : Core}

theorem running_eq {i : ℕ} {r : Running} (h : c.running[i]? = some r) :
    c.running = c.running.take i ++ r :: c.running.drop (i + 1) := by
  obtain ⟨hi, rfl⟩ := List.getElem?_eq_some_iff.mp h
  rw [List.getElem_cons_drop, List.take_append_drop]

theorem update_eq {i : ℕ} {t : Task} (h : c.running[i]? = some (.taken t))
    (ht : (c.update i).terminated = false) :
    c.update i = { c with
      data := (c.data.runStore t).1
      running := c.running.take i ++ ((handed (c.data.runStore t).2).map .posting).toList ++
        c.running.drop (i + 1) } := by
  have hi := (List.getElem?_eq_some_iff.mp h).1
  unfold update at ht ⊢
  rw [h] at ht ⊢
  dsimp only at ht ⊢
  cases hd : c.data.runStore t with
  | mk d o =>
    rw [hd] at ht
    cases o with
    | error e => cases ht
    | ok o =>
      cases o with
      | none =>
        dsimp only [handed]
        rw [List.eraseIdx_eq_take_drop_succ, Option.map_none, Option.toList_none, List.append_nil]
      | some x =>
        dsimp only [handed]
        rw [List.set_eq_take_append_cons_drop, if_pos hi, Option.map_some, Option.toList_some,
          List.append_assoc, List.singleton_append]

theorem update_live (hc : c.connected = true) (i : ℕ) :
    (c.update i).connected = true ∧
      (c.terminated = false → (c.update i).terminated = true → (c.update i).running ≠ []) := by
  unfold update
  cases hr : c.running[i]? with
  | none => exact ⟨hc, fun h h' => absurd (h'.symm.trans h) (by decide)⟩
  | some r =>
  cases r with
  | posting x => exact ⟨hc, fun h h' => absurd (h'.symm.trans h) (by decide)⟩
  | taken t =>
    dsimp only
    split
    · refine ⟨hc, fun _ _ hnil => ?_⟩
      dsimp only at hnil
      rw [hnil] at hr
      cases hr
    · exact ⟨hc, fun h h' => absurd (h'.symm.trans h) (by decide)⟩
    · exact ⟨hc, fun h h' => absurd (h'.symm.trans h) (by decide)⟩

/-- Without a logout a run stays connected, and is idle only while no task has thrown. -/
theorem step_live (env : Env) (hc : c.connected = true) (ht : c.terminated = false) {e : Event}
    (he : e ≠ .logout) :
    (c.step env e).1.connected = true ∧
      ((c.step env e).1.terminated = true → (c.step env e).1.running ≠ []) := by
  have hlive : ∀ c' : Core, c'.terminated = c.terminated → c'.terminated = true →
      c'.running ≠ [] := fun c' h h' => absurd (h'.symm.trans (h.trans ht)) (by decide)
  unfold step
  rw [if_neg (by rw [ht]; decide)]
  cases e with
  | connect => exact ⟨rfl, hlive _ rfl⟩
  | receive p =>
    dsimp only
    split
    · exact ⟨hc, hlive _ rfl⟩
    · exact ⟨hc, hlive _ rfl⟩
  | take =>
    dsimp only
    split
    · split
      · exact ⟨hc, hlive _ rfl⟩
      · exact ⟨hc, hlive _ rfl⟩
    · exact ⟨hc, hlive _ rfl⟩
  | update i => exact ⟨(update_live hc i).1, (update_live hc i).2 ht⟩
  | post i =>
    dsimp only
    split
    · exact ⟨hc, hlive _ rfl⟩
    · exact ⟨hc, hlive _ rfl⟩
  | gui =>
    dsimp only
    unfold runGui
    split
    · exact ⟨hc, hlive _ rfl⟩
    · exact ⟨hc, hlive _ rfl⟩
    · exact ⟨hc, hlive _ rfl⟩
  | logout => exact absurd rfl he

end Core

namespace Lane

variable {env : Env} {σ μ : Type} (L : Lane env σ μ) {c : Core}

/-- Only the work of the lane's own store tells states apart. -/
theorem outcome_congr {c c' : Core} (hd : L.pair c'.data = L.pair c.data)
    (hi : L.own c'.items = L.own c.items) : L.outcome c' = L.outcome c := by
  unfold outcome
  rw [hd, hi]

theorem outcome_receive (p : Packet) :
    L.outcome { c with gui := c.gui ++ [.received p] } =
      L.pipeline.drain (L.outcome c) (L.own (p.tasks.map .task)) := by
  unfold outcome
  rw [← drain_append, ← own_append]
  congr 2
  simp [Core.items, Core.posted, Core.waiting, GuiEvent.snap?, GuiEvent.tasks]

theorem outcome_take {t : Task} {queue : List Task} (h : c.queue = t :: queue) :
    L.outcome { c with queue := queue, running := c.running ++ [.taken t] } = L.outcome c := by
  refine L.outcome_congr rfl (congrArg L.own ?_)
  simp [Core.items, Core.posted, Core.waiting, h, Running.work]

theorem own_handed (d : Data) (t : Task) :
    L.own (((handed (d.runStore t).2).map Running.posting).toList.map Running.work) =
      if t.store = L.id then ((handed (d.runStore t).2).map .snap).toList else [] := by
  cases ho : handed (d.runStore t).2 with
  | none => split <;> rfl
  | some x =>
    have hx := Data.store_handed ho
    split
    · next h => exact L.own_cons_of_eq (w := .snap x) (hx.trans h) []
    · next h => exact L.own_cons_of_ne (w := .snap x) (fun he => h (hx.symm.trans he)) []

theorem store_work (r : Running) : r.work.store = r.store := by cases r <;> rfl

theorem task_notMem_of_ordered {i : ℕ} {t : Task} (hr : c.running[i]? = some (.taken t))
    (ho : c.Ordered (.update i)) (hs : t.store = L.id) (t' : Task) :
    .task t' ∉ L.own c.posted ++ L.own ((c.running.take i).map Running.work) := by
  intro h
  obtain h | h := List.mem_append.mp h
  · obtain ⟨x, -, hx⟩ := List.mem_map.mp (List.mem_of_mem_filter h)
    cases hx
  · obtain ⟨hm, hid⟩ := List.mem_filter.mp h
    obtain ⟨r, hrm, hw⟩ := List.mem_map.mp hm
    have hst : r.store = L.id := by
      rw [← store_work, hw]
      exact of_decide_eq_true hid
    cases r with
    | posting x => cases hw
    | taken t'' => exact ho _ hr rfl _ hrm rfl (hst.trans hs.symm)

/-- An update in the order of the tasks takes nothing from what the lane comes to. -/
theorem outcome_update {i : ℕ} (ho : c.Ordered (.update i))
    (ht : (c.update i).terminated = false) : L.outcome (c.update i) = L.outcome c := by
  cases hr : c.running[i]? with
  | none => unfold Core.update; rw [hr]
  | some r =>
  cases r with
  | posting x => unfold Core.update; rw [hr]
  | taken t =>
  have hitems : ∀ (d : Data) (ws : List Running),
      L.own (Core.items { c with
        data := d
        running := c.running.take i ++ ws ++ c.running.drop (i + 1) }) =
        (L.own c.posted ++ L.own ((c.running.take i).map Running.work)) ++
          L.own (ws.map Running.work) ++
            (L.own ((c.running.drop (i + 1)).map Running.work) ++ L.own c.waiting) := by
    intro d ws
    simp only [Core.items, Core.posted, Core.waiting, List.map_append, own_append,
      List.append_assoc]
  have hc : c = { c with running := c.running.take i ++ [.taken t] ++ c.running.drop (i + 1) } := by
    rw [List.append_assoc, List.singleton_append, ← Core.running_eq hr]
  have hold := hitems c.data [.taken t]
  rw [← hc] at hold
  have hm := L.model_runStore c.data t
  rw [Core.update_eq hr ht]
  unfold outcome pair
  rw [hitems, own_handed, hold, hm]
  dsimp only
  by_cases hs : t.store = L.id
  · have hu := L.runStore c.data t hs
    have hown : L.own ([Running.taken t].map Running.work) = [.task t] :=
      L.own_cons_of_eq (w := .task t) hs []
    rw [if_pos hs, hown, show L.store (c.data.runStore t).1 = _ from congrArg Prod.fst hu,
      show handed (c.data.runStore t).2 = _ from congrArg Prod.snd hu,
      drain_update _ _ _ _ _ (L.task_notMem_of_ordered hr ho hs), List.append_cons]
  · have hown : L.own ([Running.taken t].map Running.work) = [] :=
      L.own_cons_of_ne (w := .task t) hs []
    rw [if_neg hs, hown, L.runStore_other c.data t hs]

theorem outcome_post {i : ℕ} {x : Snapshot} (hr : c.running[i]? = some (.posting x))
    (ho : c.Ordered (.post i)) :
    L.outcome { c with running := c.running.eraseIdx i, gui := c.gui ++ [.update x] } =
      L.outcome c := by
  refine L.outcome_congr rfl ?_
  have hnew : L.own (Core.items { c with
      running := c.running.eraseIdx i, gui := c.gui ++ [.update x] }) =
      L.own c.posted ++ L.own [.snap x] ++ L.own ((c.running.take i).map Running.work) ++
        (L.own ((c.running.drop (i + 1)).map Running.work) ++ L.own c.waiting) := by
    have hsnap : [GuiEvent.update x].filterMap GuiEvent.snap? = [x] := rfl
    have htasks : [GuiEvent.update x].flatMap GuiEvent.tasks = [] := rfl
    simp only [Core.items, Core.posted, Core.waiting, List.eraseIdx_eq_take_drop_succ,
      List.filterMap_append, List.flatMap_append, List.map_append, own_append, hsnap, htasks,
      List.append_nil, List.append_assoc, List.map_singleton]
  have hold : L.own c.items =
      L.own c.posted ++ L.own ((c.running.take i).map Running.work) ++ L.own [.snap x] ++
        (L.own ((c.running.drop (i + 1)).map Running.work) ++ L.own c.waiting) := by
    unfold Core.items
    conv_lhs => rw [Core.running_eq hr]
    rw [List.append_cons]
    simp only [List.map_append, own_append, List.append_assoc, List.map_singleton, Running.work]
  rw [hnew, hold]
  by_cases hs : x.store = L.id
  · have hnil : L.own ((c.running.take i).map Running.work) = [] := by
      refine L.own_eq_nil fun w hw => ?_
      obtain ⟨r, hrm, rfl⟩ := List.mem_map.mp hw
      rw [store_work, ← hs]
      exact ho _ hr rfl r hrm
    rw [hnil, List.append_nil, List.append_nil]
  · have hnil : L.own [.snap x] = [] := L.own_cons_of_ne (w := .snap x) hs []
    rw [hnil, List.append_nil, List.append_nil]

theorem outcome_runGui : L.outcome (c.runGui env).1 = L.outcome c := by
  unfold Core.runGui
  cases hg : c.gui with
  | nil => rfl
  | cons e gui =>
    cases e with
    | received p =>
      have hsnap : (GuiEvent.received p :: gui).filterMap GuiEvent.snap? =
        gui.filterMap GuiEvent.snap? := rfl
      have htasks : (GuiEvent.received p :: gui).flatMap GuiEvent.tasks =
        p.tasks ++ gui.flatMap GuiEvent.tasks := rfl
      refine L.outcome_congr rfl (congrArg L.own ?_)
      simp only [Core.items, Core.posted, Core.waiting, hg, hsnap, htasks, List.append_assoc]
    | update x =>
      have hitems : c.items = .snap x :: Core.items { c with gui := gui } := by
        simp only [Core.items, Core.posted, Core.waiting, hg]
        rfl
      unfold outcome
      rw [hitems]
      by_cases hs : x.store = L.id
      · rw [L.own_cons_of_eq (w := .snap x) hs, drain_cons]
        congr 1
        exact Prod.ext (L.store_applySnapshot c.data x) (L.applySnapshot c.data x)
      · rw [L.own_cons_of_ne (w := .snap x) hs]
        congr 1
        exact Prod.ext (L.store_applySnapshot c.data x) (L.applySnapshot_other c.data x hs)

/-- **Step.** An ordered step adds the tasks of a packet received to what the lane comes to, and
nothing else. -/
theorem outcome_step (hc : c.connected = true) (ht : c.terminated = false) {e : Event}
    (he : e ≠ .logout) (ho : c.Ordered e) (ht' : (c.step env e).1.terminated = false) :
    L.outcome (c.step env e).1 =
      L.pipeline.drain (L.outcome c) (L.own (e.tasks.map .task)) := by
  unfold Core.step at ht' ⊢
  rw [if_neg (by rw [ht]; decide)] at ht' ⊢
  cases e with
  | connect => rfl
  | receive p =>
    dsimp only
    rw [if_pos hc]
    exact L.outcome_receive p
  | take =>
    dsimp only
    split
    · next t queue hq =>
      split
      · exact L.outcome_take hq
      · rfl
    · rfl
  | update i => exact L.outcome_update ho ht'
  | post i =>
    dsimp only
    split
    · next x hr => exact L.outcome_post hr ho
    · rfl
  | gui => exact L.outcome_runGui
  | logout => exact absurd rfl he

/-- **Run.** When an ordered run ends idle, store and model are what the lane came to at its start,
with the tasks of the packets received since. -/
theorem pair_final {c : Core} {es : List Event} (hc : c.connected = true) (ht : c.terminated = false)
    (ho : Machine.Along (Core.step env) Core.Ordered c es) (hn : .logout ∉ es)
    (hi : (Machine.final (Core.step env) c es).Idle) :
    L.pair (Machine.final (Core.step env) c es).data =
      L.pipeline.drain (L.outcome c) (L.own ((es.flatMap Event.tasks).map .task)) := by
  induction es generalizing c with
  | nil =>
    obtain ⟨hg, hq, hr⟩ := hi
    have hitems : c.items = [] := by
      unfold Core.items Core.posted Core.waiting
      rw [show c.gui = [] from hg, show c.queue = [] from hq, show c.running = [] from hr]
      rfl
    unfold outcome
    rw [hitems]
    rfl
  | cons e es ih =>
    obtain ⟨ho, hos⟩ := ho
    obtain ⟨hne, hns⟩ := List.ne_and_not_mem_of_not_mem_cons hn
    obtain ⟨hc', hlive⟩ := Core.step_live env hc ht hne.symm
    rw [Machine.final_cons] at hi ⊢
    cases ht' : (Core.step env c e).1.terminated with
    | true =>
      rw [Core.final_of_terminated ht'] at hi
      exact absurd hi.2.2 (hlive ht')
    | false =>
      rw [ih hc' ht' hos hns hi, L.outcome_step hc ht hne.symm ho ht', ← drain_append,
        ← own_append, ← List.map_append, List.flatMap_cons]

/-- The packets of an ordered run that ends idle have done what they do one after the other. -/
theorem pair_final_start {es : List Event}
    (ho : Machine.Along (Core.step env) Core.Ordered Core.start es) (hn : .logout ∉ es)
    (hi : (Machine.final (Core.step env) Core.start es).Idle) :
    L.pair (Machine.final (Core.step env) Core.start es).data =
      L.pair (Data.init.processAll env (Core.received es)) := by
  rw [L.pair_final rfl rfl ho hn hi, L.pair_processAll, Core.flatMap_received]
  rfl

end Lane

namespace Core

/-- **Order.** In every ordered run, once the queue, the workers and the GUI thread are idle, the
models are as the packets one after the other make them. -/
theorem in_order (env : Env) (es : List Event) (hn : Event.logout ∉ es)
    (ho : Machine.Along (step env) Ordered start es)
    (hi : (Machine.final (step env) start es).Idle) :
    (Machine.final (step env) start es).data.cameraModel =
        (Data.init.processAll env (received es)).cameraModel ∧
      (Machine.final (step env) start es).data.deviceModel =
        (Data.init.processAll env (received es)).deviceModel ∧
      (Machine.final (step env) start es).data.serverStatus =
        (Data.init.processAll env (received es)).serverStatus :=
  ⟨congrArg Prod.snd ((Lane.camera env).pair_final_start ho hn hi),
    congrArg Prod.snd ((Lane.device env).pair_final_start ho hn hi),
    congrArg Prod.snd ((Lane.server env).pair_final_start ho hn hi)⟩

/-- Two camera lists on two workers, the tasks of each store in order. -/
def sampleRun : List Event :=
  [.receive (.camera (sampleCamera false)), .receive (.camera (sampleCamera true)), .gui, .gui,
    .take, .take, .update 1, .update 0, .post 1, .post 0, .take, .take, .update 0, .update 1,
    .post 0, .post 0, .gui, .gui, .gui, .gui]

theorem in_order_sample :
    (Machine.final (step .sample) start sampleRun).data.cameraModel =
        (Data.init.processAll .sample (received sampleRun)).cameraModel ∧
      (Machine.final (step .sample) start sampleRun).data.deviceModel =
        (Data.init.processAll .sample (received sampleRun)).deviceModel ∧
      (Machine.final (step .sample) start sampleRun).data.serverStatus =
        (Data.init.processAll .sample (received sampleRun)).serverStatus :=
  in_order .sample sampleRun (by simp [sampleRun]) (by decide) ⟨rfl, rfl, rfl⟩

/-- What the camera model holds of a camera: online flag, title and type of each of its rows. -/
def cameraValues (m : CameraModel) (cameraId : String) : List (Bool × String × String) :=
  (m.cameras.filter fun cam => cam.cameraId = cameraId).map fun cam =>
    (cam.isOnline, cam.title, cam.cameraType)

/-- What the device model holds of a device: online flag, type and dynamic values. -/
def deviceValues (m : DeviceModel) (ip : String) :
    List (Bool × String × Double × Double × Double × ℤ) :=
  (m.devices.filter fun d => d.ip = ip).map fun d =>
    (d.isOnline, d.type, d.cpu, d.memory, d.temp, d.uptime)

theorem wellTyped_sampleCamera (isOnline : Bool) : (Packet.camera (sampleCamera isOnline)).WellTyped := by
  intro t ht d
  obtain rfl | ht := List.mem_cons.mp ht
  · exact ⟨_, rfl⟩
  · obtain rfl := List.mem_singleton.mp ht
    exact ⟨_, rfl⟩

/-- **Overtaking.** Of two camera lists the second may be filed first; the camera then stays
offline. -/
theorem in_order_fails :
    ¬ ∀ (env : Env) (ps : List Packet) (es : List Event), (∀ p ∈ ps, p.WellTyped) →
      received es = ps → Event.logout ∉ es → (Machine.final (step env) start es).Idle →
      (∀ cameraId, cameraValues (Machine.final (step env) start es).data.cameraModel cameraId =
        cameraValues (Data.init.processAll env ps).cameraModel cameraId) ∧
      ∀ ip, deviceValues (Machine.final (step env) start es).data.deviceModel ip =
        deviceValues (Data.init.processAll env ps).deviceModel ip := by
  intro h
  have hw : ∀ p ∈ [Packet.camera (sampleCamera false), .camera (sampleCamera true)],
      p.WellTyped := by
    intro p hp
    obtain rfl | hp := List.mem_cons.mp hp
    · exact wellTyped_sampleCamera false
    · rw [List.mem_singleton.mp hp]
      exact wellTyped_sampleCamera true
  have hcam := (h .sample _ [.receive (.camera (sampleCamera false)),
    .receive (.camera (sampleCamera true)), .gui, .gui, .take, .take, .update 1, .post 1, .take,
    .update 1, .post 1, .update 0, .post 0, .take, .update 0, .post 0, .gui, .gui, .gui, .gui]
    hw rfl (by simp) ⟨rfl, rfl, rfl⟩).1 "10.0.0.1/0"
  exact absurd hcam (by decide)

end Core

end AnoMap
