import AnoMap.Core.Wiring
import AnoMap.Thread.ThreadPool

/-!
# Shutdown

`Core::shutdown` on the GUI thread against the workers of the pool: the stores are reset one after
the other, the pool last, whose destructor lets the workers run what is left in the queue. The
event queue of the GUI thread rests meanwhile, so nothing is submitted. A task is the list of the
calls it makes on a store; a call is one step, made when it returns.

* `PoolTask.accesses`: the calls of the tasks the application submits.
* `Shutdown.step`: one step of the GUI thread or of a worker, with the calls made.
* `pending_iff`: the calls still to come are those of the next step and those after it.
* **`shutdown_order`**: no call reaches a store that was reset if no store is reset while a call of
  it is to come, and in the runs that end with every worker returned only then.
-/

set_option autoImplicit false

namespace AnoMap

open Thread

/-- The tasks of the pool. A task that reads a store of its text's devices first takes a snapshot,
then updates the entries that match; `quiet` is one that calls no store. -/
inductive PoolTask where
  | bindStoreToModel (store : StoreId)
  | metaResult (matched : ℕ)
  | aiResult (matched : ℕ)
  | imageData
  | quiet
  deriving DecidableEq, Repr

/-- The calls on the stores, in order. -/
def PoolTask.accesses : PoolTask → List StoreId
  | .bindStoreToModel store => [store]
  | .metaResult matched => .camera :: List.replicate matched .camera
  | .aiResult matched => .camera :: List.replicate matched .camera
  | .imageData => [.camera]
  | .quiet => []

/-- The statements of `Core::shutdown`; the last three are the destructor of the pool. -/
inductive Statement where
  | clearVideos
  | disconnect
  | resetAlarmDispatcher
  | resetStore (store : StoreId)
  | resetNetworkService
  | stop
  | notifyAll
  | join
  deriving DecidableEq, Repr

def shutdownStatements : List Statement :=
  [.clearVideos, .disconnect, .resetAlarmDispatcher, .resetStore .server, .resetStore .device,
    .resetStore .camera, .resetNetworkService, .stop, .notifyAll, .join]

/-- A call of a worker on a store. -/
structure Access where
  store : StoreId
  dangling : Bool
  deriving DecidableEq, Repr

/-- `body` is what the task of each running worker has still to call. -/
structure Shutdown where
  statements : List Statement
  reset : List StoreId
  pool : ThreadPool PoolTask
  body : ℕ → List StoreId

inductive ShutdownEvent where
  | next
  | access (i : ℕ)
  | lock (i : ℕ)
  | wake (i : ℕ)
  | notifyOne (i : ℕ)
  | finish (i : ℕ)
  | throw (i : ℕ)

/-- What the pool has to do when `shutdown` is called: any queue, any running tasks. -/
structure Backlog where
  pool : ThreadPool PoolTask
  body : ℕ → List StoreId
  left : ¬ pool.AllExited

/-! ## The pool -/

section Pool

variable {τ : Type} {p : ThreadPool τ}

/-- The worker runs a task. -/
def busy (p : ThreadPool τ) (i : ℕ) : Bool := ((p.pool[i]?).bind Worker.job?).isSome

theorem busy_set {q : ThreadPool τ} {i : ℕ} {w : Worker τ} (hi : p.pool[i]? = some w)
    (w' : Worker τ) (hq : q.pool = p.pool.set i w') (j : ℕ) :
    busy q j = if j = i then w'.job?.isSome else busy p j := by
  obtain ⟨hlt, -⟩ := List.getElem?_eq_some_iff.mp hi
  unfold busy
  rw [hq]
  split_ifs with hj
  · rw [hj, List.getElem?_set_self hlt]
    rfl
  · rw [List.getElem?_set_ne (Ne.symm hj)]

/-- Neither the queue nor which workers run a task is changed. -/
def Frame (p q : ThreadPool τ) : Prop := q.queue = p.queue ∧ ∀ j, busy q j = busy p j

theorem frame_set {q : ThreadPool τ} {i : ℕ} {w w' : Worker τ} (hi : p.pool[i]? = some w)
    (hp : q.pool = p.pool.set i w') (hq : q.queue = p.queue) (hw : w'.job?.isSome = w.job?.isSome) :
    Frame p q := by
  refine ⟨hq, fun j => ?_⟩
  rw [busy_set hi w' hp]
  split_ifs with hj
  · rw [hj, hw, busy, hi]
    rfl
  · rfl

theorem frame_refl (p : ThreadPool τ) : Frame p p := ⟨rfl, fun _ => rfl⟩

theorem frame_wake (p : ThreadPool τ) (i : ℕ) : Frame p (p.step (.wake i)).1 := by
  unfold ThreadPool.step
  by_cases ht : p.terminated = true
  · rw [if_pos ht]
    exact frame_refl p
  · rw [if_neg ht]
    dsimp only
    split
    · next hi => exact frame_set hi rfl rfl rfl
    · exact frame_refl p

theorem frame_notifyOne (p : ThreadPool τ) (i : ℕ) : Frame p (p.step (.notifyOne i)).1 := by
  unfold ThreadPool.step
  by_cases ht : p.terminated = true
  · rw [if_pos ht]
    exact frame_refl p
  · rw [if_neg ht]
    unfold ThreadPool.notifyOne
    dsimp only
    by_cases hz : p.notifies = 0
    · rw [if_pos hz]
      exact frame_refl p
    · rw [if_neg hz]
      split
      · next hi => exact frame_set hi rfl rfl rfl
      · split_ifs
        · exact frame_refl p
        · exact ⟨rfl, fun _ => rfl⟩

theorem frame_stop (p : ThreadPool τ) : Frame p (p.step .stop).1 := by
  unfold ThreadPool.step
  by_cases ht : p.terminated = true
  · rw [if_pos ht]
    exact frame_refl p
  · rw [if_neg ht]
    dsimp only
    split_ifs
    · exact ⟨rfl, fun _ => rfl⟩
    · exact frame_refl p

theorem frame_notifyAll (p : ThreadPool τ) : Frame p (p.step .notifyAll).1 := by
  unfold ThreadPool.step
  by_cases ht : p.terminated = true
  · rw [if_pos ht]
    exact frame_refl p
  · rw [if_neg ht]
    dsimp only
    split_ifs
    · refine ⟨rfl, fun j => ?_⟩
      unfold busy
      rw [List.getElem?_map]
      cases p.pool[j]? with
      | none => rfl
      | some w => cases w <;> rfl
    · exact frame_refl p

theorem frame_join (p : ThreadPool τ) : Frame p (p.step .join).1 := by
  unfold ThreadPool.step
  by_cases ht : p.terminated = true
  · rw [if_pos ht]
    exact frame_refl p
  · rw [if_neg ht]
    dsimp only
    split_ifs
    · exact ⟨rfl, fun _ => rfl⟩
    · exact frame_refl p

theorem lock_cases (p : ThreadPool τ) (i : ℕ) :
    (Frame p (p.step (.lock i)).1 ∧ (p.step (.lock i)).2 = []) ∨
      ∃ job queue, p.queue = job :: queue ∧ busy p i = false ∧
        (p.step (.lock i)).1.queue = queue ∧ (p.step (.lock i)).2 = [.took job] ∧
        ∀ j, busy (p.step (.lock i)).1 j = if j = i then true else busy p j := by
  unfold ThreadPool.step
  by_cases ht : p.terminated = true
  · rw [if_pos ht]
    exact Or.inl ⟨frame_refl p, rfl⟩
  · rw [if_neg ht]
    unfold ThreadPool.lock
    dsimp only
    split
    · next hi =>
      split
      · exact Or.inl ⟨frame_set hi rfl rfl (by split_ifs <;> rfl), rfl⟩
      · next job queue hq =>
        refine Or.inr ⟨job, queue, hq, ?_, rfl, rfl, fun j => busy_set hi (.running job) rfl j⟩
        rw [busy, hi]
        rfl
    · exact Or.inl ⟨frame_refl p, rfl⟩

/-- The worker `i` ends its task, and nothing else of that changes. -/
def Ends (p q : ThreadPool τ) (i : ℕ) : Prop :=
  q.queue = p.queue ∧ (busy q i = true → busy p i = true) ∧ ∀ j, j ≠ i → busy q j = busy p j

theorem ends_leave (p : ThreadPool τ) (i : ℕ) (w : Worker τ) : Ends p (p.leave i w).1 i := by
  unfold ThreadPool.leave
  split
  · next job hi =>
    refine ⟨rfl, fun _ => by rw [busy, hi]; rfl, fun j hj => ?_⟩
    exact (busy_set hi w rfl j).trans (if_neg hj)
  · exact ⟨rfl, id, fun _ _ => rfl⟩

theorem ends_throw (p : ThreadPool τ) (i : ℕ) : Ends p (p.throw i).1 i := by
  unfold ThreadPool.throw
  split
  · exact ends_leave p i .threw
  · exact ends_leave p i .ready

end Pool

namespace Shutdown

def start (b : Backlog) : Shutdown := ⟨shutdownStatements, [], b.pool, b.body⟩

/-- The calls the task of worker `i` has still to make. -/
def remaining (s : Shutdown) (i : ℕ) : List StoreId := if busy s.pool i then s.body i else []

/-- The next statement; the last one waits for the workers. -/
def next (s : Shutdown) : Shutdown :=
  match s.statements with
  | [] => s
  | .resetStore store :: rest => { s with statements := rest, reset := store :: s.reset }
  | .stop :: rest => { s with statements := rest, pool := (s.pool.step .stop).1 }
  | .notifyAll :: rest => { s with statements := rest, pool := (s.pool.step .notifyAll).1 }
  | .join :: rest =>
    if s.pool.AllExited then { s with statements := rest, pool := (s.pool.step .join).1 } else s
  | _ :: rest => { s with statements := rest }

/-- A worker takes the next task, if there is one. -/
def lock (s : Shutdown) (i : ℕ) : Shutdown :=
  match s.pool.step (.lock i) with
  | (pool, [.took job]) => { s with pool := pool, body := Function.update s.body i job.task.accesses }
  | (pool, _) => { s with pool := pool }

def step (s : Shutdown) (e : ShutdownEvent) : Shutdown × List Access :=
  if s.pool.terminated then (s, [])
  else
    match e with
    | .next => (s.next, [])
    | .access i =>
      (match s.remaining i with
        | store :: rest =>
          ({ s with body := Function.update s.body i rest }, [⟨store, decide (store ∈ s.reset)⟩])
        | [] => (s, []))
    | .lock i => (s.lock i, [])
    | .wake i => ({ s with pool := (s.pool.step (.wake i)).1 }, [])
    | .notifyOne i => ({ s with pool := (s.pool.step (.notifyOne i)).1 }, [])
    | .finish i =>
      (if s.remaining i = [] then { s with pool := (s.pool.step (.finish i)).1 } else s, [])
    | .throw i =>
      (if s.remaining i = [] then { s with pool := (s.pool.step (.throw i)).1 } else s, [])

/-- A queued or a running task has still to call the store. -/
def Pending (s : Shutdown) (store : StoreId) : Prop :=
  (∃ job ∈ s.pool.queue, store ∈ job.task.accesses) ∨ ∃ i, store ∈ s.remaining i

/-- No call of the run reaches a store after its reset. -/
def Safe (b : Backlog) (es : List ShutdownEvent) : Prop :=
  ∀ a ∈ Machine.outputs step (start b) es, a.dangling = false

/-- The step does not reset a store that has still to be called. -/
def ResetsQuietly (s : Shutdown) : ShutdownEvent → Prop
  | .next => s.pool.terminated = false →
      ∀ store rest, s.statements = .resetStore store :: rest → ¬ s.Pending store
  | _ => True

/-! ## Calls still to come -/

variable {s : Shutdown}

theorem pending_of_frame {q : ThreadPool PoolTask} (hf : Frame s.pool q) {t : Shutdown}
    (ht : t.pool = q) (hb : t.body = s.body) (store : StoreId) : t.Pending store ↔ s.Pending store := by
  have hrem : ∀ i, t.remaining i = s.remaining i := fun i => by
    rw [remaining, remaining, ht, hf.2 i, hb]
  unfold Pending
  rw [ht, hf.1]
  simp only [hrem]

theorem pending_next (s : Shutdown) (store : StoreId) : s.next.Pending store ↔ s.Pending store := by
  unfold next
  split
  · exact Iff.rfl
  · exact Iff.rfl
  · refine pending_of_frame (frame_stop s.pool) ?_ ?_ store <;> rfl
  · refine pending_of_frame (frame_notifyAll s.pool) ?_ ?_ store <;> rfl
  · split_ifs
    · refine pending_of_frame (frame_join s.pool) ?_ ?_ store <;> rfl
    · exact Iff.rfl
  · exact Iff.rfl

theorem pending_of_take {job : Thread.Job PoolTask} {queue : List (Thread.Job PoolTask)} {i : ℕ}
    (hq : s.pool.queue = job :: queue) (hi : busy s.pool i = false) {t : Shutdown}
    (hqueue : t.pool.queue = queue)
    (hb : ∀ j, busy t.pool j = if j = i then true else busy s.pool j)
    (hbody : t.body = Function.update s.body i job.task.accesses) (store : StoreId) :
    t.Pending store ↔ s.Pending store := by
  have hold : s.remaining i = [] := by rw [remaining, hi]; rfl
  have hself : t.remaining i = job.task.accesses := by
    rw [remaining, hb, if_pos rfl, hbody, Function.update_self]
    rfl
  have hother : ∀ j, j ≠ i → t.remaining j = s.remaining j := fun j hj => by
    rw [remaining, remaining, hb, if_neg hj, hbody, Function.update_of_ne hj]
  unfold Pending
  rw [hqueue, hq, List.exists_mem_cons_iff, or_right_comm, or_comm]
  refine or_congr_left ?_
  constructor
  · rintro ⟨j, hj⟩
    by_cases h : j = i
    · rw [h, hself] at hj
      exact Or.inl hj
    · rw [hother j h] at hj
      exact Or.inr ⟨j, hj⟩
  · rintro (hj | ⟨j, hj⟩)
    · exact ⟨i, hself ▸ hj⟩
    · refine ⟨j, ?_⟩
      have h : j ≠ i := fun h => by
        rw [h, hold] at hj
        exact List.not_mem_nil hj
      rwa [hother j h]

theorem pending_lock (s : Shutdown) (i : ℕ) (store : StoreId) :
    (s.lock i).Pending store ↔ s.Pending store := by
  unfold lock
  rcases lock_cases s.pool i with ⟨hf, hout⟩ | ⟨job, queue, hq, hbusy, hqueue, hout, hb⟩
  · have hstep : s.pool.step (.lock i) = ((s.pool.step (.lock i)).1, []) := Prod.ext rfl hout
    rw [hstep]
    refine pending_of_frame hf ?_ ?_ store <;> rfl
  · have hstep : s.pool.step (.lock i) = ((s.pool.step (.lock i)).1, [.took job]) :=
      Prod.ext rfl hout
    rw [hstep]
    refine pending_of_take hq hbusy ?_ ?_ ?_ store
    · exact hqueue
    · exact hb
    · rfl

theorem pending_of_end {q : ThreadPool PoolTask} {i : ℕ} (hi : s.remaining i = [])
    (hq : Ends s.pool q i) {t : Shutdown} (ht : t.pool = q) (hbody : t.body = s.body)
    (store : StoreId) : t.Pending store ↔ s.Pending store := by
  obtain ⟨hqueue, hend, hb⟩ := hq
  have hrem : ∀ j, t.remaining j = s.remaining j := by
    intro j
    by_cases hj : j = i
    · rw [hj, hi, remaining, ht, hbody]
      cases hbusy : busy q i with
      | false => rfl
      | true =>
        rw [remaining, hend hbusy] at hi
        exact hi
    · rw [remaining, remaining, ht, hb j hj, hbody]
  unfold Pending
  simp only [hrem, ht, hqueue]

theorem pending_of_access {i : ℕ} {made : StoreId} {rest : List StoreId}
    (hi : s.remaining i = made :: rest) {t : Shutdown} (ht : t.pool = s.pool)
    (hbody : t.body = Function.update s.body i rest) (store : StoreId) :
    s.Pending store ↔ made = store ∨ t.Pending store := by
  have hbusy : busy s.pool i = true := by
    by_contra hb
    rw [remaining, if_neg hb] at hi
    cases hi
  have hself : t.remaining i = rest := by
    rw [remaining, ht, hbusy, hbody, Function.update_self]
    rfl
  have hother : ∀ j, j ≠ i → t.remaining j = s.remaining j := fun j hj => by
    rw [remaining, remaining, ht, hbody, Function.update_of_ne hj]
  unfold Pending
  rw [ht, or_left_comm]
  refine or_congr_right ⟨fun ⟨j, hj⟩ => ?_, ?_⟩
  · by_cases h : j = i
    · rw [h, hi] at hj
      exact (List.mem_cons.mp hj).imp Eq.symm fun hm => ⟨i, hself ▸ hm⟩
    · exact Or.inr ⟨j, by rwa [hother j h]⟩
  · rintro (rfl | ⟨j, hj⟩)
    · exact ⟨i, hi ▸ List.mem_cons_self⟩
    · by_cases h : j = i
      · rw [h, hself] at hj
        exact ⟨i, hi ▸ List.mem_cons_of_mem made hj⟩
      · exact ⟨j, by rwa [← hother j h]⟩

/-- **The calls still to come** are those of the next step and those after it. -/
theorem pending_iff (s : Shutdown) (e : ShutdownEvent) (store : StoreId) : s.Pending store ↔
    (∃ a ∈ (s.step e).2, a.store = store) ∨ (s.step e).1.Pending store := by
  have hnone : ∀ {t : Shutdown}, (t.Pending store ↔ s.Pending store) →
      (s.Pending store ↔ (∃ a ∈ ([] : List Access), a.store = store) ∨ t.Pending store) := by
    intro t ht
    rw [ht]
    exact (or_iff_right fun ⟨_, ha, _⟩ => List.not_mem_nil ha).symm
  unfold step
  by_cases hterm : s.pool.terminated = true
  · rw [if_pos hterm]
    exact hnone Iff.rfl
  · rw [if_neg hterm]
    cases e with
    | next => exact hnone (pending_next s store)
    | access i =>
      dsimp only
      split
      · next made rest hi =>
        have hmade := pending_of_access (t := { s with body := Function.update s.body i rest })
          hi rfl rfl store
        refine hmade.trans (or_congr_left ⟨fun h => ⟨_, List.mem_singleton.mpr rfl, h⟩, ?_⟩)
        rintro ⟨a, ha, h⟩
        rw [List.mem_singleton.mp ha] at h
        exact h
      · exact hnone Iff.rfl
    | lock i => exact hnone (pending_lock s i store)
    | wake i => refine hnone (pending_of_frame (frame_wake s.pool i) ?_ ?_ store) <;> rfl
    | notifyOne i => refine hnone (pending_of_frame (frame_notifyOne s.pool i) ?_ ?_ store) <;> rfl
    | finish i =>
      dsimp only
      split_ifs with hi
      · refine hnone (pending_of_end hi (ends_leave s.pool i .ready) ?_ ?_ store)
        · exact congrArg Prod.fst (if_neg hterm)
        · rfl
      · exact hnone Iff.rfl
    | throw i =>
      dsimp only
      split_ifs with hi
      · refine hnone (pending_of_end hi (ends_throw s.pool i) ?_ ?_ store)
        · exact congrArg Prod.fst (if_neg hterm)
        · rfl
      · exact hnone Iff.rfl

/-! ## Runs -/

/-- A call is dangling when its store was reset before. -/
theorem dangling_of_mem {e : ShutdownEvent} {a : Access} (ha : a ∈ (s.step e).2) :
    a.dangling = decide (a.store ∈ s.reset) := by
  unfold step at ha
  by_cases hterm : s.pool.terminated = true
  · rw [if_pos hterm] at ha
    exact absurd ha List.not_mem_nil
  · rw [if_neg hterm] at ha
    cases e with
    | access i =>
      dsimp only at ha
      split at ha
      · rw [List.mem_singleton.mp ha]
      · exact absurd ha List.not_mem_nil
    | _ => exact absurd ha List.not_mem_nil

theorem reset_step (s : Shutdown) (e : ShutdownEvent) : (s.step e).1.reset = s.reset ∨
    e = .next ∧ s.pool.terminated = false ∧ ∃ store rest, s.statements = .resetStore store :: rest ∧
      (s.step e).1.reset = store :: s.reset := by
  unfold step
  by_cases hterm : s.pool.terminated = true
  · rw [if_pos hterm]
    exact Or.inl rfl
  · rw [if_neg hterm]
    cases e with
    | next =>
      dsimp only
      unfold next
      split
      · exact Or.inl rfl
      · next store rest hst =>
        exact Or.inr ⟨rfl, Bool.not_eq_true _ ▸ hterm, store, rest, hst, rfl⟩
      · exact Or.inl rfl
      · exact Or.inl rfl
      · exact Or.inl (by split_ifs <;> rfl)
      · exact Or.inl rfl
    | access i =>
      dsimp only
      split <;> exact Or.inl rfl
    | lock i =>
      dsimp only
      unfold lock
      split <;> exact Or.inl rfl
    | wake i => exact Or.inl rfl
    | notifyOne i => exact Or.inl rfl
    | finish i => exact Or.inl (by dsimp only; split_ifs <;> rfl)
    | throw i => exact Or.inl (by dsimp only; split_ifs <;> rfl)

/-- Stores that were reset have no call to come. -/
def Quiet (s : Shutdown) : Prop := ∀ store ∈ s.reset, ¬ s.Pending store

theorem Quiet.step (h : s.Quiet) {e : ShutdownEvent} (he : s.ResetsQuietly e) :
    (s.step e).1.Quiet := by
  intro store hm hp
  have hbefore : s.Pending store := (pending_iff s e store).mpr (Or.inr hp)
  rcases reset_step s e with hr | ⟨rfl, ht, store', rest, hst, hr⟩
  · exact h store (hr ▸ hm) hbefore
  · rw [hr] at hm
    rcases List.mem_cons.mp hm with rfl | hm
    · exact he ht store rest hst hbefore
    · exact h store hm hbefore

theorem safe_of_resetsQuietly {b : Backlog} {es : List ShutdownEvent}
    (h : Machine.Along step ResetsQuietly (start b) es) : Safe b es := by
  have hstart : (start b).Quiet := fun store hm => absurd hm List.not_mem_nil
  have hquiet := Machine.invariant_along step (P := Quiet) hstart (fun s e he hq => hq.step he) h
  intro a ha
  obtain ⟨entry, hentry, ha⟩ := List.mem_flatMap.mp ha
  obtain ⟨pre, post, hcut, ho⟩ := (Machine.mem_trace_iff step (start b) es entry).mp hentry
  rw [ho] at ha
  rw [dangling_of_mem ha]
  refine decide_eq_false fun hm => ?_
  refine hquiet pre ⟨entry.1 :: post, hcut.symm⟩ a.store hm ?_
  exact (pending_iff _ entry.1 a.store).mpr (Or.inl ⟨a, ha, rfl⟩)

/-- A call that is to come of a store that was reset stays to come while no call is dangling. -/
theorem pending_final {store : StoreId} (hr : store ∈ s.reset) (hp : s.Pending store)
    {es : List ShutdownEvent} (hsafe : ∀ a ∈ Machine.outputs step s es, a.dangling = false) :
    store ∈ (Machine.final step s es).reset ∧ (Machine.final step s es).Pending store := by
  induction es using List.reverseRecOn with
  | nil => exact ⟨hr, hp⟩
  | append_singleton es e ih =>
    rw [Machine.outputs_concat] at hsafe
    obtain ⟨hr', hp'⟩ := ih fun a ha => hsafe a (List.mem_append_left _ ha)
    rw [Machine.final_concat]
    constructor
    · rcases reset_step (Machine.final step s es) e with h | ⟨-, -, store', -, -, h⟩
      · rwa [h]
      · rw [h]
        exact List.mem_cons_of_mem store' hr'
    · refine ((pending_iff _ e store).mp hp').resolve_left fun ⟨a, ha, hstore⟩ => ?_
      have hd := dangling_of_mem ha
      rw [hsafe a (List.mem_append_right _ ha), hstore, decide_eq_true hr'] at hd
      cases hd

theorem drained_start (b : Backlog) : (start b).pool.Drained := fun h => absurd h b.left

theorem pool_step (s : Shutdown) (e : ShutdownEvent) : (s.step e).1.pool = s.pool ∨
    ∃ pe, (∀ overload task, pe ≠ .submit overload task) ∧
      (s.step e).1.pool = (s.pool.step pe).1 := by
  unfold step
  by_cases hterm : s.pool.terminated = true
  · rw [if_pos hterm]
    exact Or.inl rfl
  · rw [if_neg hterm]
    cases e with
    | next =>
      dsimp only
      unfold next
      split
      · exact Or.inl rfl
      · exact Or.inl rfl
      · exact Or.inr ⟨.stop, nofun, rfl⟩
      · exact Or.inr ⟨.notifyAll, nofun, rfl⟩
      · split_ifs
        · exact Or.inr ⟨.join, nofun, rfl⟩
        · exact Or.inl rfl
      · exact Or.inl rfl
    | access i =>
      dsimp only
      split <;> exact Or.inl rfl
    | lock i =>
      refine Or.inr ⟨.lock i, nofun, ?_⟩
      dsimp only
      unfold lock
      split <;> next h => rw [h]
    | wake i => exact Or.inr ⟨.wake i, nofun, rfl⟩
    | notifyOne i => exact Or.inr ⟨.notifyOne i, nofun, rfl⟩
    | finish i =>
      dsimp only
      split_ifs
      · exact Or.inr ⟨.finish i, nofun, rfl⟩
      · exact Or.inl rfl
    | throw i =>
      dsimp only
      split_ifs
      · exact Or.inr ⟨.throw i, nofun, rfl⟩
      · exact Or.inl rfl

theorem drained_final (b : Backlog) (es : List ShutdownEvent) :
    (Machine.final step (start b) es).pool.Drained := by
  refine Machine.invariant step (fun s => s.pool.Drained) (fun _ => True) (drained_start b)
    (fun s e _ h => ?_) es fun _ _ => trivial
  rcases pool_step s e with hp | ⟨pe, hpe, hp⟩
  · rwa [hp]
  · rw [hp]
    exact ThreadPool.drained_step_of_not_submit h hpe

theorem not_pending_of_allExited (h : s.pool.Drained) (hall : s.pool.AllExited) (store : StoreId) :
    ¬ s.Pending store := by
  rintro (⟨job, hj, -⟩ | ⟨i, hi⟩)
  · rw [h hall] at hj
    exact List.not_mem_nil hj
  · unfold remaining busy at hi
    cases hw : s.pool.pool[i]? with
    | none =>
      rw [hw] at hi
      exact List.not_mem_nil hi
    | some w =>
      have hx := hall w (List.mem_of_getElem? hw)
      rw [hw, Option.bind_some, (Worker.idle (Or.inr hx)).2] at hi
      exact List.not_mem_nil hi

/-- **The order of shutdown.** No call finds its store reset when no store is reset while a task has
still to call it; in a run that has ended, only then. -/
theorem shutdown_order (b : Backlog) (es : List ShutdownEvent) :
    (Machine.Along step ResetsQuietly (start b) es → Safe b es) ∧
      ((Machine.final step (start b) es).pool.AllExited → Safe b es →
        Machine.Along step ResetsQuietly (start b) es) := by
  refine ⟨safe_of_resetsQuietly, fun hall hsafe => ?_⟩
  refine (Machine.along_iff step _ es).mpr fun pre e post hcut => ?_
  cases e with
  | next =>
    intro ht store rest hst hp
    subst hcut
    have hstep : step (Machine.final step (start b) pre) .next =
        ((Machine.final step (start b) pre).next, []) := if_neg (by rw [ht]; decide)
    have hreset : store ∈ (Machine.final step (start b) pre).next.reset := by
      unfold next
      rw [hst]
      exact List.mem_cons_self
    unfold Safe at hsafe
    rw [Machine.outputs_append] at hsafe
    rw [Machine.final_append, Machine.final_cons, hstep] at hall
    have hrest : ∀ a ∈ Machine.outputs step (Machine.final step (start b) pre).next post,
        a.dangling = false := fun a ha => by
      refine hsafe a (List.mem_append_right _ ?_)
      rw [Machine.outputs, Machine.trace_cons, hstep]
      exact ha
    have hfinal := pending_final hreset ((pending_next _ store).mpr hp) hrest
    have hdrained := drained_final b (pre ++ .next :: post)
    rw [Machine.final_append, Machine.final_cons, hstep] at hdrained
    exact not_pending_of_allExited hdrained hall store hfinal.2
  | _ => trivial

/-- One worker, and one camera list in the queue. -/
def oneTask : Backlog where
  pool := { ThreadPool.init 1 with queue := [⟨.function, .bindStoreToModel .camera⟩] }
  body := fun _ => []
  left := by decide

/-- The worker comes to the camera list when the stores are gone. -/
theorem shutdown_order_fails :
    ¬ Safe oneTask (List.replicate 7 .next ++ [.lock 0, .access 0]) :=
  fun h => absurd (h ⟨.camera, true⟩ (by decide)) (by decide)

end Shutdown

end AnoMap
