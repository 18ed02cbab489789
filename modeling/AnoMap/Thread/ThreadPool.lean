import AnoMap.Lib.Machine
import Mathlib.Data.List.Perm.Basic

/-!
# The thread pool

`ThreadPool`: the queue with its mutex, condition variable and stop flag, the workers in `WorkLoop`,
both overloads of `Submit` and the destructor. A critical section is one step; the call of
`notify_one` that follows it is a step of its own. A task is opaque: its run ends by `finish` or
`throw`.

* `step`: one step of a submitter, a worker or the destructor; `Output`: what it does with a job.
* `Sound`: jobs are taken in the order they were submitted, and a job that waits while a worker
  sleeps has a wakeup on its way; `sound_final`.
* `Quiescent`: nothing can move, since the process has ended or every worker waits or has returned.
* `drained_step_iff`, `spent_step_iff`: which step leaves a job behind, when every worker has exited
  and when the process ends.
* **`loses_nothing_iff`**: no job is lost in a run exactly when no call of `Submit(std::function)`
  comes after the last worker has exited, and no `std::function` throws while another job waits or
  runs.
-/

set_option autoImplicit false

namespace AnoMap

namespace Thread

/-- Which `Submit` is called: the one with a `std::function`, or the template. -/
inductive Overload where
  | function | template
  deriving DecidableEq, Repr

structure Job (τ : Type) where
  overload : Overload
  task : τ
  deriving DecidableEq, Repr

/-- A worker: about to lock the mutex, in the wait, in a task, returned from `WorkLoop`, or left by
an exception. -/
inductive Worker (τ : Type) where
  | ready
  | waiting
  | running (job : Job τ)
  | exited
  | threw
  deriving DecidableEq, Repr

namespace Worker

variable {τ : Type}

def isReady : Worker τ → Bool
  | .ready => true
  | _ => false

def isWaiting : Worker τ → Bool
  | .waiting => true
  | _ => false

def isExited : Worker τ → Bool
  | .exited => true
  | _ => false

def job? : Worker τ → Option (Job τ)
  | .running job => some job
  | _ => none

theorem idle {w : Worker τ} (h : w.isWaiting = true ∨ w.isExited = true) :
    w.isReady = false ∧ w.job? = none := by
  cases w with
  | waiting => exact ⟨rfl, rfl⟩
  | exited => exact ⟨rfl, rfl⟩
  | _ => exact absurd h (by rintro (h | h) <;> cases h)

end Worker

/-- How far the destructor is. -/
inductive Phase where
  | alive | stopping | joining | joined
  deriving DecidableEq, Repr

/-- `notifies` counts the calls of `notify_one` still to be made; `terminated`: the process has ended
by `std::terminate`. -/
structure ThreadPool (τ : Type) where
  stop : Bool
  queue : List (Job τ)
  pool : List (Worker τ)
  notifies : ℕ
  phase : Phase
  terminated : Bool
  deriving DecidableEq

inductive Event (τ : Type) where
  | submit (overload : Overload) (task : τ)
  | notifyOne (i : ℕ)
  | wake (i : ℕ)
  | lock (i : ℕ)
  | finish (i : ℕ)
  | throw (i : ℕ)
  | stop
  | notifyAll
  | join

inductive Output (τ : Type) where
  | submitted (job : Job τ)
  | refused (job : Job τ)
  | took (job : Job τ)
  | finished (job : Job τ)
  deriving DecidableEq, Repr

namespace ThreadPool

variable {τ : Type}

/-- The constructor. -/
def init (threadCount : ℕ) : ThreadPool τ where
  stop := false
  queue := []
  pool := List.replicate (if threadCount = 0 then 1 else threadCount) .ready
  notifies := 0
  phase := .alive
  terminated := false

/-- Every worker has returned. -/
def AllExited (s : ThreadPool τ) : Prop := ∀ w ∈ s.pool, w.isExited = true

instance (s : ThreadPool τ) : Decidable s.AllExited := inferInstanceAs (Decidable (∀ _ ∈ _, _))

/-- `queue_.emplace(task)`; the call of `notify_one` is still to come. -/
def emplace (s : ThreadPool τ) (job : Job τ) : ThreadPool τ × List (Output τ) :=
  ({ s with queue := s.queue ++ [job], notifies := s.notifies + 1 }, [.submitted job])

/-- The template overload throws on a stopped pool. -/
def submit (s : ThreadPool τ) (job : Job τ) : ThreadPool τ × List (Output τ) :=
  match job.overload with
  | .function => s.emplace job
  | .template => if s.stop then (s, [.refused job]) else s.emplace job

/-- A call of `notify_one` wakes worker `i`, or nobody when no worker waits. -/
def notifyOne (s : ThreadPool τ) (i : ℕ) : ThreadPool τ :=
  if s.notifies = 0 then s
  else
    match s.pool[i]? with
    | some .waiting => { s with pool := s.pool.set i .ready, notifies := s.notifies - 1 }
    | _ => if s.pool.any Worker.isWaiting then s else { s with notifies := s.notifies - 1 }

/-- A worker with the mutex evaluates the predicate of the wait: it waits, returns or takes a job. -/
def lock (s : ThreadPool τ) (i : ℕ) : ThreadPool τ × List (Output τ) :=
  match s.pool[i]? with
  | some .ready =>
    match s.queue with
    | [] => ({ s with pool := s.pool.set i (if s.stop then .exited else .waiting) }, [])
    | job :: queue => ({ s with queue := queue, pool := s.pool.set i (.running job) }, [.took job])
  | _ => (s, [])

/-- The task of worker `i` is over, and the worker goes on as `w`. -/
def leave (s : ThreadPool τ) (i : ℕ) (w : Worker τ) : ThreadPool τ × List (Output τ) :=
  match s.pool[i]? with
  | some (.running job) => ({ s with pool := s.pool.set i w }, [.finished job])
  | _ => (s, [])

def finish (s : ThreadPool τ) (i : ℕ) : ThreadPool τ × List (Output τ) := s.leave i .ready

/-- A task ends by an exception: the template's wrapper keeps it for the future, from a
`std::function` it leaves `WorkLoop` and ends the process. -/
def throw (s : ThreadPool τ) (i : ℕ) : ThreadPool τ × List (Output τ) :=
  match s.pool[i]? with
  | some (.running ⟨.function, _⟩) =>
    let r := s.leave i .threw
    ({ r.1 with terminated := true }, r.2)
  | _ => s.finish i

def step (s : ThreadPool τ) (e : Event τ) : ThreadPool τ × List (Output τ) :=
  if s.terminated then (s, [])
  else
    match e with
    | .submit overload task => if s.phase = .joined then (s, []) else s.submit ⟨overload, task⟩
    | .notifyOne i => (s.notifyOne i, [])
    | .wake i =>
      (match s.pool[i]? with
        | some .waiting => { s with pool := s.pool.set i .ready }
        | _ => s, [])
    | .lock i => s.lock i
    | .finish i => s.finish i
    | .throw i => s.throw i
    | .stop => (if s.phase = .alive then { s with stop := true, phase := .stopping } else s, [])
    | .notifyAll =>
      (if s.phase = .stopping then
        { s with
          pool := s.pool.map fun w => if w.isWaiting then .ready else w
          phase := .joining }
      else s, [])
    | .join => (if s.phase = .joining ∧ s.AllExited then { s with phase := .joined } else s, [])

end ThreadPool

/-! ## What became of the jobs -/

section Outputs

variable {τ : Type}

/-- The jobs put into the queue, in order. -/
def submitted (out : List (Output τ)) : List (Job τ) :=
  out.filterMap fun | .submitted job => some job | _ => none

/-- The jobs taken from the queue, in order. -/
def took (out : List (Output τ)) : List (Job τ) :=
  out.filterMap fun | .took job => some job | _ => none

/-- The jobs whose run is over, by an exception or without. -/
def finished (out : List (Output τ)) : List (Job τ) :=
  out.filterMap fun | .finished job => some job | _ => none

theorem submitted_append (a b : List (Output τ)) :
    submitted (a ++ b) = submitted a ++ submitted b := List.filterMap_append

theorem took_append (a b : List (Output τ)) : took (a ++ b) = took a ++ took b :=
  List.filterMap_append

theorem finished_append (a b : List (Output τ)) : finished (a ++ b) = finished a ++ finished b :=
  List.filterMap_append

end Outputs

namespace ThreadPool

variable {τ : Type}

/-- Nothing can move: the process has ended, or each worker waits or has returned and no notification
is on its way. -/
def Quiescent (s : ThreadPool τ) : Prop :=
  s.terminated = true ∨
    s.notifies = 0 ∧ s.phase ≠ .stopping ∧ ∀ w ∈ s.pool, w.isWaiting = true ∨ w.isExited = true

/-- The pool takes jobs in the order they were submitted, has none left when every worker has
returned, and has run each one once when nothing can move. -/
def LosesNothing (threadCount : ℕ) (es : List (Event τ)) : Prop :=
  ∀ pre, pre <+: es →
    let s := Machine.final step (init threadCount) pre
    let out := Machine.outputs step (init threadCount) pre
    took out ++ s.queue = submitted out ∧ (s.AllExited → s.queue = []) ∧
      (s.Quiescent → s.queue = [] ∧ (finished out).Perm (submitted out))

/-- Worker `i` has the only job: none waits, and no other worker runs one. -/
def Alone (s : ThreadPool τ) (i : ℕ) : Prop :=
  s.queue = [] ∧ ∀ j w, j ≠ i → s.pool[j]? = some w → w.job? = none

/-- A call of `Submit(std::function)` on a pool that is not yet gone but has no worker left. -/
def Late (s : ThreadPool τ) : Event τ → Prop
  | .submit .function _ => s.terminated = false ∧ s.phase ≠ .joined ∧ s.AllExited
  | _ => False

/-- A `std::function` throws while another job waits or runs. -/
def CutsOff (s : ThreadPool τ) : Event τ → Prop
  | .throw i => s.terminated = false ∧
      (∃ task, s.pool[i]? = some (.running ⟨.function, task⟩)) ∧ ¬ s.Alone i
  | _ => False

/-! ## The invariant -/

/-- The state `s` after a run that emitted `out`. -/
structure Sound (s : ThreadPool τ) (out : List (Output τ)) : Prop where
  order : took out ++ s.queue = submitted out
  running : (finished out ++ s.pool.filterMap Worker.job?).Perm (took out)
  wakes : (∃ w ∈ s.pool, w.isWaiting = true) →
    s.queue.length ≤ s.pool.countP Worker.isReady + s.notifies
  stopped : (∃ w ∈ s.pool, w.isExited = true) → s.stop = true
  nonempty : s.pool ≠ []

open scoped List in
/-- What one worker's move does to the jobs that run. -/
theorem filterMap_set_perm {α β : Type} (f : α → Option β) {l : List α} {i : ℕ} {a : α}
    (h : l[i]? = some a) (b : α) :
    ((f a).toList ++ (l.set i b).filterMap f).Perm ((f b).toList ++ l.filterMap f) := by
  obtain ⟨hi, rfl⟩ := List.getElem?_eq_some_iff.mp h
  have hcons : ∀ (c : α) (l : List α), (c :: l).filterMap f = (f c).toList ++ l.filterMap f := by
    intro c l
    rw [List.filterMap_cons]
    cases f c <;> rfl
  have hnew := (List.set_perm_cons_eraseIdx hi b).filterMap f
  have hold := (List.getElem_cons_eraseIdx_perm hi).filterMap f
  rw [hcons] at hnew hold
  calc (f l[i]).toList ++ (l.set i b).filterMap f
      ~ (f l[i]).toList ++ ((f b).toList ++ (l.eraseIdx i).filterMap f) := hnew.append_left _
    _ ~ (f b).toList ++ ((f l[i]).toList ++ (l.eraseIdx i).filterMap f) := by
      rw [← List.append_assoc, ← List.append_assoc]
      exact List.perm_append_comm.append_right _
    _ ~ (f b).toList ++ l.filterMap f := hold.append_left _

theorem countP_set_add {α : Type} (p : α → Bool) {l : List α} {i : ℕ} {a : α} (h : l[i]? = some a)
    (b : α) : (l.set i b).countP p + (if p a then 1 else 0) = l.countP p + if p b then 1 else 0 := by
  obtain ⟨hi, rfl⟩ := List.getElem?_eq_some_iff.mp h
  rw [(List.set_perm_cons_eraseIdx hi b).countP_eq,
    ← (List.getElem_cons_eraseIdx_perm hi).countP_eq, List.countP_cons, List.countP_cons]
  omega

theorem exists_of_exists_mem_set {α : Type} {p : α → Bool} {l : List α} {i : ℕ} {b : α}
    (hb : p b = false) (h : ∃ a ∈ l.set i b, p a = true) : ∃ a ∈ l, p a = true := by
  obtain ⟨a, ha, hp⟩ := h
  rcases List.mem_or_eq_of_mem_set ha with ha | rfl
  · exact ⟨a, ha, hp⟩
  · exact absurd (hb.symm.trans hp) Bool.false_ne_true

theorem sound_init (threadCount : ℕ) : Sound (init (τ := τ) threadCount) [] where
  order := rfl
  running := by
    have hnone : (init (τ := τ) threadCount).pool.filterMap Worker.job? = [] :=
      List.filterMap_eq_nil_iff.mpr fun w hw => by rw [List.eq_of_mem_replicate hw]; rfl
    rw [hnone]
    exact List.Perm.refl _
  wakes := fun ⟨w, hw, h⟩ => by rw [List.eq_of_mem_replicate hw] at h; cases h
  stopped := fun ⟨w, hw, h⟩ => by rw [List.eq_of_mem_replicate hw] at h; cases h
  nonempty := by
    unfold init
    split_ifs with h
    · exact List.cons_ne_nil _ _
    · rw [ne_eq, List.replicate_eq_nil_iff]
      exact h

variable {s : ThreadPool τ} {out : List (Output τ)}

theorem Sound.move (h : s.Sound out) {i : ℕ} {w w' : Worker τ} (hi : s.pool[i]? = some w)
    (hw : w.job? = none) (hw' : w'.job? = none) {n : ℕ}
    (hn : (∃ v ∈ s.pool.set i w', v.isWaiting = true) →
      s.queue.length ≤ (s.pool.set i w').countP Worker.isReady + n)
    (he : w'.isExited = true → s.stop = true) :
    Sound { s with pool := s.pool.set i w', notifies := n } out := by
  have hperm := filterMap_set_perm Worker.job? hi w'
  rw [hw, hw'] at hperm
  refine ⟨h.order, (hperm.append_left _).trans h.running, hn, fun ⟨v, hv, hx⟩ => ?_, ?_⟩
  · rcases List.mem_or_eq_of_mem_set hv with hv | rfl
    · exact h.stopped ⟨v, hv, hx⟩
    · exact he hx
  · rw [ne_eq, List.set_eq_nil_iff]
    exact h.nonempty

theorem Sound.emplace (h : s.Sound out) (job : Job τ) :
    (s.emplace job).1.Sound (out ++ (s.emplace job).2) where
  order := by
    rw [took_append, submitted_append, ← h.order]
    show took out ++ [] ++ (s.queue ++ [job]) = took out ++ s.queue ++ [job]
    rw [List.append_nil, List.append_assoc]
  running := by
    rw [took_append, finished_append]
    show (finished out ++ [] ++ s.pool.filterMap Worker.job?).Perm (took out ++ [])
    rw [List.append_nil, List.append_nil]
    exact h.running
  wakes := fun hw => by
    have hle := h.wakes hw
    rw [ThreadPool.emplace, List.length_append]
    exact Nat.succ_le_succ hle
  stopped := h.stopped
  nonempty := h.nonempty

theorem Sound.submit (h : s.Sound out) (job : Job τ) :
    (s.submit job).1.Sound (out ++ (s.submit job).2) := by
  unfold ThreadPool.submit
  split
  · exact h.emplace job
  · split_ifs
    · refine ⟨?_, ?_, h.wakes, h.stopped, h.nonempty⟩
      · rw [took_append, submitted_append]
        show took out ++ [] ++ s.queue = submitted out ++ []
        rw [List.append_nil, List.append_nil, h.order]
      · rw [took_append, finished_append]
        show (finished out ++ [] ++ _).Perm (took out ++ [])
        rw [List.append_nil, List.append_nil]
        exact h.running
    · exact h.emplace job

theorem Sound.awaken (h : s.Sound out) {i : ℕ} (hi : s.pool[i]? = some .waiting) {n : ℕ}
    (hn : s.notifies ≤ n + 1) :
    Sound { s with pool := s.pool.set i .ready, notifies := n } out := by
  refine h.move hi rfl rfl (fun _ => ?_) nofun
  have hle := h.wakes ⟨.waiting, List.mem_of_getElem? hi, rfl⟩
  have hcount : (s.pool.set i .ready).countP Worker.isReady + 0 =
      s.pool.countP Worker.isReady + 1 := countP_set_add Worker.isReady hi .ready
  omega

theorem Sound.notifyOne (h : s.Sound out) (i : ℕ) : (s.notifyOne i).Sound out := by
  unfold ThreadPool.notifyOne
  by_cases hz : s.notifies = 0
  · rwa [if_pos hz]
  · rw [if_neg hz]
    split
    · next hi => exact h.awaken hi (by omega)
    · by_cases hany : s.pool.any Worker.isWaiting = true
      · rwa [if_pos hany]
      · rw [if_neg hany]
        exact ⟨h.order, h.running, fun ⟨w, hw, he⟩ => absurd (List.any_eq_true.mpr ⟨w, hw, he⟩) hany,
          h.stopped, h.nonempty⟩

theorem Sound.lock (h : s.Sound out) (i : ℕ) : (s.lock i).1.Sound (out ++ (s.lock i).2) := by
  unfold ThreadPool.lock
  split
  · next hi =>
    split
    · next hq =>
      rw [List.append_nil]
      refine h.move hi rfl (by split_ifs <;> rfl) (fun _ => by rw [hq]; exact Nat.zero_le _) ?_
      split_ifs with hs
      · exact fun _ => hs
      · nofun
    · next job queue hq =>
      have hcount : (s.pool.set i (.running job)).countP Worker.isReady + 1 =
          s.pool.countP Worker.isReady + 0 := countP_set_add Worker.isReady hi (.running job)
      refine ⟨?_, ?_, fun hw => ?_, fun hw => h.stopped (exists_of_exists_mem_set rfl hw), ?_⟩
      · rw [took_append, submitted_append, ← h.order, hq]
        show took out ++ [job] ++ queue = took out ++ job :: queue ++ []
        rw [List.append_nil, List.append_assoc]
        rfl
      · rw [took_append, finished_append]
        show (finished out ++ [] ++ (s.pool.set i (.running job)).filterMap Worker.job?).Perm
          (took out ++ [job])
        rw [List.append_nil]
        refine ((filterMap_set_perm Worker.job? hi (.running job)).append_left _).trans ?_
        refine (List.perm_append_comm_assoc _ _ _).trans ?_
        exact (h.running.append_left [job]).trans List.perm_append_comm
      · have hle := h.wakes (exists_of_exists_mem_set rfl hw)
        rw [hq, List.length_cons] at hle
        dsimp only
        omega
      · rw [ne_eq, List.set_eq_nil_iff]
        exact h.nonempty
  · rw [List.append_nil]
    exact h

theorem Sound.leave (h : s.Sound out) (i : ℕ) {w : Worker τ} (hj : w.job? = none)
    (hw : w.isWaiting = false) (he : w.isExited = false) :
    (s.leave i w).1.Sound (out ++ (s.leave i w).2) := by
  unfold ThreadPool.leave
  split
  · next job hi =>
    have hcount := countP_set_add Worker.isReady hi w
    rw [if_neg (by exact Bool.false_ne_true)] at hcount
    have hperm := filterMap_set_perm Worker.job? hi w
    rw [hj] at hperm
    refine ⟨?_, ?_, fun hx => ?_, fun hx => h.stopped (exists_of_exists_mem_set he hx), ?_⟩
    · rw [took_append, submitted_append]
      show took out ++ [] ++ s.queue = submitted out ++ []
      rw [List.append_nil, List.append_nil, h.order]
    · rw [took_append, finished_append]
      show (finished out ++ [job] ++ (s.pool.set i w).filterMap Worker.job?).Perm (took out ++ [])
      rw [List.append_nil, List.append_assoc]
      exact (hperm.append_left _).trans h.running
    · have hle := h.wakes (exists_of_exists_mem_set hw hx)
      dsimp only
      omega
    · rw [ne_eq, List.set_eq_nil_iff]
      exact h.nonempty
  · rw [List.append_nil]
    exact h

theorem Sound.finish (h : s.Sound out) (i : ℕ) : (s.finish i).1.Sound (out ++ (s.finish i).2) :=
  h.leave i rfl rfl rfl

theorem Sound.throw (h : s.Sound out) (i : ℕ) : (s.throw i).1.Sound (out ++ (s.throw i).2) := by
  unfold ThreadPool.throw
  split
  · have hl := h.leave i (w := .threw) rfl rfl rfl
    exact ⟨hl.order, hl.running, hl.wakes, hl.stopped, hl.nonempty⟩
  · exact h.finish i

theorem Sound.notifyAll (h : s.Sound out) (phase : Phase) :
    Sound { s with
      pool := s.pool.map fun w => if w.isWaiting then .ready else w
      phase := phase } out := by
  have hjob : ∀ w : Worker τ, (if w.isWaiting then Worker.ready else w).job? = w.job? := by
    intro w
    cases w <;> rfl
  refine ⟨h.order, ?_, fun ⟨w, hw, he⟩ => ?_, fun ⟨w, hw, he⟩ => ?_, ?_⟩
  · rw [List.filterMap_map]
    exact (List.filterMap_congr fun w _ => hjob w) ▸ h.running
  · obtain ⟨v, -, rfl⟩ := List.mem_map.mp hw
    cases v <;> cases he
  · obtain ⟨v, hv, rfl⟩ := List.mem_map.mp hw
    refine h.stopped ⟨v, hv, ?_⟩
    cases v with
    | exited => rfl
    | _ => cases he
  · rw [ne_eq, List.map_eq_nil_iff]
    exact h.nonempty

/-- **The step lemma.** -/
theorem Sound.step (h : s.Sound out) (e : Event τ) : (s.step e).1.Sound (out ++ (s.step e).2) := by
  have hid : s.Sound (out ++ []) := by rwa [List.append_nil]
  unfold ThreadPool.step
  by_cases ht : s.terminated = true
  · rwa [if_pos ht]
  · rw [if_neg ht]
    cases e with
    | submit overload task =>
      dsimp only
      split_ifs
      · exact hid
      · exact h.submit _
    | notifyOne i =>
      rw [List.append_nil]
      exact h.notifyOne i
    | wake i =>
      dsimp only
      split
      · next hi =>
        rw [List.append_nil]
        exact h.awaken hi (Nat.le_succ _)
      · exact hid
    | lock i => exact h.lock i
    | finish i => exact h.finish i
    | throw i => exact h.throw i
    | stop =>
      dsimp only
      split_ifs
      · rw [List.append_nil]
        exact ⟨h.order, h.running, h.wakes, fun _ => rfl, h.nonempty⟩
      · exact hid
    | notifyAll =>
      dsimp only
      split_ifs
      · rw [List.append_nil]
        exact h.notifyAll .joining
      · exact hid
    | join =>
      dsimp only
      split_ifs
      · rw [List.append_nil]
        exact ⟨h.order, h.running, h.wakes, h.stopped, h.nonempty⟩
      · exact hid

/-- **The run lemma.** -/
theorem sound_final (threadCount : ℕ) (es : List (Event τ)) :
    (Machine.final ThreadPool.step (init threadCount) es).Sound
      (Machine.outputs ThreadPool.step (init threadCount) es) := by
  induction es using List.reverseRecOn with
  | nil => exact sound_init threadCount
  | append_singleton es e ih =>
    rw [Machine.final_concat, Machine.outputs_concat]
    exact ih.step e

/-! ## Jobs left behind -/

/-- No job waits when every worker has returned. -/
def Drained (s : ThreadPool τ) : Prop := s.AllExited → s.queue = []

theorem not_allExited_set {i : ℕ} {w w' : Worker τ} (hi : s.pool[i]? = some w)
    (hw : w'.isExited = false) : ¬ ∀ v ∈ s.pool.set i w', v.isExited = true := by
  obtain ⟨hlt, -⟩ := List.getElem?_eq_some_iff.mp hi
  exact fun h => absurd ((h w' (List.mem_set hlt w')).symm.trans hw) (by decide)

theorem drained_lock (h : s.Drained) (i : ℕ) : (s.lock i).1.Drained := by
  unfold lock
  split
  · next hi =>
    split
    · next hq => exact fun _ => hq
    · exact fun hall => absurd hall (not_allExited_set hi rfl)
  · exact h

theorem drained_leave (h : s.Drained) (i : ℕ) {w : Worker τ} (hw : w.isExited = false) :
    (s.leave i w).1.Drained := by
  unfold leave
  split
  · next hi => exact fun hall => absurd hall (not_allExited_set hi hw)
  · exact h

theorem drained_throw (h : s.Drained) (i : ℕ) : (s.throw i).1.Drained := by
  unfold throw
  split
  · exact drained_leave h i (w := .threw) rfl
  · exact drained_leave h i rfl

theorem drained_notifyOne (h : s.Drained) (i : ℕ) : (s.notifyOne i).Drained := by
  unfold notifyOne
  by_cases hz : s.notifies = 0
  · rwa [if_pos hz]
  · rw [if_neg hz]
    split
    · next hi => exact fun hall => absurd hall (not_allExited_set hi rfl)
    · by_cases hany : s.pool.any Worker.isWaiting = true
      · rwa [if_pos hany]
      · rw [if_neg hany]
        exact h

theorem drained_emplace_iff (job : Job τ) : (s.emplace job).1.Drained ↔ ¬ s.AllExited := by
  have hne : (s.emplace job).1.queue ≠ [] := List.append_ne_nil_of_right_ne_nil _ (List.cons_ne_nil _ _)
  exact ⟨fun h hall => hne (h hall), fun h hall => absurd hall h⟩

/-- On a pool that was not stopped a worker is left. -/
theorem Sound.not_allExited (h : s.Sound out) (hs : ¬ s.stop = true) : ¬ s.AllExited := by
  obtain ⟨w, hw⟩ := List.exists_mem_of_ne_nil _ h.nonempty
  exact fun hall => hs (h.stopped ⟨w, hw, hall w hw⟩)

theorem drained_step_of_not_submit (h : s.Drained) {e : Event τ}
    (he : ∀ overload task, e ≠ .submit overload task) : (s.step e).1.Drained := by
  unfold ThreadPool.step
  by_cases ht : s.terminated = true
  · rwa [if_pos ht]
  · rw [if_neg ht]
    cases e with
    | submit overload task => exact absurd rfl (he overload task)
    | notifyOne i => exact drained_notifyOne h i
    | wake i =>
      dsimp only
      split
      · next hi => exact fun hall => absurd hall (not_allExited_set hi rfl)
      · exact h
    | lock i => exact drained_lock h i
    | finish i => exact drained_leave h i rfl
    | throw i => exact drained_throw h i
    | stop =>
      dsimp only
      split_ifs <;> exact h
    | notifyAll =>
      dsimp only
      split_ifs
      · intro hall
        refine h fun w hw => ?_
        have hx := hall _ (List.mem_map_of_mem hw)
        cases w with
        | waiting => cases hx
        | _ => exact hx
      · exact h
    | join =>
      dsimp only
      split_ifs <;> exact h

/-- **One step** leaves a job behind if and only if it is a late call of `Submit`. -/
theorem drained_step_iff (hs : s.Sound out) (h : s.Drained) (e : Event τ) :
    (s.step e).1.Drained ↔ ¬ s.Late e := by
  by_cases he : ∃ overload task, e = .submit overload task
  · obtain ⟨overload, task, rfl⟩ := he
    unfold ThreadPool.step
    by_cases hlive : s.terminated = false ∧ s.phase ≠ .joined
    · rw [if_neg (by rw [hlive.1]; decide)]
      dsimp only
      rw [if_neg hlive.2]
      cases overload with
      | function =>
        refine (drained_emplace_iff _).trans (not_congr ?_)
        exact ⟨fun hall => ⟨hlive.1, hlive.2, hall⟩, fun hl => hl.2.2⟩
      | template =>
        refine iff_of_true ?_ id
        unfold submit
        dsimp only
        split_ifs with hstop
        · exact h
        · exact (drained_emplace_iff _).mpr (hs.not_allExited hstop)
    · refine iff_of_true ?_ fun hl => ?_
      · by_cases ht : s.terminated = true
        · rwa [if_pos ht]
        · have hp : s.phase = .joined := by
            by_contra hp
            exact hlive ⟨Bool.not_eq_true _ ▸ ht, hp⟩
          rw [if_neg ht]
          dsimp only
          rwa [if_pos hp]
      · cases overload with
        | function => exact hlive ⟨hl.1, hl.2.1⟩
        | template => exact hl
  · have hnot : ∀ overload task, e ≠ .submit overload task := fun o t heq => he ⟨o, t, heq⟩
    refine iff_of_true (drained_step_of_not_submit h hnot) fun hl => ?_
    cases e with
    | submit overload task => exact hnot overload task rfl
    | _ => exact hl

theorem drained_init (threadCount : ℕ) : (init (τ := τ) threadCount).Drained := fun _ => rfl

/-! ## Jobs cut off -/

/-- No job waits or runs when the process has ended. -/
def Spent (s : ThreadPool τ) : Prop :=
  s.terminated = true → s.queue = [] ∧ s.pool.filterMap Worker.job? = []

theorem terminated_leave (s : ThreadPool τ) (i : ℕ) (w : Worker τ) :
    (s.leave i w).1.terminated = s.terminated := by
  unfold leave
  split <;> rfl

theorem terminated_submit (s : ThreadPool τ) (job : Job τ) :
    (s.submit job).1.terminated = s.terminated := by
  unfold submit
  split
  · rfl
  · split_ifs <;> rfl

theorem terminated_notifyOne (s : ThreadPool τ) (i : ℕ) :
    (s.notifyOne i).terminated = s.terminated := by
  unfold notifyOne
  by_cases hz : s.notifies = 0
  · rw [if_pos hz]
  · rw [if_neg hz]
    split
    · rfl
    · split_ifs <;> rfl

theorem terminated_lock (s : ThreadPool τ) (i : ℕ) :
    (s.lock i).1.terminated = s.terminated := by
  unfold lock
  split
  · split <;> rfl
  · rfl

theorem terminated_step {e : Event τ} (he : ∀ i, e ≠ .throw i) :
    (s.step e).1.terminated = s.terminated := by
  unfold ThreadPool.step
  by_cases ht : s.terminated = true
  · rw [if_pos ht]
  · rw [if_neg ht]
    cases e with
    | submit overload task =>
      dsimp only
      split_ifs
      · rfl
      · exact terminated_submit s _
    | notifyOne i => exact terminated_notifyOne s i
    | wake i =>
      dsimp only
      split <;> rfl
    | lock i => exact terminated_lock s i
    | finish i => exact terminated_leave s i .ready
    | throw i => exact absurd rfl (he i)
    | stop =>
      dsimp only
      split_ifs <;> rfl
    | notifyAll =>
      dsimp only
      split_ifs <;> rfl
    | join =>
      dsimp only
      split_ifs <;> rfl

theorem filterMap_set_eq_nil_iff {i : ℕ} {w : Worker τ} (hw : w.job? = none) :
    (s.pool.set i w).filterMap Worker.job? = [] ↔
      ∀ j v, j ≠ i → s.pool[j]? = some v → v.job? = none := by
  rw [List.filterMap_eq_nil_iff]
  constructor
  · intro h j v hj hv
    refine h v (List.mem_of_getElem? (i := j) ?_)
    rw [List.getElem?_set_ne hj.symm]
    exact hv
  · intro h v hv
    obtain ⟨j, hj⟩ := List.mem_iff_getElem?.mp hv
    by_cases hij : j = i
    · subst hij
      rw [List.getElem?_set, if_pos rfl] at hj
      split_ifs at hj
      exact Option.some.inj hj ▸ hw
    · rw [List.getElem?_set_ne (Ne.symm hij)] at hj
      exact h j v hij hj

/-- **One step** ends the process in front of a job if and only if it cuts one off. -/
theorem spent_step_iff (h : s.Spent) (e : Event τ) : (s.step e).1.Spent ↔ ¬ s.CutsOff e := by
  by_cases ht : s.terminated = true
  · refine iff_of_true ?_ fun hc => ?_
    · have hstep : s.step e = (s, []) := if_pos ht
      rwa [hstep]
    · cases e with
      | throw i => exact Bool.false_ne_true (hc.1.symm.trans ht)
      | _ => exact hc
  · have hlive : s.terminated = false := Bool.not_eq_true _ ▸ ht
    by_cases hthrow : ∃ i, e = .throw i
    · obtain ⟨i, rfl⟩ := hthrow
      have hstep : s.step (.throw i) = s.throw i := if_neg ht
      rw [hstep]
      by_cases hrun : ∃ task, s.pool[i]? = some (.running ⟨.function, task⟩)
      · obtain ⟨task, hi⟩ := hrun
        have hthrow : (s.throw i).1 =
            { s with pool := s.pool.set i .threw, terminated := true } := by
          unfold throw leave
          rw [hi]
        rw [hthrow, CutsOff, Spent, not_and, not_and, not_not]
        dsimp only
        rw [filterMap_set_eq_nil_iff rfl]
        exact ⟨fun hs _ _ => hs rfl, fun hs _ => hs hlive ⟨task, hi⟩⟩
      · have hfinish : s.throw i = s.finish i := by
          unfold throw
          split
          · next hi => exact absurd ⟨_, hi⟩ hrun
          · rfl
        refine iff_of_true (fun hx => ?_) fun hc => hrun hc.2.1
        rw [hfinish, finish, terminated_leave] at hx
        exact absurd hx ht
    · have hno : ∀ i, e ≠ .throw i := fun i heq => hthrow ⟨i, heq⟩
      refine iff_of_true (fun hx => ?_) fun hc => ?_
      · rw [terminated_step hno] at hx
        exact absurd hx ht
      · cases e with
        | throw i => exact hno i rfl
        | _ => exact hc

theorem spent_init (threadCount : ℕ) : (init (τ := τ) threadCount).Spent := nofun

theorem Sound.perm_iff (h : s.Sound out) : s.queue = [] ∧ (finished out).Perm (submitted out) ↔
    s.queue = [] ∧ s.pool.filterMap Worker.job? = [] := by
  refine and_congr_right fun hq => ?_
  have horder := h.order
  rw [hq, List.append_nil] at horder
  have hrun := h.running
  rw [horder] at hrun
  constructor
  · intro hp
    have hlen := hrun.length_eq
    rw [List.length_append, hp.length_eq] at hlen
    exact List.length_eq_zero_iff.mp (by omega)
  · intro hnone
    rwa [hnone, List.append_nil] at hrun

/-- **Nothing can move** and nothing is left. -/
theorem Sound.quiescent (h : s.Sound out) (hd : s.Drained) (hsp : s.Spent) (hq : s.Quiescent) :
    s.queue = [] ∧ (finished out).Perm (submitted out) := by
  refine h.perm_iff.mpr ?_
  obtain ht | ⟨hn, -, hall⟩ := hq
  · exact hsp ht
  · have hready : s.pool.countP Worker.isReady = 0 := List.countP_eq_zero.mpr fun w hw => by
      rw [(Worker.idle (hall w hw)).1]
      exact Bool.false_ne_true
    constructor
    · by_cases hw : ∃ w ∈ s.pool, w.isWaiting = true
      · have hle := h.wakes hw
        rw [hready, hn] at hle
        exact List.length_eq_zero_iff.mp (Nat.le_zero.mp hle)
      · exact hd fun w hm => (hall w hm).resolve_left fun he => hw ⟨w, hm, he⟩
    · exact List.filterMap_eq_nil_iff.mpr fun w hw => (Worker.idle (hall w hw)).2

/-- **The pool loses nothing** in a run if and only if no call of `Submit(std::function)` finds
every worker returned, and no `std::function` throws while another job waits or runs. -/
theorem loses_nothing_iff (threadCount : ℕ) (es : List (Event τ)) : LosesNothing threadCount es ↔
    Machine.Along step (fun s e => ¬ s.Late e ∧ ¬ s.CutsOff e) (init threadCount) es := by
  constructor
  · intro h
    have hkept : ∀ pre, pre <+: es → (Machine.final step (init (τ := τ) threadCount) pre).Drained ∧
        (Machine.final step (init (τ := τ) threadCount) pre).Spent := fun pre hp =>
      ⟨(h pre hp).2.1, fun ht =>
        (sound_final threadCount pre).perm_iff.mp ((h pre hp).2.2 (Or.inl ht))⟩
    refine (Machine.along_iff step _ es).mpr fun pre e post hcut => ?_
    have hbefore := hkept pre ⟨e :: post, hcut.symm⟩
    have hafter := hkept (pre ++ [e]) ⟨post, by rw [hcut, List.append_assoc]; rfl⟩
    rw [Machine.final_concat] at hafter
    exact ⟨(drained_step_iff (sound_final threadCount pre) hbefore.1 e).mp hafter.1,
      (spent_step_iff hbefore.2 e).mp hafter.2⟩
  · intro h pre hp
    have hkept := Machine.invariant_along step
      (P := fun s => (s.Drained ∧ s.Spent) ∧ ∃ out, s.Sound out)
      ⟨⟨drained_init threadCount, spent_init threadCount⟩, [], sound_init threadCount⟩
      (fun s e hl ⟨⟨hd, hsp⟩, out, hs⟩ => ⟨⟨(drained_step_iff hs hd e).mpr hl.1,
        (spent_step_iff hsp e).mpr hl.2⟩, _, hs.step e⟩) h pre hp
    have hs := sound_final threadCount pre
    exact ⟨hs.order, hkept.1.1, hs.quiescent hkept.1.1 hkept.1.2⟩

/-- A stopped pool whose only worker has returned accepts a `std::function` and never runs it. -/
theorem loses_nothing_fails :
    ¬ LosesNothing 1 [.stop, .lock 0, .submit .function ()] :=
  fun h => absurd ((h _ (List.prefix_refl _)).2.1 (by decide)) (by decide)

/-- A `std::function` that throws ends the process in front of the one behind it. -/
example : ¬ LosesNothing 1 [.submit .function 1, .submit .function 2, .lock 0, .throw 0] :=
  fun h => absurd ((h _ (List.prefix_refl _)).2.2 (Or.inl rfl)).1 (by decide)

end ThreadPool

end Thread

end AnoMap
