import AnoMap.Lib.Machine
import Mathlib.Data.List.Infix
import Mathlib.Data.List.Induction
import Mathlib.Order.CompletePartialOrder

/-!
# Frames on their way to a tile

The decode thread of a worker hands its frames to a tile on the GUI thread: it stores a frame under
the spin lock and then counts `frameSeq_` up; the tile's timer reads the count and, if it is new,
fetches the stored frame. Any thread may run between any two of these steps, and the tile may change
its worker. A worker is a key that is never used again; its count is taken not to wrap.

* `FrameWorker`, `Decode`: a worker's frame, its count and the steps of its decode thread.
* `FrameTile`, `step`: the tile; what the decode threads do during a timer event is part of it.
* `Counted`: the count against the frames stored; `Stored`: a shown frame against them; `Follows`:
  how one shown frame follows another.
* **`frames_in_order`**: what a tile shows while it stays on a worker never goes back, is no older
  than what was announced when its timer event began, and shows no frame more than three times.
* **`timer_shows_latest`**: once a decode thread rests, a timer event leaves its newest frame shown.
-/

set_option autoImplicit false

namespace AnoMap

namespace Services

variable {κ φ : Type}

/-- `written` lists the frames stored, `publishing`: the last one is not counted yet. -/
structure FrameWorker (φ : Type) where
  latestFrame : Option φ
  frameSeq : ℕ
  publishing : Bool
  written : List φ

/-- A step of a decode thread in `onFrameReady`. -/
inductive Decode (φ : Type) where
  | store (frame : φ)
  | count

/-- What a timer event shows: the worker's frame, the count that was read, and how many frames were
stored by then. -/
structure ShownFrame (κ φ : Type) where
  worker : κ
  seq : ℕ
  frame : φ
  number : ℕ

namespace FrameWorker

def new : FrameWorker φ := ⟨none, 0, false, []⟩

def decode (w : FrameWorker φ) : Decode φ → FrameWorker φ
  | .store frame =>
    if w.publishing then w
    else { w with latestFrame := some frame, publishing := true, written := w.written ++ [frame] }
  | .count => if w.publishing then { w with frameSeq := w.frameSeq + 1, publishing := false } else w

/-- The count is that of the frames stored, but for one that is being published. -/
structure Counted (w : FrameWorker φ) : Prop where
  length : w.written.length = w.frameSeq + if w.publishing then 1 else 0
  latest : w.latestFrame = w.written.getLast?

/-- `w` at a later time. -/
structure Later (w w' : FrameWorker φ) : Prop where
  written : w.written <+: w'.written
  frameSeq : w.frameSeq ≤ w'.frameSeq

variable {w w' w'' : FrameWorker φ}

theorem counted_new : (new : FrameWorker φ).Counted := ⟨rfl, rfl⟩

theorem Counted.le (h : w.Counted) :
    w.frameSeq ≤ w.written.length ∧ w.written.length ≤ w.frameSeq + 1 := by
  have hlen := h.length
  split_ifs at hlen <;> omega

theorem Counted.decode (h : w.Counted) (d : Decode φ) : (w.decode d).Counted := by
  have hlen := h.length
  cases d with
  | store frame =>
    unfold FrameWorker.decode
    dsimp only
    split_ifs with hp
    · exact h
    · rw [if_neg hp] at hlen
      constructor
      · simp [hlen]
      · simp
  | count =>
    unfold FrameWorker.decode
    dsimp only
    split_ifs with hp
    · rw [if_pos hp] at hlen
      exact ⟨hlen, h.latest⟩
    · exact h

theorem Later.refl (w : FrameWorker φ) : w.Later w := ⟨List.prefix_refl _, Nat.le_refl _⟩

theorem Later.trans (h : w.Later w') (h' : w'.Later w'') : w.Later w'' :=
  ⟨h.written.trans h'.written, Nat.le_trans h.frameSeq h'.frameSeq⟩

theorem later_decode (w : FrameWorker φ) (d : Decode φ) : w.Later (w.decode d) := by
  cases d with
  | store frame =>
    unfold decode
    dsimp only
    split_ifs
    · exact Later.refl w
    · exact ⟨List.prefix_append _ _, Nat.le_refl _⟩
  | count =>
    unfold decode
    dsimp only
    split_ifs
    · exact ⟨List.prefix_refl _, Nat.le_succ _⟩
    · exact Later.refl w

end FrameWorker

/-- A tile, among the workers it may be attached to; `sink`: it has a sink to show frames on. -/
structure FrameTile (κ φ : Type) where
  workers : κ → FrameWorker φ
  worker : Option κ
  sink : Bool
  lastSeq : ℕ

namespace FrameTile

def init : FrameTile κ φ := ⟨fun _ => .new, none, false, 0⟩

/-- `deleted`: a worker is, which clears the pointer to it; `timer during`: a `timerEvent` between
whose two readings the decode threads do `during`. -/
inductive Event (κ φ : Type) where
  | decode (k : κ) (d : Decode φ)
  | setVideoSink (sink : Bool)
  | tryAttach (newWorker : Option κ)
  | deleted (k : κ)
  | timer (during : List (κ × Decode φ))

def decode [DecidableEq κ] (t : FrameTile κ φ) (k : κ) (d : Decode φ) : FrameTile κ φ :=
  { t with workers := Function.update t.workers k ((t.workers k).decode d) }

def decodeAll [DecidableEq κ] (t : FrameTile κ φ) (ds : List (κ × Decode φ)) : FrameTile κ φ :=
  ds.foldl (fun t d => t.decode d.1 d.2) t

def timerEvent [DecidableEq κ] (t : FrameTile κ φ) (during : List (κ × Decode φ)) :
    FrameTile κ φ × List (ShownFrame κ φ) :=
  match t.worker with
  | some k =>
    if t.sink then
      let currentSeq := (t.workers k).frameSeq
      if t.lastSeq < currentSeq then
        let t' := { t with lastSeq := currentSeq }.decodeAll during
        (t', ((t'.workers k).latestFrame.map fun frame =>
          ⟨k, currentSeq, frame, (t'.workers k).written.length⟩).toList)
      else (t.decodeAll during, [])
    else (t.decodeAll during, [])
  | none => (t.decodeAll during, [])

def step [DecidableEq κ] (t : FrameTile κ φ) : Event κ φ → FrameTile κ φ × List (ShownFrame κ φ)
  | .decode k d => (t.decode k d, [])
  | .setVideoSink sink => ({ t with sink := sink }, [])
  | .tryAttach newWorker =>
    (if newWorker ≠ t.worker then { t with worker := newWorker, lastSeq := 0 } else t, [])
  | .deleted k => (if t.worker = some k then { t with worker := none } else t, [])
  | .timer during => t.timerEvent during

/-! ## Frames shown -/

/-- A step that shows nothing: the workers have gone on, and a tile that changed its worker starts
again. -/
structure Quiet (t t' : FrameTile κ φ) : Prop where
  later : ∀ k, (t.workers k).Later (t'.workers k)
  counted : (∀ k, (t.workers k).Counted) → ∀ k, (t'.workers k).Counted
  stays : ∀ k, t'.worker = some k →
    t.worker = some k ∧ t'.lastSeq = t.lastSeq ∨ t.worker ≠ some k ∧ t'.lastSeq = 0

/-- A step that shows `o`: it had not been announced to the tile, and is the newest frame. -/
structure Shows (t : FrameTile κ φ) (o : ShownFrame κ φ) (t' : FrameTile κ φ) : Prop where
  worker : t.worker = some o.worker
  seq : o.seq = (t.workers o.worker).frameSeq
  new : t.lastSeq < o.seq
  later : ∀ k, (t.workers k).Later (t'.workers k)
  counted : ∀ k, (t'.workers k).Counted
  stays : t'.worker = some o.worker
  lastSeq : t'.lastSeq = o.seq
  number : o.number = (t'.workers o.worker).written.length
  frame : (t'.workers o.worker).latestFrame = some o.frame

variable {t t' : FrameTile κ φ} {outs : List (ShownFrame κ φ)} {o : ShownFrame κ φ}

theorem stays_same {k : κ} (h : t.worker = some k) :
    t.worker = some k ∧ t.lastSeq = t.lastSeq ∨ t.worker ≠ some k ∧ t.lastSeq = 0 :=
  Or.inl ⟨h, rfl⟩

theorem quiet_refl (t : FrameTile κ φ) : t.Quiet t :=
  ⟨fun _ => FrameWorker.Later.refl _, fun h => h, fun _ => stays_same⟩

/-- A shown frame is one of those stored, and no older than the count that was read. -/
structure Stored (t : FrameTile κ φ) (o : ShownFrame κ φ) : Prop where
  pos : 0 < o.seq
  fresh : o.seq ≤ o.number
  frame : (t.workers o.worker).written[o.number - 1]? = some o.frame

theorem Stored.number_le (h : t.Stored o) : o.number ≤ (t.workers o.worker).written.length := by
  obtain ⟨hlt, -⟩ := List.getElem?_eq_some_iff.mp h.frame
  have := h.pos
  have := h.fresh
  omega

theorem Stored.later (h : t.Stored o) (hl : ∀ k, (t.workers k).Later (t'.workers k)) :
    t'.Stored o where
  pos := h.pos
  fresh := h.fresh
  frame := by
    obtain ⟨hlt, -⟩ := List.getElem?_eq_some_iff.mp h.frame
    obtain ⟨more, hmore⟩ := (hl o.worker).written
    rw [← hmore, List.getElem?_append_left hlt, h.frame]

theorem Shows.stored (h : t.Shows o t') (hc : ∀ k, (t.workers k).Counted) : t'.Stored o where
  pos := (Nat.zero_le _).trans_lt h.new
  fresh := by
    rw [h.seq, h.number]
    exact (hc o.worker).le.1.trans (h.later o.worker).written.length_le
  frame := by
    rw [← h.frame, (h.counted o.worker).latest, h.number, List.getLast?_eq_getElem?]

/-- **Consistent.** The workers count their frames, and the tile has read no count that its worker
has not reached; what it showed is stored, the count it read last was read for the last frame. -/
structure Consistent (t : FrameTile κ φ) (outs : List (ShownFrame κ φ)) : Prop where
  counted : ∀ k, (t.workers k).Counted
  read : ∀ k, t.worker = some k → t.lastSeq ≤ (t.workers k).frameSeq
  stored : ∀ o ∈ outs, t.Stored o
  last : ∀ k, t.worker = some k → 0 < t.lastSeq →
    ∃ o, outs.getLast? = some o ∧ o.worker = k ∧ o.seq = t.lastSeq

theorem consistent_init : (init : FrameTile κ φ).Consistent [] :=
  ⟨fun _ => FrameWorker.counted_new, fun _ _ => Nat.zero_le _,
    fun _ ho => absurd ho List.not_mem_nil, fun _ _ hpos => absurd hpos (Nat.lt_irrefl 0)⟩

/-- Of two frames shown in this order, the second was announced later, is no older, and was the next
to be announced, at most, when the first was fetched. -/
structure Follows (o o' : ShownFrame κ φ) : Prop where
  seq : o.seq < o'.seq
  number : o.number ≤ o'.number
  announced : o.number ≤ o'.seq + 1

/-- **The frames shown while the tile stays on `k`.** -/
structure InOrder (t : FrameTile κ φ) (k : κ) (shown : List (ShownFrame κ φ)) : Prop where
  worker : ∀ o ∈ shown, o.worker = k
  read : ∀ o ∈ shown, o.seq ≤ t.lastSeq
  follows : shown.Pairwise Follows

/-- Frames that follow one another show one of them three times at most. -/
theorem count_number_le {shown : List (ShownFrame κ φ)} (h : shown.Pairwise Follows)
    (hfresh : ∀ o ∈ shown, o.seq ≤ o.number) (n : ℕ) :
    (shown.map ShownFrame.number).count n ≤ 3 := by
  have hcount : (shown.map ShownFrame.number).count n =
      (shown.filter fun o => o.number = n).length := by
    rw [List.count_eq_countP, List.countP_map, ← List.countP_eq_length_filter]
    exact List.countP_congr fun o _ => by simp
  have hall : ∀ o ∈ shown.filter fun o => o.number = n, o.number = n ∧ o.seq ≤ n := by
    intro o ho
    obtain ⟨hm, hn⟩ := List.mem_filter.mp ho
    have hn : o.number = n := of_decide_eq_true hn
    exact ⟨hn, hn ▸ hfresh o hm⟩
  have hpair : ∀ i j, (hi : i < j) → (hj : j < (shown.filter fun o => o.number = n).length) →
      Follows (shown.filter fun o => o.number = n)[i] (shown.filter fun o => o.number = n)[j] :=
    fun i j hi hj => List.pairwise_iff_getElem.mp (h.filter _) i j _ hj hi
  rw [hcount]
  by_contra! hlen
  -- the second of four would be announced as `n - 1` or later, and so the fourth after `n`
  have h₀ := hall _ (List.getElem_mem (n := 0) (by omega))
  have h₃ := hall _ (List.getElem_mem (n := 3) (by omega))
  have h₀₁ := (hpair 0 1 (by omega) (by omega)).announced
  have h₁₂ := (hpair 1 2 (by omega) (by omega)).seq
  have h₂₃ := (hpair 2 3 (by omega) (by omega)).seq
  omega

/-! ## Steps -/

variable [DecidableEq κ]

theorem workers_decode (t : FrameTile κ φ) (k : κ) (d : Decode φ) (j : κ) :
    (t.decode k d).workers j = if j = k then (t.workers k).decode d else t.workers j :=
  Function.update_apply t.workers k _ j

theorem later_decode (t : FrameTile κ φ) (k : κ) (d : Decode φ) (j : κ) :
    (t.workers j).Later ((t.decode k d).workers j) := by
  rw [workers_decode]
  split_ifs with hj
  · rw [hj]
    exact (t.workers k).later_decode d
  · exact FrameWorker.Later.refl _

theorem counted_decode (h : ∀ k, (t.workers k).Counted) (k : κ) (d : Decode φ) (j : κ) :
    ((t.decode k d).workers j).Counted := by
  rw [workers_decode]
  split_ifs
  · exact (h k).decode d
  · exact h j

theorem decodeAll_spec (t : FrameTile κ φ) (ds : List (κ × Decode φ)) :
    (∀ k, (t.workers k).Later ((t.decodeAll ds).workers k)) ∧
    ((∀ k, (t.workers k).Counted) → ∀ k, ((t.decodeAll ds).workers k).Counted) ∧
    (t.decodeAll ds).worker = t.worker ∧ (t.decodeAll ds).lastSeq = t.lastSeq := by
  unfold decodeAll
  induction ds generalizing t with
  | nil => exact ⟨fun _ => FrameWorker.Later.refl _, fun h => h, rfl, rfl⟩
  | cons d ds ih =>
    obtain ⟨hlater, hcounted, hworker, hseq⟩ := ih (t.decode d.1 d.2)
    exact ⟨fun k => (later_decode t d.1 d.2 k).trans (hlater k),
      fun h => hcounted (counted_decode h d.1 d.2), hworker, hseq⟩

theorem quiet_decodeAll (t : FrameTile κ φ) (ds : List (κ × Decode φ)) :
    t.Quiet (t.decodeAll ds) := by
  obtain ⟨hlater, hcounted, hworker, hseq⟩ := t.decodeAll_spec ds
  exact ⟨hlater, hcounted, fun k hk => Or.inl ⟨hworker ▸ hk, hseq⟩⟩

theorem timerEvent_cases (h : ∀ k, (t.workers k).Counted) (during : List (κ × Decode φ)) :
    (t.timerEvent during).2 = [] ∧ t.Quiet (t.timerEvent during).1 ∨
    ∃ o, (t.timerEvent during).2 = [o] ∧ t.Shows o (t.timerEvent during).1 := by
  unfold timerEvent
  cases hk : t.worker with
  | none => exact Or.inl ⟨rfl, t.quiet_decodeAll during⟩
  | some k =>
    dsimp only
    split_ifs with hsink hnew
    · obtain ⟨hlater, hcounted, hworker, hseq⟩ :=
        { t with worker := some k, lastSeq := (t.workers k).frameSeq }.decodeAll_spec during
      have hpos : 0 < (t.workers k).written.length := by
        have := (h k).le
        omega
      obtain ⟨frame, hframe⟩ : ∃ frame, (({ t with
          worker := some k, lastSeq := (t.workers k).frameSeq }.decodeAll during).workers k).latestFrame =
            some frame := by
        rw [(hcounted h k).latest, List.getLast?_eq_some_getLast]
        · exact ⟨_, rfl⟩
        · apply List.ne_nil_of_length_pos
          exact hpos.trans_le (hlater k).written.length_le
      right
      rw [hframe]
      exact ⟨_, rfl, hk, rfl, hnew, hlater, hcounted h, hworker, hseq, rfl, hframe⟩
    · exact Or.inl ⟨rfl, t.quiet_decodeAll during⟩
    · exact Or.inl ⟨rfl, t.quiet_decodeAll during⟩

theorem step_cases (h : ∀ k, (t.workers k).Counted) (e : Event κ φ) :
    (t.step e).2 = [] ∧ t.Quiet (t.step e).1 ∨
    ∃ o, (t.step e).2 = [o] ∧ t.Shows o (t.step e).1 := by
  cases e with
  | decode k d =>
    exact Or.inl ⟨rfl, later_decode t k d, fun h => counted_decode h k d, fun _ => stays_same⟩
  | setVideoSink sink =>
    exact Or.inl ⟨rfl, (t.quiet_refl).later, fun h => h, fun _ => stays_same⟩
  | tryAttach newWorker =>
    refine Or.inl ⟨rfl, ?_⟩
    rw [step]
    split_ifs with hne
    · refine ⟨(t.quiet_refl).later, fun h => h, fun k hk => Or.inr ⟨?_, rfl⟩⟩
      rintro hk'
      exact hne (hk.trans hk'.symm)
    · exact t.quiet_refl
  | deleted k =>
    refine Or.inl ⟨rfl, ?_⟩
    rw [step]
    split_ifs
    · exact ⟨(t.quiet_refl).later, fun h => h, fun _ hk => absurd hk (Option.some_ne_none _).symm⟩
    · exact t.quiet_refl
  | timer during => exact timerEvent_cases h during

/-! ## Runs -/

theorem Consistent.step (h : t.Consistent outs) (e : Event κ φ) :
    (t.step e).1.Consistent (outs ++ (t.step e).2) := by
  obtain ⟨ho, hq⟩ | ⟨o, ho, hs⟩ := step_cases h.counted e
  · rw [ho, List.append_nil]
    refine ⟨hq.counted h.counted, fun k hk => ?_, fun o ho => (h.stored o ho).later hq.later,
      fun k hk hpos => ?_⟩
    · obtain ⟨hk', hseq⟩ | ⟨-, hseq⟩ := hq.stays k hk
      · rw [hseq]
        exact (h.read k hk').trans (hq.later k).frameSeq
      · rw [hseq]
        exact Nat.zero_le _
    · obtain ⟨hk', hseq⟩ | ⟨-, hseq⟩ := hq.stays k hk
      · rw [hseq] at hpos ⊢
        exact h.last k hk' hpos
      · exact absurd hseq hpos.ne'
  · rw [ho]
    refine ⟨hs.counted, fun k hk => ?_, fun o' ho' => ?_, fun k hk _ => ?_⟩
    · obtain rfl : o.worker = k := Option.some.inj (hs.stays.symm.trans hk)
      rw [hs.lastSeq, hs.seq]
      exact (hs.later _).frameSeq
    · obtain ho' | ho' := List.mem_append.mp ho'
      · exact (h.stored o' ho').later hs.later
      · rw [List.mem_singleton.mp ho']
        exact hs.stored h.counted
    · exact ⟨o, List.getLast?_concat, Option.some.inj (hs.stays.symm.trans hk), hs.lastSeq.symm⟩

theorem consistent_final (es : List (Event κ φ)) :
    (Machine.final step init es : FrameTile κ φ).Consistent (Machine.outputs step init es) := by
  induction es using List.reverseRecOn with
  | nil => exact consistent_init
  | append_singleton es e ih =>
    rw [Machine.final_concat, Machine.outputs_concat]
    exact ih.step e

theorem InOrder.step {k : κ} {shown : List (ShownFrame κ φ)} (h : t.InOrder k shown)
    (hc : t.Consistent outs) (hsub : shown ⊆ outs) (hk : t.worker = some k) {e : Event κ φ}
    (hk' : (t.step e).1.worker = some k) : (t.step e).1.InOrder k (shown ++ (t.step e).2) := by
  obtain ⟨ho, hq⟩ | ⟨o, ho, hs⟩ := step_cases hc.counted e
  · rw [ho, List.append_nil]
    obtain ⟨-, hseq⟩ | ⟨hne, -⟩ := hq.stays k hk'
    · exact ⟨h.worker, fun o ho => hseq ▸ h.read o ho, h.follows⟩
    · exact absurd hk hne
  · rw [ho]
    have hok : o.worker = k := Option.some.inj (hs.worker.symm.trans hk)
    have hold : ∀ o' ∈ shown, Follows o' o := by
      intro o' ho'
      have hseq := (h.read o' ho').trans_lt hs.new
      have hle := (hc.stored o' (hsub ho')).number_le
      rw [h.worker o' ho', ← hok] at hle
      refine ⟨hseq, ?_, ?_⟩
      · rw [hs.number]
        exact hle.trans (hs.later _).written.length_le
      · rw [hs.seq]
        exact hle.trans (hc.counted _).le.2
    refine ⟨?_, ?_, ?_⟩
    · rw [List.forall_mem_append, List.forall_mem_singleton]
      exact ⟨h.worker, hok⟩
    · rw [List.forall_mem_append, List.forall_mem_singleton, hs.lastSeq]
      exact ⟨fun o' ho' => ((h.read o' ho').trans_lt hs.new).le, Nat.le_refl _⟩
    · rw [List.pairwise_append]
      refine ⟨h.follows, List.pairwise_singleton _ _, fun o' ho' o'' ho'' => ?_⟩
      rw [List.mem_singleton.mp ho'']
      exact hold o' ho'

theorem inOrder_stay {k : κ} (pre post : List (Event κ φ))
    (hstay : ∀ p, p <+: post →
      (Machine.final step (init : FrameTile κ φ) (pre ++ p)).worker = some k) :
    (Machine.final step init (pre ++ post)).InOrder k
      (Machine.outputs step (Machine.final step init pre) post) := by
  induction post using List.reverseRecOn with
  | nil =>
    exact ⟨fun _ ho => absurd ho List.not_mem_nil, fun _ ho => absurd ho List.not_mem_nil,
      List.Pairwise.nil⟩
  | append_singleton post e ih =>
    have h := ih fun p hp => hstay p (hp.trans (List.prefix_append _ _))
    have hk := hstay post (List.prefix_append _ _)
    have hk' := hstay (post ++ [e]) (List.prefix_refl _)
    rw [← List.append_assoc, Machine.final_concat] at hk' ⊢
    rw [Machine.outputs_concat, ← Machine.final_append]
    refine h.step (consistent_final (pre ++ post)) ?_ hk hk'
    rw [Machine.outputs_append]
    exact List.subset_append_right _ _

/-- **Frames in order.** While a tile stays on a worker, every frame it shows was stored and is no
older than the count read; later ones are no older, and none is shown more than three times. -/
theorem frames_in_order {k : κ} (pre post : List (Event κ φ))
    (hstay : ∀ p, p <+: post →
      (Machine.final step (init : FrameTile κ φ) (pre ++ p)).worker = some k) :
    (∀ o ∈ Machine.outputs step (Machine.final step init pre) post, o.worker = k ∧
      o.seq ≤ o.number ∧
        ((Machine.final step init (pre ++ post)).workers k).written[o.number - 1]? = some o.frame) ∧
    (Machine.outputs step (Machine.final step init pre) post).Pairwise
      (fun o o' => o.seq < o'.seq ∧ o.number ≤ o'.number) ∧
    ∀ n, ((Machine.outputs step (Machine.final step init pre) post).map
      ShownFrame.number).count n ≤ 3 := by
  have h := inOrder_stay pre post hstay
  have hc := (consistent_final (pre ++ post)).stored
  rw [Machine.outputs_append, List.forall_mem_append] at hc
  refine ⟨fun o ho => ?_, h.follows.imp fun h => ⟨h.seq, h.number⟩, fun n => ?_⟩
  · have hk := h.worker o ho
    exact ⟨hk, (hc.2 o ho).fresh, hk ▸ (hc.2 o ho).frame⟩
  · exact count_number_le h.follows (fun o ho => (hc.2 o ho).fresh) n

/-- One decode thread that publishes two frames, the second in the middle of a timer event. -/
theorem frames_in_order_two : (Machine.outputs step
    (Machine.final step (init : FrameTile ℕ ℕ) [.setVideoSink true, .tryAttach (some 0)])
    [.decode 0 (.store 7), .decode 0 .count, .timer [(0, .store 8)], .decode 0 .count,
      .timer []]).Pairwise (fun o o' => o.seq < o'.seq ∧ o.number ≤ o'.number) := by
  refine (frames_in_order (k := 0) _ _ fun p hp => ?_).2.1
  rw [← List.mem_inits] at hp
  revert p
  decide

theorem timerEvent_of_new {k : κ} (hk : t.worker = some k) (hsink : t.sink = true)
    (hnew : t.lastSeq < (t.workers k).frameSeq) {frame : φ}
    (hframe : (t.workers k).latestFrame = some frame) :
    (t.timerEvent []).2 =
      [⟨k, (t.workers k).frameSeq, frame, (t.workers k).written.length⟩] := by
  unfold timerEvent
  rw [hk]
  dsimp only [decodeAll, List.foldl_nil]
  rw [if_pos hsink, if_pos hnew, hframe]
  rfl

theorem timerEvent_of_not_new {k : κ} (hk : t.worker = some k)
    (hold : ¬ t.lastSeq < (t.workers k).frameSeq) : (t.timerEvent []).2 = [] := by
  unfold timerEvent
  rw [hk]
  dsimp only
  split_ifs <;> rfl

/-- **The newest frame is shown.** In any run, once the decode thread of the tile's worker rests and
has stored a frame, a timer event leaves that thread's last frame as the last one shown. -/
theorem timer_shows_latest (es : List (Event κ φ)) {k : κ} {w : FrameWorker φ}
    (hk : (Machine.final step (init : FrameTile κ φ) es).worker = some k)
    (hw : (Machine.final step (init : FrameTile κ φ) es).workers k = w)
    (hsink : (Machine.final step (init : FrameTile κ φ) es).sink = true)
    (hrest : w.publishing = false) (hpos : w.written ≠ []) :
    ∃ o, (Machine.outputs step (init : FrameTile κ φ) (es ++ [.timer []])).getLast? = some o ∧
      o.worker = k ∧ some o.frame = w.written.getLast? ∧ o.number = w.written.length := by
  have hc := consistent_final (κ := κ) (φ := φ) es
  rw [Machine.outputs_concat]
  generalize (Machine.final step (init : FrameTile κ φ) es) = t at *
  subst hw
  have hlen := (hc.counted k).length
  rw [if_neg (by rw [hrest]; exact Bool.false_ne_true), Nat.add_zero] at hlen
  have hlast := (hc.counted k).latest
  by_cases hnew : t.lastSeq < (t.workers k).frameSeq
  · rw [List.getLast?_eq_some_getLast hpos] at hlast ⊢
    rw [step, timerEvent_of_new hk hsink hnew hlast]
    exact ⟨_, List.getLast?_concat, rfl, rfl, rfl⟩
  · -- the count was read before, for the last frame shown, which can only be the newest one
    rw [step, timerEvent_of_not_new hk hnew, List.append_nil]
    have hread := hc.read k hk
    have hlenpos := List.length_pos_iff.mpr hpos
    obtain ⟨o, ho, rfl, hseq⟩ := hc.last k hk (by omega)
    have hs := hc.stored o (List.mem_of_getLast? ho)
    have hnumber : o.number = (t.workers o.worker).written.length := by
      have := hs.number_le
      have := hs.fresh
      omega
    refine ⟨o, ho, rfl, ?_, hnumber⟩
    rw [← hs.frame, hnumber, List.getLast?_eq_getElem?]

/-- A frame that is counted while the tile is on another worker. -/
theorem timer_shows_latest_one : ∃ o : ShownFrame ℕ ℕ,
    (Machine.outputs step init ([.setVideoSink true, .tryAttach (some 1), .decode 0 (.store 7),
      .decode 0 .count, .tryAttach (some 0)] ++ [.timer []])).getLast? = some o ∧
      o.worker = 0 ∧ some o.frame = [7].getLast? ∧ o.number = [7].length :=
  timer_shows_latest (w := ⟨some 7, 1, false, [7]⟩) _ rfl rfl rfl rfl (by decide)

end FrameTile

end Services

end AnoMap
