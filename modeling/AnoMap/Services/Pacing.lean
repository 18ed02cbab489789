import AnoMap.Lib.Machine
import Mathlib.Algebra.Order.Ring.Nat
import Mathlib.Data.List.Chain
import Mathlib.Data.List.Induction
import Mathlib.Order.CompletePartialOrder

/-!
# The pace of a stream

`Video` decodes a stream in a loop. A frame that comes sooner after the last one let through than
the limit of the settings allows is dropped, and so is the rest of its packet; the loop then sleeps
until the next frame may pass. The clock counts nanoseconds from its epoch.

* `Video`, `step`: the decode loop frame by frame, among changes of the limit and restarts.
* `Look`: what the throttle decides about a frame; `Steady`: the clock never goes back, and a sleep
  lasts as long as was asked for.
* **`frames_spaced`**: no frame is let through earlier than the limit after one before it, so that a
  stretch of time sees boundedly many, over restarts and changes of the limit too.
* **`drop_then_pass`**: of two frames in a row, both are dropped only if the limit was raised.
-/

set_option autoImplicit false

namespace AnoMap

namespace Services

variable {φ : Type}

inductive PixelFormat where
  | nv12
  | nv21
  | other
  deriving DecidableEq, Repr

/-- `transferred`: it was decoded in software, or its transfer from the hardware succeeded. -/
structure Decoded (φ : Type) where
  transferred : Bool
  width : ℤ
  height : ℤ
  format : PixelFormat
  data : φ

/-- `decoding`: its thread runs; `dropping`: the frames left in the packet are not looked at. -/
structure Video where
  lastFrameTime : ℕ
  fpsLimitMs : ℕ
  decoding : Bool
  dropping : Bool

/-- What the throttle decides about a frame: `sleepMs` is how long it sleeps, if it drops it. -/
structure Look (φ : Type) where
  frame : Decoded φ
  now : ℕ
  limitMs : ℕ
  sleepMs : Option ℕ

namespace Video

def new : Video := ⟨0, 33, false, false⟩

def limitOf (fps : ℤ) : ℕ := if 0 < fps then 1000 / fps.toNat else 33

/-- `readFrame`: a packet of the video stream is sent to the decoder; `receiveFrame`: the decoder
gives a frame, and the clock shows `now` if it is read. -/
inductive Event (φ : Type) where
  | startStream (url : String) (fpsLimit : ℤ)
  | stopStream
  | setFpsLimit (fps : ℤ)
  | readFrame
  | receiveFrame (frame : Decoded φ) (now : ℕ)

def setFpsLimit (v : Video) (fps : ℤ) : Video := { v with fpsLimitMs := limitOf fps }

def stopStream (v : Video) : Video := { v with decoding := false }

def startStream (v : Video) (url : String) (fpsLimit : ℤ) : Video :=
  if url = "" then v
  else { v.stopStream with fpsLimitMs := limitOf fpsLimit, decoding := true, dropping := false }

def elapsedMs (v : Video) (now : ℕ) : ℕ := (now - v.lastFrameTime) / 1000000

def receiveFrame (v : Video) (frame : Decoded φ) (now : ℕ) : Video × List (Look φ) :=
  if ¬ v.decoding ∨ v.dropping then (v, [])
  else if ¬ frame.transferred ∨ frame.width ≤ 0 ∨ frame.height ≤ 0 then (v, [])
  else if v.elapsedMs now < v.fpsLimitMs then
    ({ v with dropping := true },
      [⟨frame, now, v.fpsLimitMs, some (v.fpsLimitMs - v.elapsedMs now)⟩])
  else ({ v with lastFrameTime := now }, [⟨frame, now, v.fpsLimitMs, none⟩])

def step (v : Video) : Event φ → Video × List (Look φ)
  | .startStream url fpsLimit => (v.startStream url fpsLimit, [])
  | .stopStream => (v.stopStream, [])
  | .setFpsLimit fps => (v.setFpsLimit fps, [])
  | .readFrame => ({ v with dropping := false }, [])
  | .receiveFrame frame now => v.receiveFrame frame now

/-- What `onFrameReady` is called with. -/
def delivered (looks : List (Look φ)) : List (Look φ) :=
  looks.filter fun o => o.sleepMs = none ∧ (o.frame.format = .nv12 ∨ o.frame.format = .nv21)

/-- The clock never goes back, and a sleep lasts as long as was asked for. -/
def Steady (looks : List (Look φ)) : Prop :=
  looks.IsChain fun o o' => o.now + o.sleepMs.getD 0 * 1000000 ≤ o'.now

instance (looks : List (Look φ)) : Decidable (Steady looks) :=
  inferInstanceAs (Decidable (looks.IsChain _))

/-! ## Looks -/

/-- The throttle lets the frame through. -/
structure Passes (v : Video) (o : Look φ) (v' : Video) : Prop where
  sleepMs : o.sleepMs = none
  limitMs : o.limitMs = v.fpsLimitMs
  due : v.fpsLimitMs ≤ v.elapsedMs o.now
  lastFrameTime : v'.lastFrameTime = o.now

/-- The throttle drops the frame, and sleeps for the rest of the limit. -/
structure Drops (v : Video) (o : Look φ) (v' : Video) : Prop where
  early : v.elapsedMs o.now < v.fpsLimitMs
  sleepMs : o.sleepMs = some (v.fpsLimitMs - v.elapsedMs o.now)
  limitMs : o.limitMs = v.fpsLimitMs
  lastFrameTime : v'.lastFrameTime = v.lastFrameTime

variable {v v' : Video} {o : Look φ} {looks : List (Look φ)}

theorem step_cases (v : Video) (e : Event φ) :
    (v.step e).2 = [] ∧ (v.step e).1.lastFrameTime = v.lastFrameTime ∨
    ∃ o, (v.step e).2 = [o] ∧ (v.Passes o (v.step e).1 ∨ v.Drops o (v.step e).1) := by
  cases e with
  | startStream url fpsLimit =>
    refine Or.inl ⟨rfl, ?_⟩
    unfold step startStream
    dsimp only
    split_ifs <;> rfl
  | stopStream => exact Or.inl ⟨rfl, rfl⟩
  | setFpsLimit fps => exact Or.inl ⟨rfl, rfl⟩
  | readFrame => exact Or.inl ⟨rfl, rfl⟩
  | receiveFrame frame now =>
    unfold step receiveFrame
    dsimp only
    split_ifs with hidle hskip hearly
    · exact Or.inl ⟨rfl, rfl⟩
    · exact Or.inl ⟨rfl, rfl⟩
    · exact Or.inr ⟨_, rfl, Or.inr ⟨hearly, rfl, rfl, rfl⟩⟩
    · exact Or.inr ⟨_, rfl, Or.inl ⟨rfl, rfl, not_lt.mp hearly, rfl⟩⟩

theorem Passes.spaced (h : v.Passes o v') (hle : v.lastFrameTime ≤ o.now) :
    v.lastFrameTime + o.limitMs * 1000000 ≤ o.now := by
  have hdue := h.due
  unfold elapsedMs at hdue
  rw [h.limitMs]
  omega

theorem Drops.slept (h : v.Drops o v') (hle : v.lastFrameTime ≤ o.now) :
    v.lastFrameTime + o.limitMs * 1000000 ≤ o.now + o.sleepMs.getD 0 * 1000000 := by
  have hearly := h.early
  rw [h.limitMs, h.sleepMs]
  unfold elapsedMs at *
  dsimp only [Option.getD_some]
  omega

/-- **Paced.** Frames let through are spaced and no later than the last of them; the last look was
no earlier, and if it dropped its frame, the next may pass after the sleep. -/
structure Paced (v : Video) (looks : List (Look φ)) : Prop where
  spaced : looks.Pairwise fun o o' => o.sleepMs = none → o'.sleepMs = none →
    o.now + o'.limitMs * 1000000 ≤ o'.now
  passed : ∀ o ∈ looks, o.sleepMs = none → o.now ≤ v.lastFrameTime
  first : looks = [] → v.lastFrameTime = 0
  last : ∀ o, looks.getLast? = some o → v.lastFrameTime ≤ o.now ∧
    (o.sleepMs.isSome → v.lastFrameTime + o.limitMs * 1000000 ≤ o.now + o.sleepMs.getD 0 * 1000000)
  raised : looks.IsChain fun o o' => o.sleepMs.isSome → o'.sleepMs.isSome → o.limitMs < o'.limitMs

theorem paced_new : new.Paced ([] : List (Look φ)) where
  spaced := List.Pairwise.nil
  passed _ ho := absurd ho List.not_mem_nil
  first _ := rfl
  last _ ho := absurd ho.symm (Option.some_ne_none _)
  raised := List.IsChain.nil

theorem Paced.le_now (h : v.Paced looks) (hs : Steady (looks ++ [o])) : v.lastFrameTime ≤ o.now := by
  cases hlast : looks.getLast? with
  | none =>
    rw [h.first (List.getLast?_eq_none_iff.mp hlast)]
    exact Nat.zero_le _
  | some o' =>
    have hnow := (List.isChain_append.mp hs).2.2 o' hlast o (by simp)
    have := (h.last o' hlast).1
    omega

theorem Paced.passes (h : v.Paced looks) (hs : Steady (looks ++ [o])) (hp : v.Passes o v') :
    v'.Paced (looks ++ [o]) := by
  have hle := h.le_now hs
  have hspaced := hp.spaced hle
  refine ⟨?_, fun o' ho' hpass => ?_, fun hnil => ?_, fun o' ho' => ?_, ?_⟩
  · rw [List.pairwise_append]
    refine ⟨h.spaced, List.pairwise_singleton _ _, fun o₁ h₁ o₂ h₂ hpass _ => ?_⟩
    rw [List.mem_singleton.mp h₂]
    have := h.passed o₁ h₁ hpass
    omega
  · rw [hp.lastFrameTime]
    obtain ho' | ho' := List.mem_append.mp ho'
    · exact (h.passed o' ho' hpass).trans hle
    · rw [List.mem_singleton.mp ho']
  · exact absurd hnil (List.append_ne_nil_of_right_ne_nil _ (List.cons_ne_nil _ _))
  · obtain rfl := Option.some.inj (List.getLast?_concat.symm.trans ho')
    refine ⟨hp.lastFrameTime.le, fun hdrop => ?_⟩
    rw [hp.sleepMs] at hdrop
    exact absurd hdrop Bool.false_ne_true
  · rw [List.isChain_append]
    refine ⟨h.raised, List.isChain_singleton _, fun o₁ _ o₂ h₂ _ hdrop => ?_⟩
    rw [List.head?_cons, Option.mem_def, Option.some.injEq] at h₂
    rw [← h₂, hp.sleepMs] at hdrop
    exact absurd hdrop Bool.false_ne_true

theorem Paced.drops (h : v.Paced looks) (hs : Steady (looks ++ [o])) (hd : v.Drops o v') :
    v'.Paced (looks ++ [o]) := by
  have hle := h.le_now hs
  have hsome : o.sleepMs ≠ none := by
    rw [hd.sleepMs]
    exact Option.some_ne_none _
  refine ⟨?_, fun o' ho' hpass => ?_, fun hnil => ?_, fun o' ho' => ?_, ?_⟩
  · rw [List.pairwise_append]
    refine ⟨h.spaced, List.pairwise_singleton _ _, fun o₁ _ o₂ h₂ _ hpass => ?_⟩
    rw [List.mem_singleton.mp h₂] at hpass
    exact absurd hpass hsome
  · rw [hd.lastFrameTime]
    obtain ho' | ho' := List.mem_append.mp ho'
    · exact h.passed o' ho' hpass
    · rw [List.mem_singleton.mp ho'] at hpass
      exact absurd hpass hsome
  · exact absurd hnil (List.append_ne_nil_of_right_ne_nil _ (List.cons_ne_nil _ _))
  · obtain rfl := Option.some.inj (List.getLast?_concat.symm.trans ho')
    rw [hd.lastFrameTime]
    exact ⟨hle, fun _ => hd.slept hle⟩
  · rw [List.isChain_append]
    refine ⟨h.raised, List.isChain_singleton _, fun o₁ h₁ o₂ h₂ hdrop _ => ?_⟩
    rw [List.head?_cons, Option.mem_def, Option.some.injEq] at h₂
    subst h₂
    -- the clock has slept past the limit of the frame dropped before
    have hnow := (List.isChain_append.mp hs).2.2 o₁ h₁ o (by simp)
    have hslept := (h.last o₁ h₁).2 hdrop
    have hearly := hd.early
    unfold elapsedMs at hearly
    rw [hd.limitMs]
    omega

theorem Paced.step (h : v.Paced looks) (e : Event φ) (hs : Steady (looks ++ (v.step e).2)) :
    (v.step e).1.Paced (looks ++ (v.step e).2) := by
  obtain ⟨ho, hlast⟩ | ⟨o, ho, hp | hd⟩ := step_cases v e
  · rw [ho, List.append_nil]
    exact ⟨h.spaced, hlast ▸ h.passed, hlast ▸ h.first, hlast ▸ h.last, h.raised⟩
  · rw [ho] at hs ⊢
    exact h.passes hs hp
  · rw [ho] at hs ⊢
    exact h.drops hs hd

theorem paced_final (es : List (Event φ)) (hs : Steady (Machine.outputs step new es)) :
    (Machine.final step new es).Paced (Machine.outputs step new es) := by
  induction es using List.reverseRecOn with
  | nil => exact paced_new
  | append_singleton es e ih =>
    rw [Machine.outputs_concat] at hs ⊢
    rw [Machine.final_concat]
    exact (ih (List.isChain_append.mp hs).1).step e hs

/-! ## Stretches of time -/

/-- Numbers at least `s` apart in a stretch of length `d`. -/
theorem length_mul_lt {l : List ℕ} {s a d : ℕ} (hd : 0 < d)
    (h : l.Pairwise fun x y => x + s ≤ y) (hin : ∀ x ∈ l, a ≤ x ∧ x < a + d) :
    l.length * s < d + s := by
  induction l generalizing a d with
  | nil =>
    rw [List.length_nil, Nat.zero_mul]
    omega
  | cons x l ih =>
    obtain ⟨hx, hl⟩ := List.pairwise_cons.mp h
    obtain ⟨hax, hxd⟩ := hin x List.mem_cons_self
    rw [List.length_cons, Nat.succ_mul]
    cases l with
    | nil =>
      rw [List.length_nil, Nat.zero_mul]
      omega
    | cons y l =>
      have hy := hx y List.mem_cons_self
      have hyd := (hin y (List.mem_cons_of_mem x List.mem_cons_self)).2
      have := ih (a := x + s) (d := a + d - (x + s)) (by omega) hl fun z hz => by
        have := hx z hz
        have := (hin z (List.mem_cons_of_mem x hz)).2
        omega
      omega

/-- The limits of a run are at least `L`. -/
def AtLeast (L : ℕ) : Event φ → Prop
  | .startStream _ fpsLimit => L ≤ limitOf fpsLimit
  | .setFpsLimit fps => L ≤ limitOf fps
  | _ => True

theorem looks_of_idle {e : Event φ} (h : v.decoding = false) : (v.step e).2 = [] := by
  cases e with
  | startStream url fpsLimit => rfl
  | stopStream => rfl
  | setFpsLimit fps => rfl
  | readFrame => rfl
  | receiveFrame frame now =>
    unfold step receiveFrame
    dsimp only
    rw [if_pos (Or.inl (by rw [h]; exact Bool.false_ne_true))]

theorem limit_step {L : ℕ} {e : Event φ} (h : v.decoding → L ≤ v.fpsLimitMs) (he : AtLeast L e) :
    (v.step e).1.decoding → L ≤ (v.step e).1.fpsLimitMs := by
  cases e with
  | startStream url fpsLimit =>
    unfold step startStream
    dsimp only
    split_ifs
    · exact h
    · exact fun _ => he
  | stopStream => exact fun hd => absurd hd Bool.false_ne_true
  | setFpsLimit fps => exact fun _ => he
  | readFrame => exact h
  | receiveFrame frame now =>
    unfold step receiveFrame
    dsimp only
    split_ifs <;> exact h

theorem limit_le {L : ℕ} (es : List (Event φ)) (hes : ∀ e ∈ es, AtLeast L e) :
    ∀ o ∈ Machine.outputs step new es, L ≤ o.limitMs := by
  have hfinal := Machine.invariant step (s := new) (fun v => v.decoding → L ≤ v.fpsLimitMs)
    (AtLeast (φ := φ) L) (fun hd => absurd hd Bool.false_ne_true) fun v e he h => limit_step h he
  induction es using List.reverseRecOn with
  | nil => exact fun _ ho => absurd ho List.not_mem_nil
  | append_singleton es e ih =>
    rw [List.forall_mem_append, List.forall_mem_singleton] at hes
    rw [Machine.outputs_concat, List.forall_mem_append]
    refine ⟨ih hes.1, fun o ho => ?_⟩
    have hlim := hfinal es hes.1
    generalize Machine.final step new es = v at hlim ho
    have hdec : v.decoding = true := by
      by_contra hne
      rw [looks_of_idle (Bool.not_eq_true _ ▸ hne)] at ho
      exact absurd ho List.not_mem_nil
    obtain ⟨hnil, -⟩ | ⟨o', ho', hp | hd⟩ := step_cases v e
    · rw [hnil] at ho
      exact absurd ho List.not_mem_nil
    · rw [ho', List.mem_singleton] at ho
      rw [ho, hp.limitMs]
      exact hlim hdec
    · rw [ho', List.mem_singleton] at ho
      rw [ho, hd.limitMs]
      exact hlim hdec

theorem Paced.delivered (h : v.Paced looks) :
    (Video.delivered looks).Pairwise fun o o' => o.now + o'.limitMs * 1000000 ≤ o'.now := by
  refine List.Pairwise.imp_of_mem ?_ (h.spaced.filter _)
  intro o o' ho ho' h
  have ho := of_decide_eq_true (List.mem_filter.mp ho).2
  have ho' := of_decide_eq_true (List.mem_filter.mp ho').2
  exact h ho.1 ho'.1

/-- **Frames are spaced** by the limits in force: where all are `L` milliseconds or more, a stretch
of `d` milliseconds sees fewer than `d / L + 1` frames. -/
theorem frames_spaced (es : List (Event φ)) (hs : Steady (Machine.outputs step new es)) :
    (delivered (Machine.outputs step new es)).Pairwise
      (fun o o' => o.now + o'.limitMs * 1000000 ≤ o'.now) ∧
    ∀ L, (∀ e ∈ es, AtLeast L e) → ∀ a d, 0 < d →
      ((delivered (Machine.outputs step new es)).filter
        fun o => a ≤ o.now ∧ o.now < a + d * 1000000).length * L < d + L := by
  have hspaced := (paced_final es hs).delivered
  refine ⟨hspaced, fun L hes a d hd => ?_⟩
  have hlim : ∀ o ∈ delivered (Machine.outputs step new es), L ≤ o.limitMs :=
    fun o ho => limit_le es hes o (List.mem_filter.mp ho).1
  generalize delivered (Machine.outputs step new es) = l at hspaced hlim
  have hnows : ((l.filter fun o => a ≤ o.now ∧ o.now < a + d * 1000000).map Look.now).Pairwise
      fun x y => x + L * 1000000 ≤ y := by
    rw [List.pairwise_map]
    refine (hspaced.filter _).imp_of_mem fun {o o'} _ ho' h => ?_
    have hle := hlim o' (List.mem_filter.mp ho').1
    calc o.now + L * 1000000
        ≤ o.now + o'.limitMs * 1000000 := Nat.add_le_add_left (Nat.mul_le_mul_right _ hle) _
      _ ≤ o'.now := h
  have hin : ∀ x ∈ (l.filter fun o => a ≤ o.now ∧ o.now < a + d * 1000000).map Look.now,
      a ≤ x ∧ x < a + d * 1000000 := by
    rw [List.forall_mem_map]
    intro o ho
    simpa using (List.mem_filter.mp ho).2
  have hcount := length_mul_lt (by omega) hnows hin
  rw [List.length_map, ← Nat.mul_assoc] at hcount
  omega

/-- The second of three frames is dropped. -/
theorem frames_spaced_three : (delivered (Machine.outputs step new [
    .startStream "rtsp://10.0.0.1/0" 30,
    .readFrame, .receiveFrame ⟨true, 640, 480, .nv12, 0⟩ 40000000,
    .readFrame, .receiveFrame ⟨true, 640, 480, .nv12, 1⟩ 50000000,
    .readFrame, .receiveFrame ⟨true, 640, 480, .nv12, 2⟩ 80000000])).Pairwise
      (fun o o' => o.now + o'.limitMs * 1000000 ≤ o'.now) :=
  (frames_spaced _ (by decide)).1

/-- **A drop, then a pass.** In any run, two frames that come to the throttle one after the other
are both dropped only if the limit was raised in between. -/
theorem drop_then_pass (es : List (Event φ)) (hs : Steady (Machine.outputs step new es)) :
    (Machine.outputs step new es).IsChain fun o o' =>
      o.sleepMs.isSome → o'.sleepMs.isSome → o.limitMs < o'.limitMs :=
  (paced_final es hs).raised

/-- The limit is raised after the first drop, and the second frame is dropped too. -/
theorem drop_then_pass_raised : (Machine.outputs step new [
    .startStream "rtsp://10.0.0.1/0" 30,
    .readFrame, .receiveFrame ⟨true, 640, 480, .nv12, 0⟩ 10000000,
    .setFpsLimit 10, .readFrame, .receiveFrame ⟨true, 640, 480, .nv12, 1⟩ 33000000]).IsChain
      fun o o' => o.sleepMs.isSome → o'.sleepMs.isSome → o.limitMs < o'.limitMs :=
  drop_then_pass _ (by decide)

end Video

end Services

end AnoMap
