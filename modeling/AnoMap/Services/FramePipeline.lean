import AnoMap.Services.FrameHandoff
import AnoMap.Services.Pacing

/-!
# From the decoder to the tile

The throttle of a stream, the hand-over of its frames and the timer of a tile, put together: every
worker has a decode thread, which looks at no further frame while it publishes one.

* `DecodeThread`, `threadsAll`: what the decode threads do, with the looks of their throttles and the
  steps of `onFrameReady` they lead to.
* `FramePipeline`, `step`: the threads and a tile.
* `Joined`: the frames stored for a worker are those its throttle handed on and `onFrameReady` did
  not drop.
* **`shown_frames_delivered`**: what a tile shows is the frame of its number among those that the
  throttle handed on and that were copied; two of them were decoded at least the limit apart.
-/

set_option autoImplicit false

namespace AnoMap

namespace Services

variable {κ φ : Type}

/-- `publishing`: a frame is stored and not counted yet. -/
structure DecodeThread where
  video : Video
  publishing : Bool

/-- `copied`: a frame that is handed on is copied, not dropped for a plane that is null, a size that is
not positive or memory that cannot be mapped. `count`: the end of `onFrameReady`. -/
inductive ThreadEvent (φ : Type) where
  | video (e : Video.Event φ) (copied : Bool)
  | count

def ThreadEvent.copied : ThreadEvent φ → Bool
  | .video _ copied => copied
  | .count => false

namespace DecodeThread

def new : DecodeThread := ⟨.new, false⟩

/-- What the throttle decides; a thread that is publishing receives no frame. -/
def step (t : DecodeThread) : ThreadEvent φ → DecodeThread × List (Look φ)
  | .video (.receiveFrame frame now) copied =>
    if t.publishing then (t, [])
    else
      let r := t.video.receiveFrame frame now
      (⟨r.1, copied && !(Video.delivered r.2).isEmpty⟩, r.2)
  | .video e _ => ({ t with video := (t.video.step e).1 }, [])
  | .count => ({ t with publishing := false }, [])

/-- The frames handed on that are copied. -/
def kept (e : ThreadEvent φ) (looks : List (Look φ)) : List (Look φ) :=
  if e.copied then Video.delivered looks else []

/-- The steps of `onFrameReady`. -/
def decodes (e : ThreadEvent φ) (looks : List (Look φ)) : List (Decode φ) :=
  match e with
  | .video _ _ => (kept e looks).map fun o => .store o.frame.data
  | .count => [.count]

end DecodeThread

structure FramePipeline (κ φ : Type) where
  threads : κ → DecodeThread
  tile : FrameTile κ φ

namespace FramePipeline

def init : FramePipeline κ φ := ⟨fun _ => .new, .init⟩

/-- `timer during`: a timer event, between whose two readings the threads do `during`. -/
inductive Event (κ φ : Type) where
  | threads (ds : List (κ × ThreadEvent φ))
  | setVideoSink (sink : Bool)
  | tryAttach (newWorker : Option κ)
  | deleted (k : κ)
  | timer (during : List (κ × ThreadEvent φ))

inductive Output (κ φ : Type) where
  | look (k : κ) (copied : Bool) (o : Look φ)
  | shown (o : ShownFrame κ φ)

def Output.look? [DecidableEq κ] (k : κ) : Output κ φ → Option (Look φ)
  | .look j _ o => if j = k then some o else none
  | .shown _ => none

def Output.copied? [DecidableEq κ] (k : κ) : Output κ φ → Option (Look φ)
  | .look j copied o => if j = k ∧ copied then some o else none
  | .shown _ => none

def Output.shown? : Output κ φ → Option (ShownFrame κ φ)
  | .look _ _ _ => none
  | .shown o => some o

/-- The looks of the throttle of `k`. -/
def looksOf [DecidableEq κ] (k : κ) (outs : List (Output κ φ)) : List (Look φ) :=
  outs.filterMap (Output.look? k)

/-- The frames that the throttle of `k` handed on and that were copied. -/
def copiedOf [DecidableEq κ] (k : κ) (outs : List (Output κ φ)) : List (Look φ) :=
  Video.delivered (outs.filterMap (Output.copied? k))

def shownOf (outs : List (Output κ φ)) : List (ShownFrame κ φ) := outs.filterMap Output.shown?

/-- What the threads do, one after the other. -/
def threadsAll [DecidableEq κ] (threads : κ → DecodeThread) :
    List (κ × ThreadEvent φ) → (κ → DecodeThread) × List (Output κ φ) × List (κ × Decode φ)
  | [] => (threads, [], [])
  | d :: ds =>
    let r := (threads d.1).step d.2
    let rest := threadsAll (Function.update threads d.1 r.1) ds
    (rest.1, r.2.map (.look d.1 d.2.copied) ++ rest.2.1,
      (DecodeThread.decodes d.2 r.2).map (Prod.mk d.1) ++ rest.2.2)

def step [DecidableEq κ] (p : FramePipeline κ φ) : Event κ φ → FramePipeline κ φ × List (Output κ φ)
  | .threads ds =>
    let r := threadsAll p.threads ds
    (⟨r.1, p.tile.decodeAll r.2.2⟩, r.2.1)
  | .setVideoSink sink => ({ p with tile := (p.tile.step (.setVideoSink sink)).1 }, [])
  | .tryAttach newWorker => ({ p with tile := (p.tile.step (.tryAttach newWorker)).1 }, [])
  | .deleted k => ({ p with tile := (p.tile.step (.deleted k)).1 }, [])
  | .timer during =>
    let r := threadsAll p.threads during
    let s := p.tile.timerEvent r.2.2
    (⟨r.1, s.1⟩, r.2.1 ++ s.2.map .shown)

end FramePipeline

/-! ## One thread -/

namespace DecodeThread

variable (t : DecodeThread)

/-- The throttle of a thread moves as that of its stream, or the thread does not look. -/
theorem video_cases (e : ThreadEvent φ) :
    (t.step e).1.video = t.video ∧ (t.step e).2 = [] ∨
    ∃ e' : Video.Event φ, (t.step e).1.video = (t.video.step e').1 ∧
      (t.step e).2 = (t.video.step e').2 := by
  cases e with
  | count => exact Or.inl ⟨rfl, rfl⟩
  | video e copied =>
    cases e with
    | receiveFrame frame now =>
      unfold step
      dsimp only
      split_ifs
      · exact Or.inl ⟨rfl, rfl⟩
      · exact Or.inr ⟨.receiveFrame frame now, rfl, rfl⟩
    | startStream url fpsLimit => exact Or.inr ⟨.startStream url fpsLimit, rfl, rfl⟩
    | stopStream => exact Or.inr ⟨.stopStream, rfl, rfl⟩
    | setFpsLimit fps => exact Or.inr ⟨.setFpsLimit fps, rfl, rfl⟩
    | readFrame => exact Or.inr ⟨.readFrame, rfl, rfl⟩

theorem delivered_receiveFrame (v : Video) (frame : Decoded φ) (now : ℕ) :
    Video.delivered (v.receiveFrame frame now).2 = [] ∨
      ∃ o, Video.delivered (v.receiveFrame frame now).2 = [o] := by
  obtain ⟨hnil, -⟩ | ⟨o, ho, -⟩ := v.step_cases (.receiveFrame frame now)
  · left
    rw [show (v.receiveFrame frame now).2 = [] from hnil]
    rfl
  · rw [show (v.receiveFrame frame now).2 = [o] from ho]
    unfold Video.delivered
    rw [List.filter_singleton]
    cases decide (o.sleepMs = none ∧ (o.frame.format = .nv12 ∨ o.frame.format = .nv21))
    · exact Or.inl rfl
    · exact Or.inr ⟨o, rfl⟩

theorem kept_nil (e : ThreadEvent φ) : kept e [] = [] := by
  unfold kept
  exact ite_self _

/-- What a thread hands to its worker: nothing, a frame if it was not publishing one, or the end. -/
theorem decodes_cases (e : ThreadEvent φ) :
    (kept e (t.step e).2 = [] ∧ decodes e (t.step e).2 = [] ∧
      (t.step e).1.publishing = t.publishing) ∨
    (∃ o, t.publishing = false ∧ kept e (t.step e).2 = [o] ∧
      decodes e (t.step e).2 = [.store o.frame.data] ∧ (t.step e).1.publishing = true) ∨
    (kept e (t.step e).2 = [] ∧ decodes e (t.step e).2 = [.count] ∧
      (t.step e).1.publishing = false) := by
  cases e with
  | count => exact Or.inr (Or.inr ⟨rfl, rfl, rfl⟩)
  | video e copied =>
    have hnone {looks : List (Look φ)} (hk : kept (.video e copied) looks = []) :
        decodes (.video e copied) looks = [] := by
      rw [decodes, hk, List.map_nil]
    cases e with
    | receiveFrame frame now =>
      unfold step
      dsimp only
      split_ifs with hp
      · exact Or.inl ⟨kept_nil _, hnone (kept_nil _), rfl⟩
      · have hfalse : t.publishing = false := Bool.not_eq_true _ ▸ hp
        cases copied with
        | false => exact Or.inl ⟨rfl, rfl, hfalse.symm⟩
        | true =>
          have hkept : kept (.video (.receiveFrame frame now) true)
              (t.video.receiveFrame frame now).2 =
                Video.delivered (t.video.receiveFrame frame now).2 := if_pos rfl
          obtain hnil | ⟨o, ho⟩ := delivered_receiveFrame t.video frame now
          · rw [hnil] at hkept ⊢
            exact Or.inl ⟨hkept, hnone hkept, hfalse.symm⟩
          · rw [ho] at hkept ⊢
            refine Or.inr (Or.inl ⟨o, hfalse, hkept, ?_, rfl⟩)
            rw [decodes, hkept]
            rfl
    | startStream url fpsLimit => exact Or.inl ⟨kept_nil _, hnone (kept_nil _), rfl⟩
    | stopStream => exact Or.inl ⟨kept_nil _, hnone (kept_nil _), rfl⟩
    | setFpsLimit fps => exact Or.inl ⟨kept_nil _, hnone (kept_nil _), rfl⟩
    | readFrame => exact Or.inl ⟨kept_nil _, hnone (kept_nil _), rfl⟩

end DecodeThread

/-! ## Threads and workers -/

namespace FramePipeline

theorem shownOf_map_look (j : κ) (copied : Bool) (looks : List (Look φ)) :
    shownOf (looks.map (.look j copied)) = ([] : List (ShownFrame κ φ)) := by
  unfold shownOf
  rw [List.filterMap_map]
  simp [Function.comp_def, Output.shown?]

theorem delivered_append (looks looks' : List (Look φ)) :
    Video.delivered (looks ++ looks') = Video.delivered looks ++ Video.delivered looks' := by
  unfold Video.delivered
  exact List.filter_append _ _

variable [DecidableEq κ]

/-- **Joined.** A worker is publishing when its thread is; the frames stored for it are those its
throttle handed on and that were copied; and the throttle keeps its pace. -/
structure Joined (threads : κ → DecodeThread) (workers : κ → FrameWorker φ)
    (outs : List (Output κ φ)) : Prop where
  publishing : ∀ k, (workers k).publishing = (threads k).publishing
  written : ∀ k, (workers k).written = (copiedOf k outs).map fun o => o.frame.data
  paced : ∀ k, Video.Steady (looksOf k outs) → (threads k).video.Paced (looksOf k outs)

variable {threads : κ → DecodeThread} {t : FrameTile κ φ} {outs : List (Output κ φ)}

theorem looksOf_append (k : κ) (outs outs' : List (Output κ φ)) :
    looksOf k (outs ++ outs') = looksOf k outs ++ looksOf k outs' := List.filterMap_append

theorem copiedOf_append (k : κ) (outs outs' : List (Output κ φ)) :
    copiedOf k (outs ++ outs') = copiedOf k outs ++ copiedOf k outs' := by
  unfold copiedOf
  rw [List.filterMap_append, delivered_append]

theorem looksOf_map_look (k j : κ) (copied : Bool) (looks : List (Look φ)) :
    looksOf k (looks.map (.look j copied)) = if j = k then looks else [] := by
  unfold looksOf
  rw [List.filterMap_map]
  split_ifs with h
  · have hf : Output.look? k ∘ Output.look j copied = (some : Look φ → Option (Look φ)) := by
      funext o
      exact if_pos h
    rw [hf, List.filterMap_some]
  · have hf : Output.look? k ∘ Output.look j copied = fun _ : Look φ => none := by
      funext o
      exact if_neg h
    rw [hf]
    simp

theorem copiedOf_map_look (k j : κ) (copied : Bool) (looks : List (Look φ)) :
    copiedOf k (looks.map (.look j copied)) =
      if j = k then if copied then Video.delivered looks else [] else [] := by
  unfold copiedOf
  rw [List.filterMap_map, ← ite_and]
  split_ifs with h
  · have hf : Output.copied? k ∘ Output.look j copied = (some : Look φ → Option (Look φ)) := by
      funext o
      exact if_pos h
    rw [hf, List.filterMap_some]
  · have hf : Output.copied? k ∘ Output.look j copied = fun _ : Look φ => none := by
      funext o
      exact if_neg h
    rw [hf]
    simp [Video.delivered]

/-- What is copied was handed on. -/
theorem copiedOf_sublist (k : κ) (outs : List (Output κ φ)) :
    (copiedOf k outs).Sublist (Video.delivered (looksOf k outs)) := by
  induction outs with
  | nil => exact List.Sublist.refl _
  | cons out outs ih =>
    rw [← List.singleton_append, copiedOf_append, looksOf_append, delivered_append]
    refine List.Sublist.append ?_ ih
    cases out with
    | look j copied o =>
      have hc := copiedOf_map_look k j copied [o]
      have hl := looksOf_map_look k j copied [o]
      rw [List.map_singleton] at hc hl
      rw [hc, hl]
      split_ifs
      · exact List.Sublist.refl _
      · exact List.nil_sublist _
      · exact List.nil_sublist _
    | shown o => exact List.nil_sublist _

theorem decodeAll_append (t : FrameTile κ φ) (ds ds' : List (κ × Decode φ)) :
    t.decodeAll (ds ++ ds') = (t.decodeAll ds).decodeAll ds' := List.foldl_append

theorem Joined.thread (h : Joined threads t.workers outs) (k : κ) (e : ThreadEvent φ) :
    Joined (Function.update threads k ((threads k).step e).1)
      (t.decodeAll ((DecodeThread.decodes e ((threads k).step e).2).map (Prod.mk k))).workers
      (outs ++ ((threads k).step e).2.map (.look k e.copied)) := by
  have hworkers : ∀ j, (t.decodeAll ((DecodeThread.decodes e ((threads k).step e).2).map
      (Prod.mk k))).workers j = if j = k then
        (DecodeThread.decodes e ((threads k).step e).2).foldl FrameWorker.decode (t.workers k)
      else t.workers j := by
    intro j
    obtain ⟨-, hd, -⟩ | ⟨o, -, -, hd, -⟩ | ⟨-, hd, -⟩ := (threads k).decodes_cases e
    all_goals rw [hd]
    · split_ifs with hj
      · rw [hj]
        rfl
      · rfl
    · exact FrameTile.workers_decode t k _ j
    · exact FrameTile.workers_decode t k _ j
  refine ⟨fun j => ?_, fun j => ?_, fun j => ?_⟩
  · rw [hworkers, Function.update_apply]
    split_ifs with hj
    · have hk := h.publishing k
      obtain ⟨-, hd, hp⟩ | ⟨o, hidle, -, hd, hp⟩ | ⟨-, hd, hp⟩ := (threads k).decodes_cases e
      · rw [hd, hp]
        exact hk
      · rw [hd, hp]
        rw [hidle] at hk
        simp [FrameWorker.decode, hk]
      · rw [hd, hp]
        simp only [List.foldl_cons, List.foldl_nil, FrameWorker.decode]
        split_ifs with hpub
        · rfl
        · exact Bool.not_eq_true _ ▸ hpub
    · exact h.publishing j
  · rw [hworkers, copiedOf_append, copiedOf_map_look, ← DecodeThread.kept, List.map_append,
      ← h.written]
    by_cases hj : j = k
    · subst hj
      rw [if_pos rfl, if_pos rfl]
      obtain ⟨hl, hd, -⟩ | ⟨o, hidle, hl, hd, -⟩ | ⟨hl, hd, -⟩ := (threads j).decodes_cases e
      · rw [hd, hl]
        simp
      · have hk := (h.publishing j).trans hidle
        rw [hd, hl]
        simp [FrameWorker.decode, hk]
      · rw [hd, hl]
        simp only [List.foldl_cons, List.foldl_nil, FrameWorker.decode]
        split_ifs <;> simp
    · rw [if_neg hj, if_neg (Ne.symm hj), List.map_nil, List.append_nil]
  · rw [looksOf_append, looksOf_map_look, Function.update_apply]
    by_cases hj : j = k
    · subst hj
      rw [if_pos rfl, if_pos rfl]
      intro hs
      obtain ⟨hv, hl⟩ | ⟨e', hv, hl⟩ := (threads j).video_cases e
      · rw [hl, List.append_nil] at hs ⊢
        rw [hv]
        exact h.paced j hs
      · rw [hl] at hs ⊢
        rw [hv]
        exact (h.paced j (List.isChain_append.mp hs).1).step e' hs
    · rw [if_neg hj, if_neg (Ne.symm hj), List.append_nil]
      exact h.paced j

theorem Joined.threadsAll (h : Joined threads t.workers outs) (ds : List (κ × ThreadEvent φ)) :
    Joined (FramePipeline.threadsAll threads ds).1
      (t.decodeAll (FramePipeline.threadsAll threads ds).2.2).workers
      (outs ++ (FramePipeline.threadsAll threads ds).2.1) := by
  induction ds generalizing threads t outs with
  | nil =>
    unfold FramePipeline.threadsAll
    rw [List.append_nil]
    exact h
  | cons d ds ih =>
    unfold FramePipeline.threadsAll
    dsimp only
    rw [decodeAll_append, ← List.append_assoc]
    exact ih (h.thread d.1 d.2)

theorem shownOf_threadsAll (threads : κ → DecodeThread) (ds : List (κ × ThreadEvent φ)) :
    shownOf (threadsAll threads ds).2.1 = [] := by
  induction ds generalizing threads with
  | nil => rfl
  | cons d ds ih =>
    unfold threadsAll
    refine List.filterMap_append.trans ?_
    rw [← shownOf, ← shownOf, shownOf_map_look, ih, List.append_nil]

theorem workers_decodeAll_congr {t t' : FrameTile κ φ} (h : t.workers = t'.workers)
    (ds : List (κ × Decode φ)) : (t.decodeAll ds).workers = (t'.decodeAll ds).workers := by
  unfold FrameTile.decodeAll
  induction ds generalizing t t' with
  | nil => exact h
  | cons d ds ih =>
    apply ih
    unfold FrameTile.decode
    dsimp only
    rw [h]

theorem workers_timerEvent (t : FrameTile κ φ) (during : List (κ × Decode φ)) :
    (t.timerEvent during).1.workers = (t.decodeAll during).workers := by
  unfold FrameTile.timerEvent
  cases t.worker with
  | none => rfl
  | some k =>
    dsimp only
    split_ifs
    · dsimp only
      apply workers_decodeAll_congr
      rfl
    · rfl
    · rfl

theorem consistent_decodeAll {shown : List (ShownFrame κ φ)} (h : t.Consistent shown)
    (ds : List (κ × Decode φ)) : (t.decodeAll ds).Consistent shown := by
  unfold FrameTile.decodeAll
  induction ds generalizing t with
  | nil => exact h
  | cons d ds ih =>
    have hstep := h.step (.decode d.1 d.2)
    rw [FrameTile.step, List.append_nil] at hstep
    exact ih hstep

/-- What holds of a pipeline and what it has put out. -/
structure Flows (p : FramePipeline κ φ) (outs : List (Output κ φ)) : Prop where
  joined : Joined p.threads p.tile.workers outs
  tile : p.tile.Consistent (shownOf outs)

theorem flows_init : (init : FramePipeline κ φ).Flows [] where
  joined :=
    { publishing := fun _ => rfl
      written := fun _ => rfl
      paced := fun _ _ => Video.paced_new }
  tile := FrameTile.consistent_init

theorem Flows.step {p : FramePipeline κ φ} (h : p.Flows outs) (e : Event κ φ) :
    (p.step e).1.Flows (outs ++ (p.step e).2) := by
  have hgui : ∀ e : FrameTile.Event κ φ, (p.tile.step e).2 = [] →
      (p.tile.step e).1.Consistent (shownOf outs) := by
    intro e he
    have hstep := h.tile.step e
    rwa [he, List.append_nil] at hstep
  cases e with
  | threads ds =>
    refine ⟨h.joined.threadsAll ds, ?_⟩
    unfold FramePipeline.step
    dsimp only
    rw [shownOf, List.filterMap_append, ← shownOf, ← shownOf, shownOf_threadsAll, List.append_nil]
    exact consistent_decodeAll h.tile _
  | setVideoSink sink =>
    rw [FramePipeline.step, List.append_nil]
    exact ⟨h.joined, hgui (.setVideoSink sink) rfl⟩
  | tryAttach newWorker =>
    rw [FramePipeline.step, List.append_nil]
    refine ⟨?_, hgui (.tryAttach newWorker) rfl⟩
    unfold FrameTile.step
    dsimp only
    split_ifs
    · exact h.joined
    · exact h.joined
  | deleted k =>
    rw [FramePipeline.step, List.append_nil]
    refine ⟨?_, hgui (.deleted k) rfl⟩
    unfold FrameTile.step
    dsimp only
    split_ifs
    · exact h.joined
    · exact h.joined
  | timer during =>
    unfold FramePipeline.step
    dsimp only
    have hj := h.joined.threadsAll during
    rw [← workers_timerEvent] at hj
    have hlooks : ∀ k, looksOf k ((p.tile.timerEvent (threadsAll p.threads during).2.2).2.map
        Output.shown) = [] := by
      intro k
      unfold looksOf
      rw [List.filterMap_map]
      simp [Function.comp_def, Output.look?]
    have hshown : shownOf ((p.tile.timerEvent (threadsAll p.threads during).2.2).2.map
        Output.shown) = (p.tile.timerEvent (threadsAll p.threads during).2.2).2 := by
      unfold shownOf
      rw [List.filterMap_map]
      simp [Function.comp_def, Output.shown?]
    have hcopied : ∀ k, copiedOf k ((p.tile.timerEvent (threadsAll p.threads during).2.2).2.map
        Output.shown) = [] := fun k => List.sublist_nil.mp (by
      have hsub := copiedOf_sublist k ((p.tile.timerEvent
        (threadsAll p.threads during).2.2).2.map Output.shown)
      rwa [hlooks] at hsub)
    constructor
    · rw [← List.append_assoc]
      refine ⟨hj.publishing, fun k => ?_, fun k => ?_⟩
      · rw [copiedOf_append, hcopied, List.append_nil]
        exact hj.written k
      · rw [looksOf_append, hlooks, List.append_nil]
        exact hj.paced k
    · rw [shownOf, List.filterMap_append, List.filterMap_append, ← shownOf, ← shownOf, ← shownOf,
        shownOf_threadsAll, List.nil_append, hshown]
      exact h.tile.step (.timer _)

theorem flows_final (es : List (Event κ φ)) :
    (Machine.final step (init : FramePipeline κ φ) es).Flows (Machine.outputs step init es) := by
  induction es using List.reverseRecOn with
  | nil => exact flows_init
  | append_singleton es e ih =>
    rw [Machine.final_concat, Machine.outputs_concat]
    exact ih.step e

/-- The frame of a shown frame's number among those that the throttle of its worker handed on and that
were copied. -/
def decodedAs (outs : List (Output κ φ)) (o : ShownFrame κ φ) : Option (Look φ) :=
  (copiedOf o.worker outs)[o.number - 1]?

/-- **What is shown was decoded.** A shown frame is the one of its number among those handed on and
copied, and on a steady clock two of them were decoded at least the limit apart. -/
theorem shown_frames_delivered (es : List (Event κ φ)) :
    let outs := Machine.outputs step (init : FramePipeline κ φ) es
    (∀ o ∈ shownOf outs, ∃ l, decodedAs outs o = some l ∧ l.frame.data = o.frame) ∧
    ∀ k, Video.Steady (looksOf k outs) → ∀ o o', o.worker = k → o'.worker = k → 0 < o.number →
      o.number < o'.number → ∀ l ∈ decodedAs outs o, ∀ l' ∈ decodedAs outs o',
        l.now + l'.limitMs * 1000000 ≤ l'.now := by
  intro outs
  have h : (Machine.final step (init : FramePipeline κ φ) es).Flows outs := flows_final es
  constructor
  · intro o ho
    have hframe := (h.tile.stored o ho).frame
    rw [h.joined.written, List.getElem?_map, Option.map_eq_some_iff] at hframe
    exact hframe
  · rintro k hs o o' rfl hk hpos hlt l hl l' hl'
    unfold decodedAs at hl hl'
    rw [hk] at hl'
    obtain ⟨hi, rfl⟩ := List.getElem?_eq_some_iff.mp hl
    obtain ⟨hj, rfl⟩ := List.getElem?_eq_some_iff.mp hl'
    exact List.pairwise_iff_getElem.mp
      ((h.joined.paced _ hs).delivered.sublist (copiedOf_sublist _ outs)) _ _ hi hj (by omega)

end FramePipeline

end Services

end AnoMap
