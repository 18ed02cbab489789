import AnoMap.Network.ImageStream
import AnoMap.Network.Integrity

/-!
# Watching an incomplete frame

A wait on the reassembly timer is started with every new frame, cancelled by a delivery, and started
again by the handler that finds pieces missing.

* `WellFormed`: numbers within their maximum, and one maximum for a frame.
* `Watched`: while pieces of a frame not yet delivered are held, a wait for it is pending, and the
  expected maximum is its own.
* `BeginsUnwatched`: the first frame has the number the session takes for none; `Hangs`: a ready
  handler would scan up to 255.
* **`watched_iff`**: a frame is watched in every state of a run if and only if the run neither begins
  unwatched nor hangs.
-/

set_option autoImplicit false

namespace AnoMap.Network.ImageStream

/-! ## The statement -/

/-- Every number is within its header's maximum, and a frame has one maximum. A frame's fragments
are those of its number that no other frame's fragment parts. -/
def WellFormed (es : List UdpEvent) : Prop :=
  ∀ pre c post, es = pre ++ .fragment c :: post → c.seqNo ≤ c.maxSeqNo ∧
    ∀ d, (fragmentsOf pre).getLast? = some d → d.frameNo = c.frameNo → d.maxSeqNo = c.maxSeqNo

/-- Whether the current frame has been delivered, after another event. -/
def nextDelivered (s : ImageStream) (delivered : Bool) : UdpEvent → Bool
  | .fragment c =>
    if s.CompletesImage c then true
    else if s.hung = true ∨ c.frameNo = s.session.currentFrame then delivered
    else false
  | _ => delivered

def deliveredStep (s : ImageStream × Bool) (e : UdpEvent) : (ImageStream × Bool) × List UdpOutput :=
  (((s.1.step e).1, nextDelivered s.1 s.2 e), (s.1.step e).2)

/-- The current frame has been delivered since it became the current one. -/
def delivered (oc sc : Bool) (es : List UdpEvent) : Bool :=
  (Machine.final deliveredStep (init oc sc, false) es).2

/-- A wait for the frame is outstanding, or its handler is ready. -/
def Pending (s : Reassembly) (frameNo : UInt8) : Prop :=
  s.reassemblyTimer.waiting = some frameNo ∨ frameNo ∈ s.reassemblyTimer.fired

instance (s : Reassembly) (frameNo : UInt8) : Decidable (Pending s frameNo) :=
  inferInstanceAs (Decidable (_ ∨ _))

/-- **Watched**: if pieces are held of the frame of the last fragment and it has not been delivered,
a wait for it is pending, whose handler will be run, and its maximum is the expected one. -/
def Watched (oc sc : Bool) (es : List UdpEvent) : Prop :=
  ∀ c, (fragmentsOf es).getLast? = some c → (after oc sc es).session.fragments ≠ ∅ →
    delivered oc sc es = false → (after oc sc es).hung = false ∧
      Pending (after oc sc es).session c.frameNo ∧
        (after oc sc es).session.expectedMaxSeq = c.maxSeqNo

/-- The first fragment is of frame 255 and does not make it up alone. -/
def BeginsUnwatched (es : List UdpEvent) : Prop :=
  ∃ c, (fragmentsOf es).head? = some c ∧ c.frameNo = 255 ∧ c.maxSeqNo ≠ 0

/-- The next handler is for the current frame, which is not delivered and has pieces held, and would
scan up to 255. -/
def Hangs (s : ImageStream) (delivered : Bool) : Prop :=
  s.hung = false ∧ delivered = false ∧ s.session.fragments ≠ ∅ ∧ s.session.expectedMaxSeq = 255 ∧
    s.session.reassemblyTimer.fired.head? = some s.session.currentFrame

/-! ## The frame under way -/

theorem final_deliveredStep_fst (s : ImageStream) (d : Bool) (es : List UdpEvent) :
    (Machine.final deliveredStep (s, d) es).1 = Machine.final step s es :=
  Machine.final_map step Prod.fst (fun _ _ => rfl) (s, d) es

theorem delivered_concat (oc sc : Bool) (pre : List UdpEvent) (e : UdpEvent) :
    delivered oc sc (pre ++ [e]) = nextDelivered (after oc sc pre) (delivered oc sc pre) e := by
  rw [delivered, Machine.final_concat]
  show nextDelivered (Machine.final deliveredStep (init oc sc, false) pre).1 _ e = _
  rw [final_deliveredStep_fst]
  rfl

theorem fragmentsOf_concat_fragment (pre : List UdpEvent) (c : Fragment) :
    fragmentsOf (pre ++ [.fragment c]) = fragmentsOf pre ++ [c] := by
  rw [fragmentsOf, List.filterMap_append]
  rfl

theorem fragmentsOf_concat (pre : List UdpEvent) {e : UdpEvent} (h : e.fragment? = none) :
    fragmentsOf (pre ++ [e]) = fragmentsOf pre := by
  rw [fragmentsOf, List.filterMap_append, List.filterMap_cons_none h, List.filterMap_nil,
    List.append_nil]
  rfl

/-- **The invariant** of a run that does not begin unwatched, while it does not hang. -/
structure Tracked (s : ImageStream) (delivered : Bool) (last : Option Fragment) : Prop where
  sendControl : s.session.sendControl = true
  start : last = none → s.session.fragments = ∅ ∧ s.session.currentFrame = 255
  current : ∀ c, last = some c → s.session.currentFrame = c.frameNo
  held : ∀ c, last = some c → delivered = false → s.session.fragments ≠ ∅ ∧
    s.session.expectedMaxSeq = c.maxSeqNo ∧ Pending s.session c.frameNo ∧
      (∀ i ∈ s.session.fragments, i ≤ c.maxSeqNo) ∧
        s.session.fragments.size ≤ c.maxSeqNo.toNat

theorem missing_ne_nil {fragments : KeyMap UInt8 Bytes} {m : UInt8}
    (hs : fragments.size ≤ m.toNat) : Reassembly.missing fragments m ≠ [] := by
  intro hnil
  have hsub : ByteRange.upTo m ⊆ fragments.keys := by
    intro i hi
    have hle := UInt8.le_iff_toNat_le.mp (ByteRange.mem_upTo.mp hi)
    by_contra hk
    have hmem : i ∈ Reassembly.missing fragments m := by
      refine List.mem_filter.mpr ⟨List.mem_map.mpr ⟨i.toNat, ?_, UInt8.ofNat_toNat⟩, ?_⟩
      · exact List.mem_range.mpr (Nat.lt_succ_of_le hle)
      · simpa using fun h => hk (Finmap.mem_keys.mpr h)
    rw [hnil] at hmem
    cases hmem
  have hcard := Finset.card_le_card hsub
  rw [ByteRange.card_upTo] at hcard
  unfold KeyMap.size at hs
  omega

theorem completes_of_empty {s : Reassembly} {c : Fragment} (h : (s.enterFrame c).fragments = ∅)
    (hmax : c.maxSeqNo = 0) : s.Completes c := by
  unfold Reassembly.Completes
  rw [h, hmax]
  exact ⟨Finmap.notMem_empty, rfl⟩

theorem filed_bounds {s : Reassembly} {c : Fragment} (hdup : ¬ s.Duplicate c)
    (hcomp : ¬ s.Completes c) (hle : c.seqNo ≤ c.maxSeqNo)
    (hin : ∀ i ∈ (s.enterFrame c).fragments, i ≤ c.maxSeqNo)
    (hsz : (s.enterFrame c).fragments.size ≤ c.maxSeqNo.toNat) :
    (∀ i ∈ s.filed c, i ≤ c.maxSeqNo) ∧ (s.filed c).size ≤ c.maxSeqNo.toNat := by
  constructor
  · intro i hi
    rcases (KeyMap.mem_set _ _ _ _).mp hi with rfl | hi
    · exact hle
    · exact hin i hi
  · have hlt : (s.enterFrame c).fragments.size ≠ c.maxSeqNo.toNat := fun h => hcomp ⟨hdup, h⟩
    rw [Reassembly.filed, KeyMap.size_set_of_notMem _ _ hdup]
    omega

theorem filed_ne_empty (s : Reassembly) (c : Fragment) : s.filed c ≠ ∅ := by
  intro h
  have hmem : c.seqNo ∈ s.filed c := (KeyMap.mem_set _ _ _ _).mpr (Or.inl rfl)
  rw [h] at hmem
  exact Finmap.notMem_empty hmem

variable {s : ImageStream} {d : Bool} {last : Option Fragment}

theorem Tracked.setTimer (h : Tracked s d last) (hung : Bool) {timer : Timer UInt8}
    (hp : ∀ c, last = some c → d = false → Pending s.session c.frameNo →
      Pending { s.session with reassemblyTimer := timer } c.frameNo) :
    Tracked ⟨{ s.session with reassemblyTimer := timer }, hung⟩ d last := by
  refine ⟨h.sendControl, h.start, h.current, fun c hc hd => ?_⟩
  obtain ⟨hne, hmax, hpending, hle, hsz⟩ := h.held c hc hd
  exact ⟨hne, hmax, hp c hc hd hpending, hle, hsz⟩

theorem nextDelivered_eq_false {c : Fragment} (hh : s.hung = false)
    (h : nextDelivered s d (.fragment c) = false) : ¬ s.session.Completes c ∧
      (c.frameNo = s.session.currentFrame → d = false) := by
  unfold nextDelivered at h
  dsimp only at h
  split_ifs at h with hc hcur
  · exact ⟨fun hcomp => hc ⟨hh, hcomp⟩, fun _ => h⟩
  · exact ⟨fun hcomp => hc ⟨hh, hcomp⟩, fun heq => absurd (Or.inr heq) hcur⟩

/-- A fragment leaves its own frame as the current one, so what is left to show is what is held of
that frame while it is not complete. -/
theorem Tracked.of_fragment (h : Tracked s d last) {c : Fragment} (hh : s.hung = false)
    (hheld : ¬ s.session.Completes c → (c.frameNo = s.session.currentFrame → d = false) →
      (s.session.handleImageFragment c).1.fragments ≠ ∅ ∧
        (s.session.handleImageFragment c).1.expectedMaxSeq = c.maxSeqNo ∧
        Pending (s.session.handleImageFragment c).1 c.frameNo ∧
        (∀ i ∈ (s.session.handleImageFragment c).1.fragments, i ≤ c.maxSeqNo) ∧
        (s.session.handleImageFragment c).1.fragments.size ≤ c.maxSeqNo.toNat) :
    Tracked (s.step (.fragment c)).1 (nextDelivered s d (.fragment c)) (some c) := by
  rw [step_fragment hh]
  refine ⟨?_, fun hn => (nomatch hn), ?_, ?_⟩
  · rw [Reassembly.handle_sendControl, h.sendControl]
  · rintro b hb
    rw [Reassembly.handle_currentFrame, Option.some.inj hb]
  · rintro b hb hd
    obtain rfl : c = b := Option.some.inj hb
    obtain ⟨hcomp, hd⟩ := nextDelivered_eq_false hh hd
    exact hheld hcomp hd

theorem Tracked.fragment_same (h : Tracked s d last) {c : Fragment} (hh : s.hung = false)
    (hle : c.seqNo ≤ c.maxSeqNo) (hc : c.frameNo = s.session.currentFrame)
    (hmax : ∀ b, last = some b → b.maxSeqNo = c.maxSeqNo)
    (hfirst : last = none → c.maxSeqNo = 0) :
    Tracked (s.step (.fragment c)).1 (nextDelivered s d (.fragment c)) (some c) := by
  have henter : s.session.enterFrame c = s.session := Reassembly.enterFrame_of_eq hc
  refine h.of_fragment hh fun hcomp hd => ?_
  cases hl : last with
  | none =>
    have hempty : (s.session.enterFrame c).fragments = ∅ := by
      rw [henter]
      exact (h.start hl).1
    exact absurd (completes_of_empty hempty (hfirst hl)) hcomp
  | some b =>
    obtain ⟨hne, hexp, hp, hin, hsz⟩ := h.held b hl (hd hc)
    rw [← h.current b hl, ← hc] at hp
    rw [hmax b hl] at hexp hin hsz
    rcases Reassembly.handle_cases s.session c with ⟨-, he⟩ | ⟨hdup, -, he⟩ | ⟨hcomp', -⟩
    · rw [he, henter]
      exact ⟨hne, hexp, hp, hin, hsz⟩
    · have hb := filed_bounds hdup hcomp hle (by rwa [henter]) (by rwa [henter])
      rw [he, henter]
      exact ⟨filed_ne_empty _ c, hexp, hp, hb⟩
    · exact absurd hcomp' hcomp

theorem Tracked.fragment_new (h : Tracked s d last) {c : Fragment} (hh : s.hung = false)
    (hle : c.seqNo ≤ c.maxSeqNo) (hc : c.frameNo ≠ s.session.currentFrame) :
    Tracked (s.step (.fragment c)).1 (nextDelivered s d (.fragment c)) (some c) := by
  have henter := Reassembly.enterFrame_of_ne hc
  refine h.of_fragment hh fun hcomp _ => ?_
  have hempty : (s.session.enterFrame c).fragments = ∅ := by
    rw [henter]
    rfl
  rcases Reassembly.handle_cases s.session c with ⟨hdup, -⟩ | ⟨hdup, -, he⟩ | ⟨hcomp', -⟩
  · have hdup : c.seqNo ∈ (s.session.enterFrame c).fragments := hdup
    rw [hempty] at hdup
    exact absurd hdup Finmap.notMem_empty
  · have hb := filed_bounds hdup hcomp hle
      (by rw [hempty]; exact fun i hi => absurd hi Finmap.notMem_empty)
      (by rw [hempty]; exact Nat.zero_le _)
    rw [he, henter]
    exact ⟨filed_ne_empty _ c, rfl, Or.inl rfl, hb⟩
  · exact absurd hcomp' hcomp

/-- **A fragment** keeps its frame tracked, unless it is the first one and of frame 255. -/
theorem Tracked.fragment (h : Tracked s d last) {c : Fragment} (hh : s.hung = false)
    (hle : c.seqNo ≤ c.maxSeqNo)
    (hmax : ∀ b, last = some b → b.frameNo = c.frameNo → b.maxSeqNo = c.maxSeqNo)
    (hfirst : last = none → c.frameNo = 255 → c.maxSeqNo = 0) :
    Tracked (s.step (.fragment c)).1 (nextDelivered s d (.fragment c)) (some c) := by
  by_cases hc : c.frameNo = s.session.currentFrame
  · exact h.fragment_same hh hle hc (fun b hb => hmax b hb ((h.current b hb).symm.trans hc.symm))
      fun hnone => hfirst hnone (hc.trans (h.start hnone).2)
  · exact h.fragment_new hh hle hc

theorem pending_expire {s : Reassembly} {frameNo : UInt8} (h : Pending s frameNo) :
    Pending { s with reassemblyTimer := s.reassemblyTimer.expire } frameNo := by
  unfold Pending Timer.expire at *
  cases hw : s.reassemblyTimer.waiting with
  | none => exact Or.inr (h.resolve_left (by rw [hw]; exact nofun))
  | some a =>
    refine Or.inr (List.mem_append.mpr ?_)
    rcases h with h | h
    · exact Or.inr (List.mem_singleton.mpr (Option.some.inj (h.symm.trans hw)))
    · exact Or.inl h

theorem pending_pop {s : Reassembly} {frameNo other : UInt8} {rest : List UInt8}
    (h : Pending s frameNo) (hf : s.reassemblyTimer.fired = other :: rest)
    (hne : frameNo ≠ other) :
    Pending { s with reassemblyTimer := s.reassemblyTimer.pop } frameNo := by
  refine h.imp_right fun hp => ?_
  rw [hf] at hp
  show frameNo ∈ s.reassemblyTimer.fired.tail
  rw [hf]
  exact (List.mem_cons.mp hp).resolve_left hne

theorem Tracked.expire (h : Tracked s d last) (hh : s.hung = false) :
    Tracked (s.step .expire).1 d last := by
  rw [step_expire hh]
  exact h.setTimer false fun c _ _ hp => pending_expire hp

theorem Tracked.rearms (h : Tracked s d last) {c : Fragment} (hc : last = some c) (hd : d = false)
    (timer : Timer UInt8) :
    Reassembly.Rearms { s.session with reassemblyTimer := timer } c.frameNo := by
  obtain ⟨hne, hmax, -, -, hsz⟩ := h.held c hc hd
  refine ⟨h.current c hc, hne, Or.inr ?_⟩
  show Reassembly.missing s.session.fragments s.session.expectedMaxSeq ≠ []
  rw [hmax]
  exact missing_ne_nil hsz

/-- A ready handler keeps a frame tracked, and never returns only when the frame is delivered. -/
theorem Tracked.wait (h : Tracked s d last) (hh : s.hung = false) (hn : ¬ Hangs s d) :
    ((s.step .wait).1.hung = true → d = true) ∧ Tracked (s.step .wait).1 d last := by
  cases hf : s.session.reassemblyTimer.fired with
  | nil =>
    rw [step_wait_nil hh hf]
    exact ⟨fun ht => absurd (ht.symm.trans hh) (by decide), h⟩
  | cons frameNo rest =>
    rw [step_wait_cons hh hf]
    dsimp only [runWait]
    set t : Reassembly :=
      { s.session with reassemblyTimer := s.session.reassemblyTimer.pop } with ht
    cases hw : t.onReassemblyWait frameNo with
    | none =>
      obtain ⟨⟨hcur, hne, -⟩, hmax⟩ := Reassembly.expectedMaxSeq_of_onReassemblyWait hw
      have hdel : d = true := by
        by_contra hd
        refine hn ⟨hh, Bool.eq_false_of_not_eq_true hd, hne, hmax, ?_⟩
        rw [hf, List.head?_cons, ← hcur]
      exact ⟨fun _ => hdel, h.setTimer true fun c _ hd => absurd (hdel.symm.trans hd) (by decide)⟩
    | some r =>
      refine ⟨fun hfalse => absurd hfalse Bool.false_ne_true, ?_⟩
      by_cases hre : t.Rearms frameNo
      · obtain hnone | ⟨out, hsome⟩ := Reassembly.onReassemblyWait_of_rearms hre h.sendControl
        · exact absurd (hnone.symm.trans hw) nofun
        · obtain rfl := Option.some.inj (hsome.symm.trans hw)
          exact h.setTimer false fun c hc _ _ => Or.inl (congrArg some (h.current c hc))
      · obtain rfl := Option.some.inj ((Reassembly.onReassemblyWait_of_rests hre).symm.trans hw)
        refine h.setTimer false fun c hc hd hp => ?_
        -- the handler that ran was for another frame, or it would have found a piece missing
        exact pending_pop hp hf fun hsame => hre (hsame ▸ h.rearms hc hd _)

/-! ## Runs -/

theorem WellFormed.init {es : List UdpEvent} {e : UdpEvent} (h : WellFormed (es ++ [e])) :
    WellFormed es := fun pre c post hcut => h pre c (post ++ [e]) (by rw [hcut]; simp)

theorem WellFormed.of_maxOf {maxOf : UInt8 → UInt8} {es : List UdpEvent}
    (h : Reassembly.WellFormed maxOf (fragmentsOf es)) : WellFormed es := by
  rintro pre c post rfl
  have hc : c ∈ fragmentsOf (pre ++ .fragment c :: post) := by
    simp [fragmentsOf, UdpEvent.fragment?]
  refine ⟨(h c hc).1, fun d hd hf => ?_⟩
  have hd : d ∈ fragmentsOf (pre ++ .fragment c :: post) := by
    rw [fragmentsOf, List.filterMap_append]
    exact List.mem_append_left _ (List.mem_of_getLast? hd)
  rw [(h d hd).2, (h c hc).2, hf]

theorem hung_concat {oc sc : Bool} {es : List UdpEvent} {e : UdpEvent}
    (h : (after oc sc es).hung = true) : after oc sc (es ++ [e]) = after oc sc es := by
  rw [after, Machine.final_concat, step_of_hung h]

theorem BeginsUnwatched.mono {es : List UdpEvent} {e : UdpEvent} (h : BeginsUnwatched es) :
    BeginsUnwatched (es ++ [e]) := by
  obtain ⟨c, hc, h255, hmax⟩ := h
  refine ⟨c, ?_, h255, hmax⟩
  rw [fragmentsOf, List.filterMap_append, List.head?_append_of_ne_nil _ ?_]
  · exact hc
  · intro hnil
    rw [fragmentsOf, hnil] at hc
    cases hc

theorem delivered_of_hung {oc sc : Bool} {es : List UdpEvent} {e : UdpEvent}
    (h : (after oc sc es).hung = true) : delivered oc sc (es ++ [e]) = delivered oc sc es := by
  rw [delivered_concat]
  cases e with
  | fragment c =>
    dsimp only [nextDelivered]
    rw [if_neg fun hc => absurd (h.symm.trans hc.1) (by decide), if_pos (Or.inl h)]
  | _ => rfl

theorem tracked_after (oc : Bool) {es : List UdpEvent} (hw : WellFormed es)
    (hb : ¬ BeginsUnwatched es)
    (hn : ∀ pre post, es = pre ++ .wait :: post →
      ¬ Hangs (after oc true pre) (delivered oc true pre)) :
    ((after oc true es).hung = true → delivered oc true es = true) ∧
      ((after oc true es).hung = false →
        Tracked (after oc true es) (delivered oc true es) (fragmentsOf es).getLast?) := by
  induction es using List.reverseRecOn with
  | nil => exact ⟨fun h => absurd h Bool.false_ne_true,
      fun _ => ⟨rfl, fun _ => ⟨rfl, rfl⟩, fun _ h => (nomatch h), fun _ h => (nomatch h)⟩⟩
  | append_singleton es e ih =>
    obtain ⟨hhung, htrack⟩ := ih hw.init (fun h => hb h.mono)
      (fun pre post hcut => hn pre (post ++ [e]) (by rw [hcut]; simp))
    cases hh : (after oc true es).hung with
    | true =>
      rw [hung_concat hh, delivered_of_hung hh]
      exact ⟨hhung, fun h => absurd (hh.symm.trans h) (by decide)⟩
    | false =>
      have htrack := htrack hh
      have hafter : after oc true (es ++ [e]) = ((after oc true es).step e).1 :=
        Machine.final_concat step _ es e
      rw [hafter, delivered_concat]
      cases e with
      | setExpectedMeta meta_ =>
        rw [fragmentsOf_concat es rfl, step_setExpectedMeta hh]
        exact ⟨fun h => absurd h Bool.false_ne_true,
          fun _ => ⟨htrack.sendControl, htrack.start, htrack.current, htrack.held⟩⟩
      | fragment c =>
        obtain ⟨hle, hmax⟩ := hw es c [] rfl
        rw [fragmentsOf_concat_fragment, List.getLast?_concat]
        refine ⟨fun h => ?_, fun _ => ?_⟩
        · rw [step_fragment hh] at h
          exact absurd h Bool.false_ne_true
        · refine htrack.fragment hh hle hmax fun hnone h255 => ?_
          by_contra hne
          refine hb ⟨c, ?_, h255, hne⟩
          rw [fragmentsOf_concat_fragment, List.getLast?_eq_none_iff.mp hnone]
          rfl
      | expire =>
        rw [fragmentsOf_concat es rfl]
        refine ⟨fun h => ?_, fun _ => htrack.expire hh⟩
        rw [step_expire hh] at h
        exact absurd h Bool.false_ne_true
      | wait =>
        rw [fragmentsOf_concat es rfl]
        obtain ⟨hdel, ht⟩ := htrack.wait hh (hn es [] rfl)
        exact ⟨hdel, fun _ => ht⟩

/-! ## The theorem -/

theorem Watched.of_tracked {oc : Bool} {es : List UdpEvent}
    (hhung : (after oc true es).hung = true → delivered oc true es = true)
    (htrack : (after oc true es).hung = false →
      Tracked (after oc true es) (delivered oc true es) (fragmentsOf es).getLast?) :
    Watched oc true es := by
  intro c hc _ hd
  have hh : (after oc true es).hung = false := by
    by_contra h
    exact absurd ((hhung (Bool.eq_true_of_not_eq_false h)).symm.trans hd) (by decide)
  obtain ⟨-, hmax, hp, -⟩ := (htrack hh).held c hc hd
  exact ⟨hh, hp, hmax⟩

theorem after_of_no_fragments (oc sc : Bool) {es : List UdpEvent} (h : fragmentsOf es = []) :
    delivered oc sc es = false ∧ (after oc sc es).hung = false ∧
      ∃ m, (after oc sc es).session = { Reassembly.init oc sc with expectedMeta := m } := by
  induction es using List.reverseRecOn with
  | nil => exact ⟨rfl, rfl, "", rfl⟩
  | append_singleton es e ih =>
    have hafter : after oc sc (es ++ [e]) = ((after oc sc es).step e).1 :=
      Machine.final_concat step _ es e
    rw [hafter, delivered_concat]
    cases e with
    | fragment c =>
      rw [fragmentsOf_concat_fragment] at h
      exact absurd h (List.append_ne_nil_of_right_ne_nil _ (List.cons_ne_nil c []))
    | setExpectedMeta meta_ =>
      rw [fragmentsOf_concat es rfl] at h
      obtain ⟨hd, hh, m, hm⟩ := ih h
      rw [step_setExpectedMeta hh, hm]
      exact ⟨hd, rfl, meta_, rfl⟩
    | expire =>
      rw [fragmentsOf_concat es rfl] at h
      obtain ⟨hd, hh, m, hm⟩ := ih h
      rw [step_expire hh, hm]
      exact ⟨hd, rfl, m, rfl⟩
    | wait =>
      rw [fragmentsOf_concat es rfl] at h
      obtain ⟨hd, hh, m, hm⟩ := ih h
      have hidle : (after oc sc es).session.reassemblyTimer.fired = [] := by
        rw [hm]
        rfl
      rw [step_wait_nil hh hidle]
      exact ⟨hd, hh, m, hm⟩

theorem exists_first_fragment {es : List UdpEvent} {c : Fragment}
    (h : (fragmentsOf es).head? = some c) :
    ∃ pre post, es = pre ++ .fragment c :: post ∧ fragmentsOf pre = [] := by
  rw [fragmentsOf, List.head?_filterMap] at h
  obtain ⟨pre, e, post, rfl, he, hnone⟩ := List.findSome?_eq_some_iff.mp h
  obtain rfl : e = .fragment c := by
    cases e with
    | fragment b => exact congrArg UdpEvent.fragment (Option.some.inj he)
    | _ => cases he
  exact ⟨pre, post, rfl, List.filterMap_eq_nil_iff.mpr hnone⟩

/-- A first frame with the number 255 is not taken for a new one. -/
theorem not_watched_of_beginsUnwatched {oc : Bool} {es : List UdpEvent} (h : BeginsUnwatched es) :
    ∃ pre, pre <+: es ∧ ¬ Watched oc true pre := by
  obtain ⟨c, hc, h255, hmax⟩ := h
  obtain ⟨pre, post, rfl, hno⟩ := exists_first_fragment hc
  obtain ⟨hd, hh, m, hm⟩ := after_of_no_fragments oc true hno
  refine ⟨pre ++ [.fragment c], ⟨post, by simp⟩, fun hw => ?_⟩
  have hcur : c.frameNo = (after oc true pre).session.currentFrame := by rw [hm, h255]; rfl
  have henter := Reassembly.enterFrame_of_eq hcur
  have hempty : ((after oc true pre).session.enterFrame c).fragments = ∅ := by
    rw [henter, hm]
    rfl
  have hdup : ¬ (after oc true pre).session.Duplicate c := by
    unfold Reassembly.Duplicate
    rw [hempty]
    exact Finmap.notMem_empty
  have hcomp : ¬ (after oc true pre).session.Completes c := by
    intro hcomp
    have hsz := hcomp.2
    rw [hempty] at hsz
    exact hmax (UInt8.toNat_inj.mp hsz.symm)
  have hafter : after oc true (pre ++ [.fragment c]) =
      ⟨{ (after oc true pre).session with
          fragments := (after oc true pre).session.filed c }, false⟩ := by
    rw [after, Machine.final_concat, step_fragment hh, Reassembly.handle_files hdup hcomp, henter]
  have hdel : delivered oc true (pre ++ [.fragment c]) = false := by
    rw [delivered_concat]
    dsimp only [nextDelivered]
    rw [if_neg fun h => hcomp h.2, if_pos (Or.inr hcur), hd]
  have hlast : (fragmentsOf (pre ++ [.fragment c])).getLast? = some c := by
    rw [fragmentsOf_concat_fragment, List.getLast?_concat]
  obtain ⟨-, hp, -⟩ := hw c hlast (by rw [hafter]; exact filed_ne_empty _ c) hdel
  rw [hafter] at hp
  unfold Pending at hp
  dsimp only at hp
  rw [hm] at hp
  rcases hp with hp | hp
  · cases hp
  · cases hp

/-- A handler that scans on and on leaves its frame without a wait. -/
theorem not_watched_of_hangs {oc : Bool} {pre : List UdpEvent}
    (h : Hangs (after oc true pre) (delivered oc true pre)) :
    ¬ Watched oc true (pre ++ [.wait]) := by
  obtain ⟨hh, hd, hne, hmax, hfired⟩ := h
  obtain ⟨rest, hrest⟩ := List.head?_eq_some_iff.mp hfired
  have hafter : after oc true (pre ++ [.wait]) = ⟨{ (after oc true pre).session with
      reassemblyTimer := (after oc true pre).session.reassemblyTimer.pop }, true⟩ := by
    rw [after, Machine.final_concat, step_wait_cons hh hrest, runWait]
    dsimp only
    rw [Reassembly.onReassemblyWait, if_pos ⟨rfl, hne⟩, Reassembly.checkMissingFragments]
    dsimp only
    rw [hmax, Reassembly.scanMissing_of_full]
    rfl
  intro hw
  cases hl : (fragmentsOf (pre ++ [.wait])).getLast? with
  | none =>
    have hno := List.getLast?_eq_none_iff.mp hl
    rw [fragmentsOf_concat pre rfl] at hno
    obtain ⟨-, -, m, hm⟩ := after_of_no_fragments oc true hno
    rw [hm] at hne
    exact hne rfl
  | some c =>
    have hlive := (hw c hl (by rw [hafter]; exact hne) (by rw [delivered_concat]; exact hd)).1
    rw [hafter] at hlive
    exact absurd hlive.symm Bool.false_ne_true

/-- **Watched, exactly**: a run keeps its frames watched unless it begins with several pieces of
frame 255, or a handler is ready for a frame that is not delivered, with a maximum of 255. -/
theorem watched_iff (oc : Bool) {es : List UdpEvent} (hw : WellFormed es) :
    (∀ pre, pre <+: es → Watched oc true pre) ↔ ¬ BeginsUnwatched es ∧
      ∀ pre post, es = pre ++ .wait :: post →
        ¬ Hangs (after oc true pre) (delivered oc true pre) := by
  constructor
  · intro h
    refine ⟨fun hb => ?_, fun pre post hcut hh => ?_⟩
    · obtain ⟨pre, hpre, hn⟩ := not_watched_of_beginsUnwatched hb
      exact hn (h pre hpre)
    · exact not_watched_of_hangs hh (h _ ⟨post, by rw [hcut]; simp⟩)
  · rintro ⟨hb, hn⟩ pre ⟨post, rfl⟩
    have hpre : WellFormed pre := fun a c b hcut => hw a c (b ++ post) (by rw [hcut]; simp)
    have hb' : ¬ BeginsUnwatched pre := by
      rintro ⟨c, hc, h⟩
      refine hb ⟨c, ?_, h⟩
      obtain ⟨rest, hrest⟩ := List.head?_eq_some_iff.mp hc
      rw [fragmentsOf, List.filterMap_append, ← fragmentsOf, hrest]
      rfl
    obtain ⟨hhung, htrack⟩ := tracked_after oc hpre hb' fun a b hcut =>
      hn a (b ++ post) (by rw [hcut]; simp)
    exact .of_tracked hhung htrack

/-- The first two pieces of three, the wait expiring between them. -/
theorem watched_sample : Watched true true
    [.fragment ⟨0, 0, 2, [1]⟩, .expire, .fragment ⟨0, 1, 2, [2]⟩] := by
  have hmax : Reassembly.WellFormed (fun _ => 2) (fragmentsOf
      [.fragment ⟨0, 0, 2, [1]⟩, .expire, .fragment ⟨0, 1, 2, [2]⟩]) := by
    unfold Reassembly.WellFormed
    decide
  refine (watched_iff true (.of_maxOf hmax)).mpr ⟨?_, fun pre post hcut => ?_⟩ _ List.prefix_rfl
  · rintro ⟨c, hc, h255, -⟩
    obtain rfl := Option.some.inj hc
    exact absurd h255 (by decide)
  · have hmem : UdpEvent.wait ∈ pre ++ .wait :: post := by simp
    rw [← hcut] at hmem
    exact absurd hmem (by decide)

/-- **Frame 255.** The first frame has this number: its first piece starts no wait. -/
theorem watched_fails :
    ¬ ∀ es, WellFormed es → ∀ pre, pre <+: es → Watched true true pre := by
  intro h
  have hmax : Reassembly.WellFormed (fun _ => 1) (fragmentsOf [.fragment ⟨255, 0, 1, [1]⟩]) := by
    unfold Reassembly.WellFormed
    decide
  obtain ⟨-, hp, -⟩ := h _ (.of_maxOf hmax) _ List.prefix_rfl ⟨255, 0, 1, [1]⟩ rfl (by decide)
    (by decide)
  exact absurd hp (by decide)

end AnoMap.Network.ImageStream
