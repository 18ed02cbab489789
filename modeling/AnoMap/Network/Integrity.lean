import AnoMap.Lib.ByteRange
import AnoMap.Network.Reassembly

/-!
# Integrity of delivered images

A run is the list of the calls of `handleImageFragment`, from a new session.

* `stay f pre`: the calls of `pre` since `f` last became the current frame; `Received`: what they
  really brought.
* `held_received`: every held piece was received during the stay.
* `InRange`: the condition on one call; `pieces_iff`: a completing call appends received pieces
  exactly when it holds.
* **`image_integrity_iff`**: a run delivers intact images exactly when each of its calls is in
  range. `inRange_of_wellFormed`: calls with well-formed headers are.
-/

set_option autoImplicit false

namespace AnoMap.Network.Reassembly

open Machine

/-- The state after the calls `pre` on a new session. -/
abbrev after (onComplete sendControl : Bool) (pre : List Fragment) : Reassembly :=
  final handleImageFragment (init onComplete sendControl) pre

theorem after_append (oc sc : Bool) (pre b : List Fragment) :
    after oc sc (pre ++ b) = final handleImageFragment (after oc sc pre) b := final_append _ _ _ _

/-! ## What was received -/

/-- The calls since `f` last became the current frame, the last one first. -/
def stay (f : UInt8) (pre : List Fragment) : List Fragment :=
  pre.reverse.takeWhile fun d => d.frameNo = f

/-- `p` was received for frame `f` with sequence number `k` since `f` last became current. -/
def Received (f : UInt8) (pre : List Fragment) (k : ℕ) (p : Bytes) : Prop :=
  ∃ d ∈ stay f pre, d.seqNo.toNat = k ∧ d.data = p

theorem stay_concat (f : UInt8) (pre : List Fragment) (c : Fragment) :
    stay f (pre ++ [c]) = if c.frameNo = f then c :: stay f pre else [] := by
  simp only [stay, List.reverse_append, List.reverse_singleton, List.singleton_append,
    List.takeWhile_cons, decide_eq_true_eq]

theorem received_self (pre : List Fragment) (c : Fragment) :
    Received c.frameNo (pre ++ [c]) c.seqNo.toNat c.data := by
  refine ⟨c, ?_, rfl, rfl⟩
  rw [stay_concat, if_pos rfl]
  exact List.mem_cons_self

theorem received_concat {f : UInt8} {pre : List Fragment} {k : ℕ} {p : Bytes} {c : Fragment}
    (hc : c.frameNo = f) (h : Received f pre k p) : Received f (pre ++ [c]) k p := by
  obtain ⟨d, hd, hk, hp⟩ := h
  refine ⟨d, ?_, hk, hp⟩
  rw [stay_concat, if_pos hc]
  exact List.mem_cons_of_mem c hd

/-- Every held piece was received during the current stay. -/
def HeldReceived (pre : List Fragment) (s : Reassembly) : Prop :=
  ∀ i p, s.fragments.get? i = some p → Received s.currentFrame pre i.toNat p

theorem enterFrame_received {pre : List Fragment} {s : Reassembly} (h : HeldReceived pre s)
    (c : Fragment) {i : UInt8} {p : Bytes} (hp : (s.enterFrame c).fragments.get? i = some p) :
    Received c.frameNo (pre ++ [c]) i.toNat p := by
  by_cases hf : c.frameNo = s.currentFrame
  · rw [enterFrame_of_eq hf] at hp
    exact received_concat rfl (hf ▸ h i p hp)
  · rw [enterFrame_of_ne hf] at hp
    exact absurd hp (by simp [newFrame])

theorem filed_received {pre : List Fragment} {s : Reassembly} (h : HeldReceived pre s)
    (c : Fragment) {i : UInt8} {p : Bytes} (hp : (s.filed c).get? i = some p) :
    Received c.frameNo (pre ++ [c]) i.toNat p := by
  rw [filed, KeyMap.get?_set] at hp
  split_ifs at hp with hi
  · obtain rfl := Option.some.inj hp
    rw [hi]
    exact received_self pre c
  · exact enterFrame_received h c hp

theorem heldReceived_step (pre : List Fragment) (s : Reassembly) (c : Fragment)
    (h : HeldReceived pre s) : HeldReceived (pre ++ [c]) (s.handleImageFragment c).1 := by
  intro i p hp
  rw [handle_currentFrame]
  rw [handle_fragments] at hp
  split_ifs at hp with hc hd
  · exact absurd hp (by simp)
  · exact enterFrame_received h c hp
  · exact filed_received h c hp

/-- **Nothing held was invented or taken from another frame.** -/
theorem held_received (oc sc : Bool) (pre : List Fragment) : HeldReceived pre (after oc sc pre) :=
  history handleImageFragment HeldReceived (fun i p hp => absurd hp (by simp [init]))
    heldReceived_step pre

/-! ## The condition on one call -/

/-- A call that completes the count finds no sequence number above its maximum, its own included. -/
def InRange (s : Reassembly) (c : Fragment) : Prop :=
  s.Completes c → c.seqNo ≤ c.maxSeqNo ∧ ∀ i ∈ (s.enterFrame c).fragments, i ≤ c.maxSeqNo

theorem mem_filed {s : Reassembly} {c : Fragment} {i : UInt8} :
    i ∈ s.filed c ↔ i = c.seqNo ∨ i ∈ (s.enterFrame c).fragments := KeyMap.mem_set _ _ _ _

theorem card_filed {s : Reassembly} {c : Fragment} (h : s.Completes c) :
    (s.filed c).keys.card = c.maxSeqNo.toNat + 1 := by
  have := KeyMap.size_set_of_notMem _ c.data h.1
  rwa [h.2] at this

/-- The held numbers of a completing call fill its range exactly when none is above it. -/
theorem inRange_iff_full {s : Reassembly} {c : Fragment} (h : s.Completes c) :
    s.InRange c ↔ ∀ i ≤ c.maxSeqNo, i ∈ s.filed c := by
  constructor
  · intro hr i hi
    have hle : ∀ j ∈ (s.filed c).keys, j ≤ c.maxSeqNo := by
      intro j hj
      rcases mem_filed.mp (Finmap.mem_keys.mp hj) with rfl | hj
      · exact (hr h).1
      · exact (hr h).2 j hj
    rw [← Finmap.mem_keys, ByteRange.eq_upTo hle (card_filed h)]
    exact ByteRange.mem_upTo.mpr hi
  · intro hf _
    have hsub : ByteRange.upTo c.maxSeqNo ⊆ (s.filed c).keys := fun i hi =>
      Finmap.mem_keys.mpr (hf i (ByteRange.mem_upTo.mp hi))
    have heq := Finset.eq_of_subset_of_card_le hsub (by rw [card_filed h, ByteRange.card_upTo])
    have hle : ∀ i ∈ s.filed c, i ≤ c.maxSeqNo := fun i hi =>
      ByteRange.mem_upTo.mp (heq ▸ Finmap.mem_keys.mpr hi)
    exact ⟨hle _ (mem_filed.mpr (Or.inl rfl)), fun i hi => hle i (mem_filed.mpr (Or.inr hi))⟩

/-- The pieces a call appends are payloads really received, each under its own number. -/
def PiecesReceived (pre : List Fragment) (s : Reassembly) (c : Fragment) : Prop :=
  ∀ k ≤ c.maxSeqNo.toNat, Received c.frameNo (pre ++ [c]) k (s.piece c k)

theorem mem_filed_of_received {pre : List Fragment} {s : Reassembly} {c : Fragment} {k : ℕ}
    (hne : ∀ d ∈ pre ++ [c], d.data ≠ [])
    (h : Received c.frameNo (pre ++ [c]) k (s.piece c k)) : UInt8.ofNat k ∈ s.filed c := by
  obtain ⟨d, hd, -, hp⟩ := h
  have hd' : d ∈ pre ++ [c] :=
    List.mem_reverse.mp (List.takeWhile_subset _ hd)
  by_contra hk
  apply hne d hd'
  rw [hp, piece, KeyMap.getD, (KeyMap.get?_eq_none_iff _ _).mpr hk]
  rfl

/-- **A completing call appends received pieces exactly when it is in range.** -/
theorem pieces_iff {pre : List Fragment} {s : Reassembly} {c : Fragment}
    (hne : ∀ d ∈ pre ++ [c], d.data ≠ []) (hs : HeldReceived pre s) (h : s.Completes c) :
    PiecesReceived pre s c ↔ s.InRange c := by
  rw [inRange_iff_full h]
  constructor
  · intro hp i hi
    have := mem_filed_of_received hne (hp i.toNat (UInt8.le_iff_toNat_le.mp hi))
    rwa [UInt8.ofNat_toNat] at this
  · intro hf k hk
    have hk' := ByteRange.toNat_ofNat_of_le hk
    have hmem := hf (UInt8.ofNat k) (by rw [UInt8.le_iff_toNat_le, hk']; exact hk)
    obtain ⟨p, hp⟩ := (KeyMap.mem_iff_get? _ _).mp hmem
    have := filed_received hs c hp
    rw [hk'] at this
    rwa [piece, KeyMap.getD, hp]

/-! ## Well-formed headers -/

/-- Every number is within its header's maximum, and a frame has one maximum. -/
def WellFormed (maxOf : UInt8 → UInt8) (calls : List Fragment) : Prop :=
  ∀ c ∈ calls, c.seqNo ≤ c.maxSeqNo ∧ c.maxSeqNo = maxOf c.frameNo

/-- The held numbers are in the current frame's range and do not fill it. -/
structure Open (maxOf : UInt8 → UInt8) (s : Reassembly) : Prop where
  le : ∀ i ∈ s.fragments, i ≤ maxOf s.currentFrame
  size : s.fragments.size ≤ (maxOf s.currentFrame).toNat

theorem open_init (maxOf : UInt8 → UInt8) (oc sc : Bool) : Open maxOf (init oc sc) where
  le := fun _ hi => absurd hi Finmap.notMem_empty
  size := Nat.zero_le _

theorem open_empty {maxOf : UInt8 → UInt8} {s : Reassembly} (h : s.fragments = ∅) :
    Open maxOf s where
  le := fun i hi => absurd (h ▸ hi) Finmap.notMem_empty
  size := by rw [h]; exact Nat.zero_le _

theorem open_enterFrame {maxOf : UInt8 → UInt8} {s : Reassembly} (h : Open maxOf s) (c : Fragment) :
    Open maxOf (s.enterFrame c) := by
  by_cases hf : c.frameNo = s.currentFrame
  · rwa [enterFrame_of_eq hf]
  · exact open_empty (by rw [enterFrame_of_ne hf]; rfl)

theorem filed_le {maxOf : UInt8 → UInt8} {s : Reassembly} (h : Open maxOf s) {c : Fragment}
    (hc : c.seqNo ≤ maxOf c.frameNo) : ∀ i ∈ s.filed c, i ≤ maxOf c.frameNo := by
  intro i hi
  rcases mem_filed.mp hi with rfl | hi
  · exact hc
  · have := (open_enterFrame h c).le i hi
    rwa [enterFrame_currentFrame] at this

theorem open_step {maxOf : UInt8 → UInt8} (s : Reassembly) (c : Fragment)
    (hc : c.seqNo ≤ c.maxSeqNo ∧ c.maxSeqNo = maxOf c.frameNo) (h : Open maxOf s) :
    Open maxOf (s.handleImageFragment c).1 := by
  rcases handle_cases s c with ⟨_, he⟩ | ⟨hd, hcomp, he⟩ | ⟨_, he⟩
  · rw [he]; exact open_enterFrame h c
  · rw [he]
    have hle := filed_le h (hc.2 ▸ hc.1)
    have hsz := KeyMap.size_set_of_notMem (s.enterFrame c).fragments c.data hd
    refine ⟨fun i hi => ?_, ?_⟩
    · simpa using hle i hi
    · have hcard := ByteRange.card_le fun i hi => hle i (Finmap.mem_keys.mp hi)
      have hne : (s.enterFrame c).fragments.size ≠ c.maxSeqNo.toNat := fun e => hcomp ⟨hd, e⟩
      change (s.filed c).size ≤ (maxOf (s.enterFrame c).currentFrame).toNat
      rw [enterFrame_currentFrame]
      change (s.filed c).size ≤ _ at hcard
      rw [filed] at hcard ⊢
      rw [hc.2] at hne
      omega
  · rw [he]; exact open_empty rfl

theorem open_after {maxOf : UInt8 → UInt8} (oc sc : Bool) {pre : List Fragment}
    (hw : WellFormed maxOf pre) : Open maxOf (after oc sc pre) :=
  invariant handleImageFragment (Open maxOf) _ (open_init maxOf oc sc) open_step pre hw

theorem WellFormed.cut {maxOf : UInt8 → UInt8} {pre post : List Fragment} {c : Fragment}
    (hw : WellFormed maxOf (pre ++ c :: post)) :
    WellFormed maxOf pre ∧ c.seqNo ≤ c.maxSeqNo ∧ c.maxSeqNo = maxOf c.frameNo :=
  ⟨fun d hd => hw d (List.mem_append_left _ hd),
    hw c (List.mem_append_right _ List.mem_cons_self)⟩

/-- **Calls with well-formed headers are in range.** -/
theorem inRange_of_wellFormed {maxOf : UInt8 → UInt8} {calls : List Fragment} (oc sc : Bool)
    (hw : WellFormed maxOf calls) (pre : List Fragment) (c : Fragment) (post : List Fragment)
    (hcut : calls = pre ++ c :: post) : (after oc sc pre).InRange c := by
  obtain ⟨hpre, hle, hmax⟩ := WellFormed.cut (hcut ▸ hw)
  refine fun _ => ⟨hle, fun i hi => ?_⟩
  have := (open_enterFrame (open_after oc sc hpre) c).le i hi
  rwa [enterFrame_currentFrame, ← hmax] at this

/-! ## Runs -/

/-- **Image integrity of a run**: every delivery is the concatenation, in order, of the pieces
`0 … M` that the loop reads, and each of them is a payload really received for this frame under
this number since the frame last became the current one. -/
def ImageIntegrity (sc : Bool) (calls : List Fragment) : Prop :=
  ∀ pre c post image meta_, calls = pre ++ c :: post →
    .onComplete image meta_ ∈ ((after true sc pre).handleImageFragment c).2 →
    image = (List.range (c.maxSeqNo.toNat + 1)).flatMap ((after true sc pre).piece c) ∧
      PiecesReceived pre (after true sc pre) c

theorem after_onComplete (oc sc : Bool) (pre : List Fragment) :
    (after oc sc pre).onComplete = oc :=
  invariant handleImageFragment (fun t => t.onComplete = oc) (fun _ => True) rfl
    (fun t c _ h => (handle_onComplete t c).trans h) pre fun _ _ => trivial

theorem delivered_of_completes {s : Reassembly} {c : Fragment} (h : s.Completes c)
    (hs : s.onComplete = true) :
    .onComplete ((List.range (c.maxSeqNo.toNat + 1)).flatMap (s.piece c)) s.expectedMeta ∈
      (s.handleImageFragment c).2 := by
  rw [outputs_of_completes h, if_pos hs]
  exact List.mem_cons_self

theorem image_of_mem {s : Reassembly} {c : Fragment} {image : Bytes} {meta_ : String}
    (h : .onComplete image meta_ ∈ (s.handleImageFragment c).2) :
    image = (List.range (c.maxSeqNo.toNat + 1)).flatMap (s.piece c) := by
  rw [outputs_of_completes (completes_of_mem_outputs h)] at h
  cases s.onComplete <;> cases s.sendControl <;> simp_all

/-- **A run delivers intact images exactly when each of its calls is in range.** -/
theorem image_integrity_iff (sc : Bool) (calls : List Fragment)
    (hne : ∀ c ∈ calls, c.data ≠ []) :
    ImageIntegrity sc calls ↔
      ∀ pre c post, calls = pre ++ c :: post → (after true sc pre).InRange c := by
  have hpre : ∀ pre c post, calls = pre ++ c :: post → ∀ d ∈ pre ++ [c], d.data ≠ [] := by
    rintro pre c post rfl d hd
    refine hne d ?_
    simp only [List.mem_append, List.mem_singleton] at hd
    simp only [List.mem_append, List.mem_cons]
    tauto
  constructor
  · intro hi pre c post hcut hc
    obtain ⟨-, hp⟩ := hi pre c post _ _ hcut (delivered_of_completes hc (after_onComplete true sc pre))
    exact (pieces_iff (hpre pre c post hcut) (held_received true sc pre) hc).mp hp hc
  · intro hr pre c post image meta_ hcut hmem
    have hc := completes_of_mem_outputs hmem
    exact ⟨image_of_mem hmem, (pieces_iff (hpre pre c post hcut) (held_received true sc pre) hc).mpr
      (hr pre c post hcut)⟩

/-- Two fragments of one frame, the later one first. -/
theorem image_integrity_swapped : ImageIntegrity true [⟨0, 1, 1, [7]⟩, ⟨0, 0, 1, [6]⟩] := by
  have hw : WellFormed (fun _ => 1) [⟨0, 1, 1, [7]⟩, ⟨0, 0, 1, [6]⟩] := by
    unfold WellFormed; decide
  exact (image_integrity_iff true _ (by decide)).mpr (inRange_of_wellFormed true true hw)

/-- A fragment numbered above its own maximum completes a frame of one piece that never came. -/
theorem image_integrity_fails :
    (∀ c ∈ [Fragment.mk 0 5 0 [1]], c.data ≠ []) ∧ ¬ ImageIntegrity true [⟨0, 5, 0, [1]⟩] := by
  refine ⟨by decide, fun h => ?_⟩
  obtain ⟨-, hp⟩ := h [] ⟨0, 5, 0, [1]⟩ [] [] "" rfl (by decide)
  obtain ⟨d, hd, hk, -⟩ := hp 0 (Nat.zero_le _)
  have hd' : d = ⟨0, 5, 0, [1]⟩ := List.mem_singleton.mp hd
  rw [hd'] at hk
  exact absurd hk (by decide)

end AnoMap.Network.Reassembly
