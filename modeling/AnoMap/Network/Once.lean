import AnoMap.Network.Integrity

/-!
# How often a frame is delivered

* `deliveries`, `acks`: the calls of a run at which `onComplete_` and the acknowledgement happen
  for one frame number.
* `covers_of_completes`: a delivery ends a stretch of consecutive fragments of its frame that
  brings every sequence number and follows the frame's previous delivery.
* `completes_of_covers`: every such stretch contains a delivery.
* **`at_most_once_iff`**: each frame is delivered and acknowledged at most once exactly when no
  frame has two disjoint such stretches.
-/

set_option autoImplicit false

namespace AnoMap.Network.Reassembly

open Machine

/-- The calls of a run on frame `f` that emit an output satisfying `p`. -/
def emissions (p : UdpOutput → Bool) (oc sc : Bool) (calls : List Fragment) (f : UInt8) : ℕ :=
  (trace handleImageFragment (init oc sc) calls).countP fun e => e.1.frameNo = f && e.2.any p

/-- The number of times `onComplete_` is invoked for frame `f`. -/
def deliveries : Bool → Bool → List Fragment → UInt8 → ℕ :=
  emissions fun | .onComplete _ _ => true | .sendControl _ => false

/-- The number of times frame `f` is acknowledged. -/
def acks : Bool → Bool → List Fragment → UInt8 → ℕ := emissions fun o => o = .sendControl ackJson

/-- Every frame number is delivered and acknowledged at most once. -/
def AtMostOnce (oc sc : Bool) (calls : List Fragment) : Prop :=
  ∀ f, deliveries oc sc calls f ≤ 1 ∧ acks oc sc calls f ≤ 1

/-! ## Stretches of fragments of one frame -/

/-- Consecutive fragments of frame `f` that bring all of `0 … M`. -/
def Covers (M f : UInt8) (b : List Fragment) : Prop :=
  (∀ c ∈ b, c.frameNo = f) ∧ ∀ i ≤ M, ∃ c ∈ b, c.seqNo = i

/-- Two disjoint stretches of the run bring the whole frame `f`. -/
def CoveredTwice (maxOf : UInt8 → UInt8) (calls : List Fragment) (f : UInt8) : Prop :=
  ∃ a b₁ m b₂ z, calls = a ++ b₁ ++ m ++ b₂ ++ z ∧ Covers (maxOf f) f b₁ ∧ Covers (maxOf f) f b₂

/-- No call of `b` completes, from `s` on. -/
def Quiet (s : Reassembly) (b : List Fragment) : Prop :=
  ∀ p c q, b = p ++ c :: q → ¬ (final handleImageFragment s p).Completes c

theorem Quiet.init {s : Reassembly} {b : List Fragment} {c : Fragment} (h : Quiet s (b ++ [c])) :
    Quiet s b ∧ ¬ (final handleImageFragment s b).Completes c :=
  ⟨fun p d q hb => h p d (q ++ [c]) (by rw [hb]; simp), h b c [] rfl⟩

theorem quiet_concat {s : Reassembly} {b : List Fragment} {c : Fragment} (h : Quiet s b)
    (hc : ¬ (final handleImageFragment s b).Completes c) : Quiet s (b ++ [c]) := by
  intro p d q hb
  rcases List.eq_nil_or_concat' q with rfl | ⟨q', e, rfl⟩
  · obtain ⟨rfl, hd⟩ := List.append_inj' hb rfl
    rwa [← List.singleton_inj.mp hd]
  · have hb' : b ++ [c] = (p ++ d :: q') ++ [e] := by rw [hb]; simp
    exact h p d q' (List.append_inj' hb' rfl).1

/-- During a quiet stretch of one frame everything that arrives is held. -/
theorem held_of_quiet {s : Reassembly} {f : UInt8} {b : List Fragment}
    (hf : ∀ c ∈ b, c.frameNo = f) (hq : Quiet s b) :
    (b ≠ [] → (final handleImageFragment s b).currentFrame = f) ∧
      ∀ c ∈ b, c.seqNo ∈ (final handleImageFragment s b).fragments := by
  induction b using List.reverseRecOn with
  | nil => exact ⟨fun h => absurd rfl h, fun c hc => absurd hc List.not_mem_nil⟩
  | append_singleton b c ih =>
    obtain ⟨hq', hc⟩ := hq.init
    obtain ⟨hcur, hheld⟩ := ih (fun d hd => hf d (List.mem_append_left _ hd)) hq'
    have hcf : c.frameNo = f := hf c (List.mem_append_right _ (List.mem_singleton_self c))
    rw [final_concat, handle_currentFrame]
    refine ⟨fun _ => hcf, fun d hd => ?_⟩
    set t := final handleImageFragment s b
    -- what was held before the call is still held when the fragment is filed
    have hold : ∀ e ∈ b, e.seqNo ∈ (t.enterFrame c).fragments := by
      intro e he
      rw [enterFrame_of_eq (hcf.trans (hcur (List.ne_nil_of_mem he)).symm)]
      exact hheld e he
    rw [handle_fragments, if_neg hc]
    rcases List.mem_append.mp hd with hd | hd
    · split_ifs
      · exact hold d hd
      · exact mem_filed.mpr (Or.inr (hold d hd))
    · rw [List.mem_singleton.mp hd]
      split_ifs with hdup
      · exact hdup
      · exact mem_filed.mpr (Or.inl rfl)

/-- **Every stretch that brings the whole frame contains a delivery.** -/
theorem completes_of_covers {maxOf : UInt8 → UInt8} (oc sc : Bool) (a : List Fragment)
    {b : List Fragment} {f : UInt8} (hw : WellFormed maxOf (a ++ b)) (hb : Covers (maxOf f) f b) :
    ∃ p c q, b = p ++ c :: q ∧ (after oc sc (a ++ p)).Completes c := by
  by_contra hno
  have hq : Quiet (after oc sc a) b := by
    intro p c q hb hc
    exact hno ⟨p, c, q, hb, by rwa [after_append]⟩
  obtain ⟨c₀, hc₀, -⟩ := hb.2 0 (UInt8.le_iff_toNat_le.mpr (Nat.zero_le _))
  obtain ⟨hcur, hheld⟩ := held_of_quiet hb.1 hq
  have hcur := hcur (List.ne_nil_of_mem hc₀)
  have hopen := open_after oc sc hw
  rw [after_append] at hopen
  have hsub : ByteRange.upTo (maxOf f) ⊆ (final handleImageFragment (after oc sc a) b).fragments.keys := by
    intro i hi
    obtain ⟨c, hc, rfl⟩ := hb.2 i (ByteRange.mem_upTo.mp hi)
    exact Finmap.mem_keys.mpr (hheld c hc)
  have hcard := Finset.card_le_card hsub
  have hsize := hopen.size
  rw [hcur] at hsize
  rw [ByteRange.card_upTo] at hcard
  unfold KeyMap.size at hsize
  omega

/-- The run ends with a quiet stretch of the current frame that brought what is held. -/
def Gathered (oc sc : Bool) (pre : List Fragment) (s : Reassembly) : Prop :=
  ∃ x y, pre = x ++ y ∧ Quiet (after oc sc x) y ∧ (∀ d ∈ y, d.frameNo = s.currentFrame) ∧
    ∀ i ∈ s.fragments, ∃ d ∈ y, d.seqNo = i

theorem gathered_enter {oc sc : Bool} {pre : List Fragment} (h : Gathered oc sc pre (after oc sc pre))
    (c : Fragment) : ∃ x y, pre = x ++ y ∧ Quiet (after oc sc x) y ∧
      (∀ d ∈ y, d.frameNo = c.frameNo) ∧
      ∀ i ∈ ((after oc sc pre).enterFrame c).fragments, ∃ d ∈ y, d.seqNo = i := by
  by_cases hf : c.frameNo = (after oc sc pre).currentFrame
  · obtain ⟨x, y, hpre, hq, hfr, hheld⟩ := h
    exact ⟨x, y, hpre, hq, hf ▸ hfr, by rwa [enterFrame_of_eq hf]⟩
  · refine ⟨pre, [], (List.append_nil pre).symm, ?_, fun d hd => absurd hd List.not_mem_nil, ?_⟩
    · intro p d q h; simp at h
    · rw [enterFrame_of_ne hf]
      exact fun i hi => absurd hi Finmap.notMem_empty

theorem gathered (oc sc : Bool) (pre : List Fragment) : Gathered oc sc pre (after oc sc pre) := by
  induction pre using List.reverseRecOn with
  | nil => exact ⟨[], [], rfl, fun p d q h => by simp at h, by simp,
      fun i hi => absurd hi Finmap.notMem_empty⟩
  | append_singleton pre c ih =>
    obtain ⟨x, y, hpre, hq, hfr, hheld⟩ := gathered_enter ih c
    have hfin : after oc sc (pre ++ [c]) = ((after oc sc pre).handleImageFragment c).1 :=
      final_concat _ _ _ _
    by_cases hc : (after oc sc pre).Completes c
    · refine ⟨pre ++ [c], [], by simp, fun p d q h => by simp at h, by simp, ?_⟩
      rw [hfin, handle_fragments, if_pos hc]
      exact fun i hi => absurd hi Finmap.notMem_empty
    · refine ⟨x, y ++ [c], by rw [hpre, List.append_assoc], quiet_concat hq ?_, ?_, ?_⟩
      · rwa [← after_append, ← hpre]
      · rw [hfin, handle_currentFrame]
        intro d hd
        rcases List.mem_append.mp hd with hd | hd
        · exact hfr d hd
        · rw [List.mem_singleton.mp hd]
      · rw [hfin, handle_fragments, if_neg hc]
        intro i hi
        split_ifs at hi with hdup
        · obtain ⟨d, hd, rfl⟩ := hheld i hi
          exact ⟨d, List.mem_append_left _ hd, rfl⟩
        · rcases mem_filed.mp hi with rfl | hi
          · exact ⟨c, by simp, rfl⟩
          · obtain ⟨d, hd, rfl⟩ := hheld i hi
            exact ⟨d, List.mem_append_left _ hd, rfl⟩

/-- **A delivery ends a stretch that brings the whole frame and has no earlier delivery in it.** -/
theorem covers_of_completes {maxOf : UInt8 → UInt8} {oc sc : Bool} {pre : List Fragment}
    {c : Fragment} (hw : WellFormed maxOf (pre ++ [c])) (hc : (after oc sc pre).Completes c) :
    ∃ x y, pre = x ++ y ∧ Quiet (after oc sc x) y ∧ Covers (maxOf c.frameNo) c.frameNo (y ++ [c]) := by
  obtain ⟨x, y, hpre, hq, hfr, hheld⟩ := gathered_enter (gathered oc sc pre) c
  have hmax := (WellFormed.cut hw).2.2
  have hfull := (inRange_iff_full hc).mp (inRange_of_wellFormed oc sc hw pre c [] rfl)
  refine ⟨x, y, hpre, hq, ?_, fun i hi => ?_⟩
  · intro d hd
    rcases List.mem_append.mp hd with hd | hd
    · exact hfr d hd
    · rw [List.mem_singleton.mp hd]
  · rcases mem_filed.mp (hfull i (hmax ▸ hi)) with rfl | hi
    · exact ⟨c, by simp, rfl⟩
    · obtain ⟨d, hd, rfl⟩ := hheld i hi
      exact ⟨d, List.mem_append_left _ hd, rfl⟩

/-! ## Counting deliveries -/

/-- Two calls of the run deliver frame `f`. -/
def CompletesTwice (oc sc : Bool) (calls : List Fragment) (f : UInt8) : Prop :=
  ∃ pre c mid d post, calls = pre ++ c :: (mid ++ d :: post) ∧ c.frameNo = f ∧ d.frameNo = f ∧
    (after oc sc pre).Completes c ∧ (after oc sc (pre ++ c :: mid)).Completes d

theorem completesTwice_iff {maxOf : UInt8 → UInt8} (oc sc : Bool) {calls : List Fragment}
    (hw : WellFormed maxOf calls) (f : UInt8) :
    CompletesTwice oc sc calls f ↔ CoveredTwice maxOf calls f := by
  constructor
  · rintro ⟨pre, c, mid, d, post, rfl, rfl, hdf, hc, hd⟩
    obtain ⟨x₁, y₁, hpre, -, hcov₁⟩ := covers_of_completes
      (fun e he => hw e (by simp only [List.mem_append, List.mem_cons, List.mem_nil_iff] at he ⊢; tauto)) hc
    obtain ⟨x₂, y₂, hpre₂, hq, hcov₂⟩ := covers_of_completes
      (fun e he => hw e (by simp only [List.mem_append, List.mem_cons, List.mem_nil_iff] at he ⊢; tauto)) hd
    rw [hdf] at hcov₂
    rcases List.append_eq_append_iff.mp hpre₂ with ⟨z, hx, hz⟩ | ⟨z, hx, hz⟩
    · cases z with
      | nil =>
        -- the second stretch would start at the first delivery
        rw [List.append_nil] at hx
        exact absurd (hx ▸ hc) (hq [] c mid hz.symm)
      | cons e z =>
        obtain ⟨rfl, rfl⟩ := List.cons.inj hz
        exact ⟨x₁, y₁ ++ [c], z, y₂ ++ [d], post, by rw [hpre]; simp, hcov₁, hcov₂⟩
    · -- the second stretch would contain the first delivery
      refine absurd ?_ (hq z c mid hz)
      rwa [← after_append, ← hx]
  · rintro ⟨a, b₁, m, b₂, z, rfl, h₁, h₂⟩
    obtain ⟨p₁, c, q₁, rfl, hc⟩ := completes_of_covers oc sc a
      (fun e he => hw e (by simp only [List.mem_append] at he ⊢; tauto)) h₁
    obtain ⟨p₂, d, q₂, rfl, hd⟩ := completes_of_covers oc sc (a ++ (p₁ ++ c :: q₁) ++ m)
      (fun e he => hw e (by simp only [List.mem_append] at he ⊢; tauto)) h₂
    refine ⟨a ++ p₁, c, q₁ ++ m ++ p₂, d, q₂ ++ z, by simp, h₁.1 c (by simp), h₂.1 d (by simp), hc, ?_⟩
    simpa using hd

theorem after_sendControl (oc sc : Bool) (pre : List Fragment) :
    (after oc sc pre).sendControl = sc :=
  invariant handleImageFragment (fun t => t.sendControl = sc) (fun _ => True) rfl
    (fun t c _ h => (handle_sendControl t c).trans h) pre fun _ _ => trivial

theorem one_lt_emissions_iff {p : UdpOutput → Bool} {oc sc flag : Bool}
    (hp : ∀ pre c, ((after oc sc pre).handleImageFragment c).2.any p = true ↔
      flag = true ∧ (after oc sc pre).Completes c) (calls : List Fragment) (f : UInt8) :
    1 < emissions p oc sc calls f ↔ flag = true ∧ CompletesTwice oc sc calls f := by
  rw [emissions, one_lt_countP_trace_iff]
  simp only [Bool.and_eq_true, decide_eq_true_eq, hp]
  unfold CompletesTwice
  constructor
  · rintro ⟨pre, c, mid, d, post, h, ⟨h₁, hflag, h₂⟩, h₃, -, h₄⟩
    exact ⟨hflag, pre, c, mid, d, post, h, h₁, h₃, h₂, h₄⟩
  · rintro ⟨hflag, pre, c, mid, d, post, h, h₁, h₃, h₂, h₄⟩
    exact ⟨pre, c, mid, d, post, h, ⟨h₁, hflag, h₂⟩, h₃, hflag, h₄⟩

theorem one_lt_deliveries_iff (oc sc : Bool) (calls : List Fragment) (f : UInt8) :
    1 < deliveries oc sc calls f ↔ oc = true ∧ CompletesTwice oc sc calls f := by
  refine one_lt_emissions_iff (fun pre c => ?_) calls f
  by_cases hc : (after oc sc pre).Completes c
  · rw [outputs_of_completes hc, after_onComplete, after_sendControl]
    cases oc <;> cases sc <;> simp [hc]
  · rw [outputs_of_not_completes hc]
    simp [hc]

theorem one_lt_acks_iff (oc sc : Bool) (calls : List Fragment) (f : UInt8) :
    1 < acks oc sc calls f ↔ sc = true ∧ CompletesTwice oc sc calls f := by
  refine one_lt_emissions_iff (fun pre c => ?_) calls f
  by_cases hc : (after oc sc pre).Completes c
  · rw [outputs_of_completes hc, after_onComplete, after_sendControl]
    cases oc <;> cases sc <;> simp [hc]
  · rw [outputs_of_not_completes hc]
    simp [hc]

/-- **A run of well-formed calls delivers and acknowledges every frame at most once exactly when no
frame is brought twice** by disjoint stretches of consecutive fragments. -/
theorem at_most_once_iff {maxOf : UInt8 → UInt8} {oc sc : Bool} {calls : List Fragment}
    (hw : WellFormed maxOf calls) (hset : oc = true ∨ sc = true) :
    AtMostOnce oc sc calls ↔ ∀ f, ¬ CoveredTwice maxOf calls f := by
  refine forall_congr' fun f => ?_
  rw [← completesTwice_iff oc sc hw f, ← not_lt, ← not_lt, one_lt_deliveries_iff,
    one_lt_acks_iff]
  tauto

/-- A frame sent as two fragments, the first of them resent before the second one. -/
theorem at_most_once_resent : AtMostOnce true true
    [⟨0, 0, 1, [1]⟩, ⟨0, 0, 1, [1]⟩, ⟨0, 1, 1, [2]⟩] ↔ ∀ f, ¬ CoveredTwice (fun _ => 1)
    [⟨0, 0, 1, [1]⟩, ⟨0, 0, 1, [1]⟩, ⟨0, 1, 1, [2]⟩] f :=
  at_most_once_iff (by unfold WellFormed; decide) (Or.inl rfl)

/-- A frame of one fragment whose datagram is duplicated is delivered twice. -/
theorem at_most_once_fails :
    WellFormed (fun _ => 0) [⟨0, 0, 0, [1]⟩, ⟨0, 0, 0, [1]⟩] ∧
      ¬ AtMostOnce true true [⟨0, 0, 0, [1]⟩, ⟨0, 0, 0, [1]⟩] := by
  refine ⟨by unfold WellFormed; decide, fun h => ?_⟩
  exact absurd (h 0).1 (by decide)

end AnoMap.Network.Reassembly
