import AnoMap.Network.ArrivalOrder
import AnoMap.Network.Once

/-!
# Stragglers

A fragment of another frame than the current one starts that frame and drops what is held, also
when it is late.

* `Mixed`: fragments of a frame `f`, the first of all among them, and pieces of an image sent as the
  next frame `g`.
* `UnderWay`: what is held of `g` came in the stretch of its pieces that ends the run
  (`underWay_after`).
* **`newer_frame_iff`**: the image of `g` is delivered if and only if some stretch of consecutive
  fragments, all of `g`, brings all of its pieces.
-/

set_option autoImplicit false

namespace AnoMap.Network.Reassembly

open Machine

variable (J : CutImage) (f g : UInt8)

/-- Fragments of frame `f`, one of them the first, and pieces of `J` sent as frame `g`. -/
structure Mixed (calls : List Fragment) : Prop where
  first : ∃ c rest, calls = c :: rest ∧ c.frameNo = f
  frames : ∀ c ∈ calls, c.frameNo = f ∨ ∃ k, c = J.fragment g k

/-- The image of frame `g` is delivered. -/
def Delivers (s : Reassembly) (calls : List Fragment) : Prop :=
  ∃ pre c post meta_, calls = pre ++ c :: post ∧ c.frameNo = g ∧
    .onComplete J.image meta_ ∈ ((final handleImageFragment s pre).handleImageFragment c).2

variable {J f g}

/-- The run ends with a stretch of pieces of `J` that brought what is held of it, but not all. -/
def UnderWay (J : CutImage) (g : UInt8) (pre : List Fragment) (t : Reassembly) : Prop :=
  ∃ x y, pre = x ++ y.map (J.fragment g) ∧ Arrived J g y t ∧ ∃ k, k ∉ y

theorem underWay_of_other {pre : List Fragment} {t : Reassembly} (h : t.currentFrame ≠ g) :
    UnderWay J g pre t :=
  ⟨pre, [], by simp, arrived_nil h, ⟨0, J.n_pos⟩, List.not_mem_nil⟩

theorem exists_missing {y : List (Fin J.n)} {t : Reassembly} (h : Arrived J g y t)
    (hm : ∃ k, k ∉ y) {k : Fin J.n} (hc : ¬ t.Completes (J.fragment g k)) :
    ∃ j, j ∉ y ++ [k] := by
  rw [h.completes_iff] at hc
  by_cases hk : k ∈ y
  · obtain ⟨j, hj⟩ := hm
    refine ⟨j, fun hmem => ?_⟩
    rcases List.mem_append.mp hmem with hmem | hmem
    · exact hj hmem
    · exact hj (List.mem_singleton.mp hmem ▸ hk)
  · obtain ⟨j, hne, hj⟩ : ∃ j, j ≠ k ∧ j ∉ y := by
      by_contra hno
      exact hc ⟨hk, fun j hne => by_contra fun hj => hno ⟨j, hne, hj⟩⟩
    refine ⟨j, fun hmem => ?_⟩
    rcases List.mem_append.mp hmem with hmem | hmem
    · exact hj hmem
    · exact hne (List.mem_singleton.mp hmem)

/-- **Step.** Another frame's fragment, and a delivery, start anew; any other piece of `J` is added
to the stretch. -/
theorem UnderWay.step {pre : List Fragment} {t : Reassembly} (h : UnderWay J g pre t)
    {c : Fragment} (hc : c.frameNo ≠ g ∨ ∃ k, c = J.fragment g k) :
    UnderWay J g (pre ++ [c]) (t.handleImageFragment c).1 := by
  rcases hc with hc | ⟨k, rfl⟩
  · exact underWay_of_other (by rwa [handle_currentFrame])
  · obtain ⟨x, y, rfl, harr, hm⟩ := h
    by_cases hcomp : t.Completes (J.fragment g k)
    · refine ⟨x ++ y.map (J.fragment g) ++ [J.fragment g k], [], by simp, fun j => ?_,
        ⟨0, J.n_pos⟩, List.not_mem_nil⟩
      rw [enterFrame_again t (show (J.fragment g j).frameNo = (J.fragment g k).frameNo from rfl),
        handle_fragments, if_pos hcomp]
      exact holds_empty J
    · exact ⟨x, y ++ [k], by simp, harr.step hcomp, exists_missing harr hm hcomp⟩

theorem underWay_after (s : Reassembly) (hfg : f ≠ g) {calls : List Fragment}
    (h : Mixed J f g calls) {pre post : List Fragment} (hcut : calls = pre ++ post)
    (hne : pre ≠ []) : UnderWay J g pre (final handleImageFragment s pre) := by
  induction pre using List.reverseRecOn generalizing post with
  | nil => exact absurd rfl hne
  | append_singleton pre c ih =>
    have hcut' : calls = pre ++ c :: post := by rw [hcut, List.append_assoc]; rfl
    have hc : c.frameNo ≠ g ∨ ∃ k, c = J.fragment g k :=
      (h.frames c (by rw [hcut']; simp)).imp_left fun (hf : c.frameNo = f) => hf ▸ hfg
    rw [final_concat]
    cases pre with
    | nil =>
      obtain ⟨c₀, rest, hfirst, hf⟩ := h.first
      obtain ⟨rfl, -⟩ := List.cons.inj (hfirst.symm.trans hcut')
      refine underWay_of_other ?_
      rw [handle_currentFrame, hf]
      exact hfg
    | cons d pre => exact (ih hcut' (List.cons_ne_nil d pre)).step hc

/-- A stretch of pieces that makes up for the missing ones completes the image. -/
theorem exists_completes {y ys : List (Fin J.n)} {t : Reassembly} (h : Arrived J g y t)
    (hm : ∃ k, k ∉ y) (hall : ∀ k, k ∈ y ++ ys) :
    ∃ p k q, ys = p ++ k :: q ∧
      Arrived J g (y ++ p) (final handleImageFragment t (p.map (J.fragment g))) ∧
        (final handleImageFragment t (p.map (J.fragment g))).Completes (J.fragment g k) := by
  induction ys generalizing y t with
  | nil =>
    obtain ⟨k, hk⟩ := hm
    exact absurd (List.append_nil y ▸ hall k) hk
  | cons k ys ih =>
    by_cases hc : t.Completes (J.fragment g k)
    · exact ⟨[], k, ys, rfl, by rwa [List.append_nil], hc⟩
    · obtain ⟨p, j, q, rfl, harr, hcomp⟩ := ih (h.step hc) (exists_missing h hm hc)
        (by simpa using hall)
      exact ⟨k :: p, j, q, rfl, by simpa using harr, hcomp⟩

theorem exists_map_fragment (hfg : f ≠ g) {b : List Fragment} (hb : ∀ c ∈ b, c.frameNo = g)
    (h : ∀ c ∈ b, c.frameNo = f ∨ ∃ k, c = J.fragment g k) :
    ∃ ys : List (Fin J.n), b = ys.map (J.fragment g) := by
  induction b with
  | nil => exact ⟨[], rfl⟩
  | cons c b ih =>
    obtain ⟨ys, hys⟩ := ih (fun c hc => hb c (List.mem_cons_of_mem _ hc))
      fun c hc => h c (List.mem_cons_of_mem _ hc)
    obtain ⟨k, hk⟩ := (h c List.mem_cons_self).resolve_left fun hf =>
      hfg (hf.symm.trans (hb c List.mem_cons_self))
    exact ⟨k :: ys, by rw [hys, hk]; rfl⟩

theorem Arrived.delivers {arrived : List (Fin J.n)} {t : Reassembly} (h : Arrived J g arrived t)
    {k : Fin J.n} (hc : t.Completes (J.fragment g k)) (ho : t.onComplete = true) :
    .onComplete J.image t.expectedMeta ∈ (t.handleImageFragment (J.fragment g k)).2 := by
  have himg := h.pieces ((h.completes_iff k).mp hc).2
  have hmem := delivered_of_completes hc ho
  rwa [show (J.fragment g k).maxSeqNo = J.maxSeqNo from rfl, himg] at hmem

theorem covers_map_iff {ys : List (Fin J.n)} :
    Covers J.maxSeqNo g (ys.map (J.fragment g)) ↔ ∀ k, k ∈ ys := by
  constructor
  · rintro ⟨-, hcov⟩ k
    have hle : J.seqNo k ≤ J.maxSeqNo := by
      rw [UInt8.le_iff_toNat_le, J.seqNo_toNat, J.maxSeqNo_toNat]
      omega
    obtain ⟨c, hc, hseq⟩ := hcov _ hle
    obtain ⟨j, hj, rfl⟩ := List.mem_map.mp hc
    rwa [← J.seqNo_injective hseq]
  · intro hall
    refine ⟨fun c hc => ?_, fun i hi => ?_⟩
    · obtain ⟨j, -, rfl⟩ := List.mem_map.mp hc
      rfl
    · have hi := UInt8.le_iff_toNat_le.mp hi
      rw [J.maxSeqNo_toNat] at hi
      have hpos := J.n_pos
      exact ⟨J.fragment g ⟨i.toNat, by omega⟩, List.mem_map_of_mem (hall _), UInt8.ofNat_toNat⟩

theorem Mixed.ne_nil (hfg : f ≠ g) {calls : List Fragment} (h : Mixed J f g calls)
    {pre post : List Fragment} {c : Fragment} (hcut : calls = pre ++ c :: post)
    (hc : c.frameNo = g) : pre ≠ [] := by
  rintro rfl
  obtain ⟨c₀, rest, hfirst, hf⟩ := h.first
  obtain ⟨rfl, -⟩ := List.cons.inj (hfirst.symm.trans hcut)
  exact hfg (hf.symm.trans hc)

/-- **The newer frame, exactly.** The image of frame `g` is delivered if and only if the run has a
stretch of consecutive fragments of `g` that brings all of its pieces. -/
theorem newer_frame_iff (s : Reassembly) (hs : s.onComplete = true) (hfg : f ≠ g)
    {calls : List Fragment} (h : Mixed J f g calls) :
    Delivers J g s calls ↔ ∃ a b z, calls = a ++ b ++ z ∧ Covers J.maxSeqNo g b := by
  constructor
  · rintro ⟨pre, c, post, meta_, hcut, hc, hmem⟩
    obtain ⟨x, y, rfl, harr, -⟩ := underWay_after s hfg h hcut (h.ne_nil hfg hcut hc)
    obtain ⟨k, rfl⟩ := (h.frames c (by rw [hcut]; simp)).resolve_left fun hf =>
      hfg (hf.symm.trans hc)
    have hall := ((harr.completes_iff k).mp (completes_of_mem_outputs hmem)).2
    refine ⟨x, (y ++ [k]).map (J.fragment g), post, by rw [hcut]; simp, covers_map_iff.mpr ?_⟩
    intro j
    by_cases hj : j = k
    · rw [hj]
      simp
    · exact List.mem_append_left _ (hall _ hj)
  · rintro ⟨a, b, z, hcut, hcov⟩
    obtain ⟨ys, rfl⟩ := exists_map_fragment hfg hcov.1 fun c hc =>
      h.frames c (by rw [hcut]; simp [hc])
    have hys := covers_map_iff.mp hcov
    have hane : a ≠ [] := by
      obtain ⟨k, rest, rfl⟩ := List.exists_cons_of_ne_nil (List.ne_nil_of_mem (hys ⟨0, J.n_pos⟩))
      have hcut' : calls = a ++ J.fragment g k :: (rest.map (J.fragment g) ++ z) := by
        rw [hcut]
        simp
      exact h.ne_nil hfg hcut' rfl
    obtain ⟨x, y, hx, harr, hm⟩ := underWay_after s hfg h (hcut.trans (List.append_assoc a _ z)) hane
    obtain ⟨p, k, q, rfl, harr', hcomp⟩ := exists_completes harr hm fun k =>
      List.mem_append_right y (hys k)
    rw [← final_append] at harr' hcomp
    refine ⟨a ++ p.map (J.fragment g), J.fragment g k, q.map (J.fragment g) ++ z, _,
      by rw [hcut]; simp, rfl, harr'.delivers hcomp ?_⟩
    rw [final_onComplete, hs]

/-- A late piece of the older frame arrives before the newer one begins. -/
theorem newer_frame_sample : Delivers twoPieces 1 (init true true)
    [twoPieces.fragment 0 first, twoPieces.fragment 0 first, twoPieces.fragment 1 second,
      twoPieces.fragment 1 first] := by
  refine (newer_frame_iff (init true true) rfl (show (0 : UInt8) ≠ 1 by decide) ⟨?_, ?_⟩).mpr
    ⟨[twoPieces.fragment 0 first, twoPieces.fragment 0 first],
      [twoPieces.fragment 1 second, twoPieces.fragment 1 first], [], rfl, ?_⟩
  · exact ⟨_, _, rfl, rfl⟩
  · decide
  · refine ⟨by decide, fun i hi => ?_⟩
    have hi : i.toNat ≤ 1 := UInt8.le_iff_toNat_le.mp hi
    obtain rfl | rfl : i = 0 ∨ i = 1 := by
      rw [← UInt8.toNat_inj, ← UInt8.toNat_inj, UInt8.toNat_zero, UInt8.toNat_one]
      omega
    · exact ⟨twoPieces.fragment 1 first, by simp, rfl⟩
    · exact ⟨twoPieces.fragment 1 second, by simp, rfl⟩

/-- **A straggler** of the older frame between the two pieces of the newer one. -/
theorem newer_frame_fails :
    ¬ ∀ (I J : CutImage) (f g : UInt8) (calls : List Fragment), f ≠ g → Mixed J f g calls →
      (∀ c ∈ calls, c.frameNo = f → ∃ k, c = I.fragment f k) → (∀ k, J.fragment g k ∈ calls) →
        Delivers J g (init true true) calls := by
  intro h
  have hquiet : ∀ e ∈ trace handleImageFragment (init true true)
      [twoPieces.fragment 0 first, twoPieces.fragment 1 first, twoPieces.fragment 0 second,
        twoPieces.fragment 1 second], e.2 = [] := by decide
  obtain ⟨pre, c, post, meta_, hcut, -, hmem⟩ := h twoPieces twoPieces 0 1
    [twoPieces.fragment 0 first, twoPieces.fragment 1 first, twoPieces.fragment 0 second,
      twoPieces.fragment 1 second] (by decide) ⟨⟨_, _, rfl, rfl⟩, by decide⟩ (by decide) (by decide)
  have hnil : ((final handleImageFragment (init true true) pre).handleImageFragment c).2 = [] :=
    hquiet (c, _) ((mem_trace_iff _ _ _ (c, _)).mpr ⟨pre, post, hcut, rfl⟩)
  rw [hnil] at hmem
  cases hmem

end AnoMap.Network.Reassembly
