import AnoMap.Network.Integrity
import Mathlib.Data.Fintype.Card

/-!
# Reassembly does not depend on the arrival order

* `CutImage`: an image cut into at most `256` non-empty pieces; `fragment f k`: the fragment that
  carries piece `k` of frame `f`.
* `Holds`: the map holds exactly the pieces that arrived; `Holds.set`: filing one more keeps it.
* `quiet_early`: nothing is delivered before the last distinct piece.
* **`arrival_order`**: whatever the order and the duplicates before it, the last distinct piece
  delivers the image, and nothing is delivered earlier.
-/

set_option autoImplicit false

namespace AnoMap.Network.Reassembly

open Machine

/-- An image cut into pieces that fit the eight-bit sequence numbers. -/
structure CutImage where
  pieces : List Bytes
  pos : 0 < pieces.length
  le : pieces.length ≤ 256
  nonempty : ∀ p ∈ pieces, p ≠ []

namespace CutImage

variable (I : CutImage)

/-- The number of pieces. -/
abbrev n : ℕ := I.pieces.length

/-- The bytes of the image. -/
def image : Bytes := I.pieces.flatten

def maxSeqNo : UInt8 := UInt8.ofNat (I.n - 1)

/-- The sequence number of piece `k`. -/
def seqNo (k : Fin I.n) : UInt8 := UInt8.ofNat k

/-- The fragment of frame `f` that carries piece `k`. -/
def fragment (f : UInt8) (k : Fin I.n) : Fragment := ⟨f, I.seqNo k, I.maxSeqNo, I.pieces.get k⟩

theorem n_pos : 0 < I.n := I.pos

theorem n_le : I.n ≤ 256 := I.le

theorem maxSeqNo_toNat : I.maxSeqNo.toNat = I.n - 1 := by
  have := I.n_le
  have := I.n_pos
  exact UInt8.toNat_ofNat_of_lt' (show I.n - 1 < 256 by omega)

theorem seqNo_toNat (k : Fin I.n) : (I.seqNo k).toNat = k := by
  have := I.n_le
  exact UInt8.toNat_ofNat_of_lt' (show (k : ℕ) < 256 by omega)

theorem seqNo_injective : Function.Injective I.seqNo := fun a b h => by
  have := congrArg UInt8.toNat h
  rw [seqNo_toNat, seqNo_toNat] at this
  exact Fin.ext this

end CutImage

variable {I : CutImage} {f : UInt8}

/-- The map holds exactly the pieces that arrived, each under its own number. -/
structure Holds (I : CutImage) (arrived : List (Fin I.n)) (m : KeyMap UInt8 Bytes) : Prop where
  keys : m.keys = arrived.toFinset.image I.seqNo
  value : ∀ k ∈ arrived, m.get? (I.seqNo k) = some (I.pieces.get k)

theorem Holds.size {arrived : List (Fin I.n)} {m : KeyMap UInt8 Bytes} (h : Holds I arrived m) :
    m.size = arrived.toFinset.card := by
  rw [KeyMap.size, h.keys, Finset.card_image_of_injective _ I.seqNo_injective]

theorem Holds.mem_iff {arrived : List (Fin I.n)} {m : KeyMap UInt8 Bytes} (h : Holds I arrived m)
    (k : Fin I.n) : I.seqNo k ∈ m ↔ k ∈ arrived := by
  rw [← Finmap.mem_keys, h.keys, I.seqNo_injective.mem_finset_image, List.mem_toFinset]

theorem holds_empty (I : CutImage) : Holds I [] ∅ where
  keys := rfl
  value := fun _ hk => absurd hk List.not_mem_nil

theorem Holds.duplicate {arrived : List (Fin I.n)} {m : KeyMap UInt8 Bytes} (h : Holds I arrived m)
    {k : Fin I.n} (hk : k ∈ arrived) : Holds I (arrived ++ [k]) m where
  keys := by
    rw [h.keys, List.toFinset_append]
    rw [Finset.union_eq_left.mpr (by simpa using hk)]
  value := fun j hj => h.value j (by
    rcases List.mem_append.mp hj with hj | hj
    · exact hj
    · rwa [List.mem_singleton.mp hj])

theorem Holds.set {arrived : List (Fin I.n)} {m : KeyMap UInt8 Bytes} (h : Holds I arrived m)
    (k : Fin I.n) : Holds I (arrived ++ [k]) (m.set (I.seqNo k) (I.pieces.get k)) where
  keys := by
    rw [KeyMap.keys_set, h.keys, List.toFinset_append, Finset.image_union, Finset.union_comm]
    rfl
  value := fun j hj => by
    rw [KeyMap.get?_set]
    split_ifs with hjk
    · rw [I.seqNo_injective hjk]
    · rcases List.mem_append.mp hj with hj | hj
      · exact h.value j hj
      · exact absurd (congrArg I.seqNo (List.mem_singleton.mp hj)) hjk

/-- The state after the pieces `arrived`, from a state of another frame. -/
def Arrived (I : CutImage) (f : UInt8) (arrived : List (Fin I.n)) (t : Reassembly) : Prop :=
  ∀ k, Holds I arrived (t.enterFrame (I.fragment f k)).fragments

theorem arrived_nil {s : Reassembly} (hs : s.currentFrame ≠ f) : Arrived I f [] s := by
  intro k
  rw [enterFrame_of_ne (Ne.symm hs)]
  exact holds_empty I

theorem enterFrame_again (t : Reassembly) {c d : Fragment} (h : d.frameNo = c.frameNo) :
    (t.handleImageFragment c).1.enterFrame d = (t.handleImageFragment c).1 :=
  enterFrame_of_eq (by rw [handle_currentFrame, h])

theorem Arrived.step {arrived : List (Fin I.n)} {t : Reassembly} (h : Arrived I f arrived t)
    {k : Fin I.n} (hc : ¬ t.Completes (I.fragment f k)) :
    Arrived I f (arrived ++ [k]) (t.handleImageFragment (I.fragment f k)).1 := by
  intro j
  rw [enterFrame_again t (show (I.fragment f j).frameNo = (I.fragment f k).frameNo from rfl), handle_fragments, if_neg hc]
  split_ifs with hd
  · exact (h k).duplicate (((h k).mem_iff k).mp hd)
  · exact (h k).set k

/-- A call completes exactly when its piece is the only one missing. -/
theorem Arrived.completes_iff {arrived : List (Fin I.n)} {t : Reassembly}
    (h : Arrived I f arrived t) (k : Fin I.n) :
    t.Completes (I.fragment f k) ↔ k ∉ arrived ∧ ∀ j, j ≠ k → j ∈ arrived := by
  have hmem := (h k).mem_iff k
  unfold Completes
  rw [(h k).size]
  change I.seqNo k ∉ _ ∧ _ = I.maxSeqNo.toNat ↔ _
  rw [hmem, I.maxSeqNo_toNat]
  refine and_congr_right fun hk => ?_
  have hcard : (insert k arrived.toFinset).card = arrived.toFinset.card + 1 :=
    Finset.card_insert_of_notMem (by rwa [List.mem_toFinset])
  have huniv : arrived.toFinset.card = I.n - 1 ↔ insert k arrived.toFinset = Finset.univ := by
    rw [← Finset.card_eq_iff_eq_univ, hcard, Fintype.card_fin]
    have := I.n_pos
    omega
  rw [huniv, Finset.eq_univ_iff_forall]
  simp only [Finset.mem_insert, List.mem_toFinset]
  exact forall_congr' fun j => by tauto

/-- **Nothing is delivered before the last distinct piece.** -/
theorem quiet_early {s : Reassembly} (hs : s.currentFrame ≠ f) {last : Fin I.n}
    (early : List (Fin I.n)) (hlast : last ∉ early) :
    Arrived I f early (final handleImageFragment s (early.map (I.fragment f))) ∧
      ∀ e ∈ trace handleImageFragment s (early.map (I.fragment f)), e.2 = [] := by
  induction early using List.reverseRecOn with
  | nil => exact ⟨arrived_nil hs, fun e he => absurd he List.not_mem_nil⟩
  | append_singleton early k ih =>
    have hl : last ∉ early ∧ last ≠ k := by simpa using hlast
    obtain ⟨harr, hquiet⟩ := ih hl.1
    have hc := fun h => hl.1 (((harr.completes_iff k).mp h).2 last hl.2)
    rw [List.map_append, List.map_singleton, final_concat, trace_concat]
    refine ⟨harr.step hc, fun e he => ?_⟩
    rcases List.mem_append.mp he with he | he
    · exact hquiet e he
    · rw [List.mem_singleton.mp he]
      exact outputs_of_not_completes hc

theorem Arrived.pieces {arrived : List (Fin I.n)} {t : Reassembly} (h : Arrived I f arrived t)
    {k : Fin I.n} (hall : ∀ j, j ≠ k → j ∈ arrived) :
    (List.range (I.maxSeqNo.toNat + 1)).flatMap (t.piece (I.fragment f k)) = I.image := by
  have hn : I.maxSeqNo.toNat + 1 = I.n := by
    have := I.n_pos
    rw [I.maxSeqNo_toNat]
    omega
  rw [hn, CutImage.image, List.flatMap_def]
  congr 1
  refine List.ext_getElem (by simp) fun i h₁ h₂ => ?_
  rw [List.getElem_map, List.getElem_range]
  have hv := ((h k).set k).value ⟨i, h₂⟩ (by
    by_cases hik : (⟨i, h₂⟩ : Fin I.n) = k
    · simp [hik]
    · exact List.mem_append_left _ (hall _ hik))
  change (t.filed (I.fragment f k)).get? (UInt8.ofNat i) = _ at hv
  rw [piece, KeyMap.getD, hv]
  rfl

theorem final_onComplete (s : Reassembly) (calls : List Fragment) :
    (final handleImageFragment s calls).onComplete = s.onComplete :=
  invariant handleImageFragment (fun t => t.onComplete = s.onComplete) (fun _ => True) rfl
    (fun t c _ h => (handle_onComplete t c).trans h) calls fun _ _ => trivial

theorem final_sendControl (s : Reassembly) (calls : List Fragment) :
    (final handleImageFragment s calls).sendControl = s.sendControl :=
  invariant handleImageFragment (fun t => t.sendControl = s.sendControl) (fun _ => True) rfl
    (fun t c _ h => (handle_sendControl t c).trans h) calls fun _ _ => trivial

theorem final_expectedMeta (s : Reassembly) (calls : List Fragment) :
    (final handleImageFragment s calls).expectedMeta = s.expectedMeta :=
  invariant handleImageFragment (fun t => t.expectedMeta = s.expectedMeta) (fun _ => True) rfl
    (fun t c _ h => (handle_expectedMeta t c).trans h) calls fun _ _ => trivial

/-- **Order-independent reassembly.** In any order, with any duplicates before the last distinct
piece: the calls before it emit nothing, and it delivers the image and empties the map. -/
theorem arrival_order (I : CutImage) (f : UInt8) (s : Reassembly) (hs : s.currentFrame ≠ f)
    (early : List (Fin I.n)) (last : Fin I.n) (hlast : last ∉ early)
    (hearly : ∀ k, k ≠ last → k ∈ early) :
    (∀ e ∈ trace handleImageFragment s (early.map (I.fragment f)), e.2 = []) ∧
      ((final handleImageFragment s (early.map (I.fragment f))).handleImageFragment
          (I.fragment f last)).2 =
        (if s.onComplete then [.onComplete I.image s.expectedMeta] else []) ++
          (if s.sendControl then [.sendControl ackJson] else []) ∧
      ((final handleImageFragment s (early.map (I.fragment f))).handleImageFragment
          (I.fragment f last)).1.fragments = ∅ := by
  obtain ⟨harr, hquiet⟩ := quiet_early hs early hlast
  have hc := (harr.completes_iff last).mpr ⟨hlast, hearly⟩
  refine ⟨hquiet, ?_, by rw [handle_fragments, if_pos hc]⟩
  have himg := harr.pieces hearly
  rw [outputs_of_completes hc, final_onComplete, final_sendControl, final_expectedMeta]
  exact congrArg (fun image => (if s.onComplete then [UdpOutput.onComplete image s.expectedMeta]
    else []) ++ if s.sendControl then [UdpOutput.sendControl ackJson] else []) himg

/-- An image of two pieces. -/
def twoPieces : CutImage := ⟨[[1], [2, 3]], by decide, by decide, by decide⟩

/-- The first and the second piece. -/
def first : Fin twoPieces.n := ⟨0, twoPieces.n_pos⟩

def second : Fin twoPieces.n := ⟨1, by decide⟩

/-- The second piece arrives twice before the first one. -/
theorem arrival_order_two :
    (∀ e ∈ trace handleImageFragment (init true true)
      ([second, second].map (twoPieces.fragment 7)), e.2 = []) ∧
      ((final handleImageFragment (init true true)
        ([second, second].map (twoPieces.fragment 7))).handleImageFragment
          (twoPieces.fragment 7 first)).2 =
        [.onComplete twoPieces.image "", .sendControl ackJson] ∧
      ((final handleImageFragment (init true true)
        ([second, second].map (twoPieces.fragment 7))).handleImageFragment
          (twoPieces.fragment 7 first)).1.fragments = ∅ :=
  arrival_order twoPieces 7 (init true true) (by decide) [second, second] first (by decide)
    (by decide)

end AnoMap.Network.Reassembly
