import AnoMap.Lib.KeyMap
import AnoMap.Lib.Machine
import AnoMap.Lib.Timer
import AnoMap.Network.Protocol

/-!
# Reassembly of UDP images

The reassembly state of a `UdpSession`: the fragments held for the current frame, the expected
maximum, the metadata in force and the reassembly timer.

* `handleImageFragment`, `checkMissingFragments`, `onReassemblyWait`: the member functions and the
  body of both timer handlers, with the callbacks they invoke as outputs.
* `completeImage_eq`: the loop over `fragments_[i]` appends what the map reads as, an absent piece
  as the empty one.
* `handle_cases`, `handle_fragments`, `outputs_of_completes`: what one call can do.
* `scanMissing_of_full`, `scanMissing_eq`: the scan for missing fragments returns exactly when the
  expected maximum is not 255.
* `retransmission_exact_iff`: then, and only then, `checkMissingFragments` is exact.
* `Rearms`: when the handler of a wait does not let the timer rest.
-/

set_option autoImplicit false

namespace AnoMap

namespace Network

/-- A callback invoked by the reassembly code, with its arguments. -/
inductive UdpOutput where
  | onComplete (image : Bytes) (meta_ : String)
  | sendControl (json : String)
  deriving DecidableEq, Repr

/-- The reassembly state of a `UdpSession`; `onComplete` and `sendControl` say whether the
callbacks are set. -/
structure Reassembly where
  onComplete : Bool
  sendControl : Bool
  expectedMeta : String
  currentFrame : UInt8
  expectedMaxSeq : UInt8
  fragments : KeyMap UInt8 Bytes
  reassemblyTimer : Timer UInt8

/-- The arguments of one call of `handleImageFragment`. -/
structure Fragment where
  frameNo : UInt8
  seqNo : UInt8
  maxSeqNo : UInt8
  data : Bytes
  deriving DecidableEq, Repr

/-- The acknowledgement sent for a reassembled frame. -/
def ackJson : String := "\x7b\"receive\": true\x7d"

namespace Reassembly

/-- A new session's state. -/
def init (onComplete sendControl : Bool) : Reassembly where
  onComplete := onComplete
  sendControl := sendControl
  expectedMeta := ""
  currentFrame := 255
  expectedMaxSeq := 0
  fragments := ∅
  reassemblyTimer := .idle

def setExpectedMeta (s : Reassembly) (meta_ : String) : Reassembly := { s with expectedMeta := meta_ }

/-- The branch of `handleImageFragment` for a frame that is not the current one. -/
def newFrame (s : Reassembly) (frameNo maxSeqNo : UInt8) : Reassembly :=
  { s with
    currentFrame := frameNo
    expectedMaxSeq := maxSeqNo
    fragments := ∅
    reassemblyTimer := s.reassemblyTimer.rearm frameNo }

/-- `for (int i = 0; i <= maxSeqNo; ++i)` over `fragments_[i]`, which inserts an absent piece. -/
def completeImage (fragments : KeyMap UInt8 Bytes) (maxSeqNo : UInt8) :
    KeyMap UInt8 Bytes × Bytes :=
  (List.range (maxSeqNo.toNat + 1)).foldl
    (fun acc i =>
      let r := acc.1.fetch (UInt8.ofNat i)
      (r.1, acc.2 ++ r.2))
    (fragments, [])

/-- The branch of `handleImageFragment` that delivers the image. -/
def deliver (s : Reassembly) (maxSeqNo : UInt8) : Reassembly × List UdpOutput :=
  let image := (completeImage s.fragments maxSeqNo).2
  ({ s with fragments := ∅, reassemblyTimer := s.reassemblyTimer.cancel },
    (if s.onComplete then [.onComplete image s.expectedMeta] else []) ++
      if s.sendControl then [.sendControl ackJson] else [])

/-- The state in which a fragment is filed: its frame is the current one. -/
def enterFrame (s : Reassembly) (c : Fragment) : Reassembly :=
  if c.frameNo ≠ s.currentFrame then s.newFrame c.frameNo c.maxSeqNo else s

def handleImageFragment (s : Reassembly) (c : Fragment) : Reassembly × List UdpOutput :=
  let s := s.enterFrame c
  if c.seqNo ∈ s.fragments then (s, [])
  else
    let s := { s with fragments := s.fragments.set c.seqNo c.data }
    if s.fragments.size = c.maxSeqNo.toNat + 1 then s.deliver c.maxSeqNo else (s, [])

/-- `for (uint8_t i = 0; i <= expected_max_seq_; ++i)`: the numbers from `i` on that are not held.
The counter wraps, so the loop is run with fuel; `none` is a loop that is still running. -/
def scanMissing (fragments : KeyMap UInt8 Bytes) (expectedMaxSeq : UInt8) :
    ℕ → UInt8 → Option (List UInt8)
  | 0, _ => none
  | fuel + 1, i =>
    if i ≤ expectedMaxSeq then
      (scanMissing fragments expectedMaxSeq fuel (i + 1)).map
        fun missing => if i ∈ fragments then missing else i :: missing
    else some []

/-- The fuel that suffices for every scan that returns. -/
def scanFuel : ℕ := 257

/-- The retransmission request. -/
def missingJson (currentFrame : UInt8) (missing : List UInt8) : String :=
  "\x7b\"frame_number\":" ++ toString currentFrame.toNat ++ ",\"missing_sequence\":[" ++
    String.intercalate "," (missing.map fun i => toString i.toNat) ++ "]\x7d"

/-- `none`: the scan never returns. -/
def checkMissingFragments (s : Reassembly) : Option (Reassembly × List UdpOutput) :=
  (scanMissing s.fragments s.expectedMaxSeq scanFuel 0).map fun missing =>
    if missing ≠ [] ∧ s.sendControl then
      ({ s with reassemblyTimer := s.reassemblyTimer.rearm s.currentFrame },
        [.sendControl (missingJson s.currentFrame missing)])
    else (s, [])

/-- The handler of a wait on `reassembly_timer_` that was armed for `frameNo` and expired. -/
def onReassemblyWait (s : Reassembly) (frameNo : UInt8) :
    Option (Reassembly × List UdpOutput) :=
  if s.currentFrame = frameNo ∧ s.fragments ≠ ∅ then s.checkMissingFragments else some (s, [])

/-! ## One call -/

/-- The call finds its sequence number held. -/
def Duplicate (s : Reassembly) (c : Fragment) : Prop := c.seqNo ∈ (s.enterFrame c).fragments

/-- The call files its fragment and finds the count complete. -/
def Completes (s : Reassembly) (c : Fragment) : Prop :=
  c.seqNo ∉ (s.enterFrame c).fragments ∧ (s.enterFrame c).fragments.size = c.maxSeqNo.toNat

/-- The map after the call's insertion. -/
def filed (s : Reassembly) (c : Fragment) : KeyMap UInt8 Bytes :=
  (s.enterFrame c).fragments.set c.seqNo c.data

instance (s : Reassembly) (c : Fragment) : Decidable (s.Duplicate c) :=
  inferInstanceAs (Decidable (_ ∈ _))

instance (s : Reassembly) (c : Fragment) : Decidable (s.Completes c) :=
  inferInstanceAs (Decidable (_ ∧ _))

theorem enterFrame_of_eq {s : Reassembly} {c : Fragment} (h : c.frameNo = s.currentFrame) :
    s.enterFrame c = s := if_neg (not_not.mpr h)

theorem enterFrame_of_ne {s : Reassembly} {c : Fragment} (h : c.frameNo ≠ s.currentFrame) :
    s.enterFrame c = s.newFrame c.frameNo c.maxSeqNo := if_pos h

@[simp] theorem enterFrame_currentFrame (s : Reassembly) (c : Fragment) :
    (s.enterFrame c).currentFrame = c.frameNo := by
  by_cases h : c.frameNo = s.currentFrame
  · rw [enterFrame_of_eq h, h]
  · rw [enterFrame_of_ne h]; rfl

@[simp] theorem enterFrame_onComplete (s : Reassembly) (c : Fragment) :
    (s.enterFrame c).onComplete = s.onComplete := by
  unfold enterFrame; split_ifs <;> rfl

@[simp] theorem enterFrame_sendControl (s : Reassembly) (c : Fragment) :
    (s.enterFrame c).sendControl = s.sendControl := by
  unfold enterFrame; split_ifs <;> rfl

@[simp] theorem enterFrame_expectedMeta (s : Reassembly) (c : Fragment) :
    (s.enterFrame c).expectedMeta = s.expectedMeta := by
  unfold enterFrame; split_ifs <;> rfl

theorem handle_duplicate {s : Reassembly} {c : Fragment} (h : s.Duplicate c) :
    s.handleImageFragment c = (s.enterFrame c, []) := if_pos h

theorem handle_completes {s : Reassembly} {c : Fragment} (h : s.Completes c) :
    s.handleImageFragment c =
      deliver { s.enterFrame c with fragments := s.filed c } c.maxSeqNo := by
  have hsz : (s.filed c).size = c.maxSeqNo.toNat + 1 := by
    rw [filed, KeyMap.size_set_of_notMem _ _ h.1, h.2]
  rw [handleImageFragment, if_neg h.1]
  exact if_pos hsz

theorem handle_files {s : Reassembly} {c : Fragment} (hd : ¬ s.Duplicate c) (hc : ¬ s.Completes c) :
    s.handleImageFragment c = ({ s.enterFrame c with fragments := s.filed c }, []) := by
  have hsz : (s.filed c).size ≠ c.maxSeqNo.toNat + 1 := by
    rw [filed, KeyMap.size_set_of_notMem _ _ hd]
    exact fun h => hc ⟨hd, Nat.succ.inj h⟩
  have hd' : c.seqNo ∉ (s.enterFrame c).fragments := hd
  rw [handleImageFragment, if_neg hd']
  exact if_neg hsz

theorem not_duplicate_of_completes {s : Reassembly} {c : Fragment} (h : s.Completes c) :
    ¬ s.Duplicate c := h.1

/-- **What one call can do**: drop a duplicate, file a fragment, or deliver. -/
theorem handle_cases (s : Reassembly) (c : Fragment) :
    (s.Duplicate c ∧ s.handleImageFragment c = (s.enterFrame c, [])) ∨
    (¬ s.Duplicate c ∧ ¬ s.Completes c ∧
      s.handleImageFragment c = ({ s.enterFrame c with fragments := s.filed c }, [])) ∨
    (s.Completes c ∧ s.handleImageFragment c =
      deliver { s.enterFrame c with fragments := s.filed c } c.maxSeqNo) := by
  by_cases hd : s.Duplicate c
  · exact Or.inl ⟨hd, handle_duplicate hd⟩
  · by_cases hc : s.Completes c
    · exact Or.inr (Or.inr ⟨hc, handle_completes hc⟩)
    · exact Or.inr (Or.inl ⟨hd, hc, handle_files hd hc⟩)

@[simp] theorem handle_currentFrame (s : Reassembly) (c : Fragment) :
    (s.handleImageFragment c).1.currentFrame = c.frameNo := by
  rcases handle_cases s c with ⟨_, h⟩ | ⟨_, _, h⟩ | ⟨_, h⟩ <;> rw [h] <;> simp [deliver]

@[simp] theorem handle_onComplete (s : Reassembly) (c : Fragment) :
    (s.handleImageFragment c).1.onComplete = s.onComplete := by
  rcases handle_cases s c with ⟨_, h⟩ | ⟨_, _, h⟩ | ⟨_, h⟩ <;> rw [h] <;> simp [deliver]

@[simp] theorem handle_sendControl (s : Reassembly) (c : Fragment) :
    (s.handleImageFragment c).1.sendControl = s.sendControl := by
  rcases handle_cases s c with ⟨_, h⟩ | ⟨_, _, h⟩ | ⟨_, h⟩ <;> rw [h] <;> simp [deliver]

@[simp] theorem handle_expectedMeta (s : Reassembly) (c : Fragment) :
    (s.handleImageFragment c).1.expectedMeta = s.expectedMeta := by
  rcases handle_cases s c with ⟨_, h⟩ | ⟨_, _, h⟩ | ⟨_, h⟩ <;> rw [h] <;> simp [deliver]

theorem handle_fragments (s : Reassembly) (c : Fragment) :
    (s.handleImageFragment c).1.fragments =
      if s.Completes c then ∅ else if s.Duplicate c then (s.enterFrame c).fragments
        else s.filed c := by
  rcases handle_cases s c with ⟨hd, h⟩ | ⟨hd, hc, h⟩ | ⟨hc, h⟩
  · rw [h, if_neg (fun hc => not_duplicate_of_completes hc hd), if_pos hd]
  · rw [h, if_neg hc, if_neg hd]
  · rw [h, if_pos hc]; rfl

theorem completes_of_mem_outputs {s : Reassembly} {c : Fragment} {o : UdpOutput}
    (h : o ∈ (s.handleImageFragment c).2) : s.Completes c := by
  rcases handle_cases s c with ⟨_, he⟩ | ⟨_, _, he⟩ | ⟨hc, _⟩
  · rw [he] at h; cases h
  · rw [he] at h; cases h
  · exact hc

/-! ## The delivered image -/

/-- What `fragments_[i]` reads as when the loop of the call reaches `i`. -/
def piece (s : Reassembly) (c : Fragment) (i : ℕ) : Bytes := (s.filed c).getD (UInt8.ofNat i)

theorem foldl_fetch (l : List ℕ) (m : KeyMap UInt8 Bytes) (acc : Bytes) :
    (l.foldl (fun acc i => ((acc.1.fetch (UInt8.ofNat i)).1,
      acc.2 ++ (acc.1.fetch (UInt8.ofNat i)).2)) (m, acc)).2 =
        acc ++ l.flatMap fun i => m.getD (UInt8.ofNat i) := by
  induction l generalizing m acc with
  | nil => simp
  | cons i l ih =>
    rw [List.foldl_cons, ih]
    simp only [KeyMap.fetch_snd, KeyMap.getD_fetch_fst, List.flatMap_cons, List.append_assoc]

/-- **The loop appends what the map reads as**, an absent piece as the empty one. -/
theorem completeImage_eq (m : KeyMap UInt8 Bytes) (maxSeqNo : UInt8) :
    (completeImage m maxSeqNo).2 =
      (List.range (maxSeqNo.toNat + 1)).flatMap fun i => m.getD (UInt8.ofNat i) := by
  rw [completeImage, foldl_fetch, List.nil_append]

theorem outputs_of_completes {s : Reassembly} {c : Fragment} (h : s.Completes c) :
    (s.handleImageFragment c).2 =
      (if s.onComplete then
        [.onComplete ((List.range (c.maxSeqNo.toNat + 1)).flatMap (s.piece c)) s.expectedMeta]
      else []) ++ if s.sendControl then [.sendControl ackJson] else [] := by
  rw [handle_completes h, deliver, completeImage_eq]
  simp only [enterFrame_onComplete, enterFrame_sendControl, enterFrame_expectedMeta]
  rfl

theorem outputs_of_not_completes {s : Reassembly} {c : Fragment} (h : ¬ s.Completes c) :
    (s.handleImageFragment c).2 = [] :=
  List.eq_nil_iff_forall_not_mem.mpr fun _ ho => h (completes_of_mem_outputs ho)

/-! ## The scan for missing fragments -/

/-- The numbers up to the expected maximum that are not held. -/
def missing (fragments : KeyMap UInt8 Bytes) (expectedMaxSeq : UInt8) : List UInt8 :=
  ((List.range (expectedMaxSeq.toNat + 1)).map UInt8.ofNat).filter fun i => i ∉ fragments

/-- **An expected maximum of 255 is never passed**: the counter wraps and the scan goes on. -/
theorem scanMissing_of_full (fragments : KeyMap UInt8 Bytes) (fuel : ℕ) (i : UInt8) :
    scanMissing fragments 255 fuel i = none := by
  induction fuel generalizing i with
  | zero => rfl
  | succ fuel ih =>
    have hi : i ≤ 255 := UInt8.le_iff_toNat_le.mpr (Nat.le_of_lt_succ i.toNat_lt)
    rw [scanMissing, if_pos hi, ih]
    rfl

theorem scanMissing_from (fragments : KeyMap UInt8 Bytes) {m : UInt8} (hm : m ≠ 255) (fuel : ℕ)
    (i : UInt8) (hi : i.toNat ≤ m.toNat + 1) (hf : m.toNat + 1 < i.toNat + fuel) :
    scanMissing fragments m fuel i =
      some (((List.range' i.toNat (m.toNat + 1 - i.toNat)).map UInt8.ofNat).filter
        fun j => j ∉ fragments) := by
  have hm' : m.toNat < 255 := by
    have h1 := m.toNat_lt
    have h2 : m.toNat ≠ 255 := fun h => hm (UInt8.toNat_inj.mp h)
    omega
  induction fuel generalizing i with
  | zero => omega
  | succ fuel ih =>
    rw [scanMissing]
    by_cases hle : i ≤ m
    · have hle' := UInt8.le_iff_toNat_le.mp hle
      have hsucc : (i + 1).toNat = i.toNat + 1 := by
        rw [UInt8.toNat_add, UInt8.toNat_one]
        omega
      have hlen : m.toNat + 1 - i.toNat = m.toNat + 1 - (i.toNat + 1) + 1 := by omega
      rw [if_pos hle, ih (i + 1) (by omega) (by omega), hsucc, hlen, List.range'_succ, List.map_cons,
        UInt8.ofNat_toNat, Option.map_some]
      congr 1
      by_cases hmem : i ∈ fragments
      · rw [if_pos hmem, List.filter_cons_of_neg (by simpa using hmem)]
      · rw [if_neg hmem, List.filter_cons_of_pos (by simpa using hmem)]
    · have hlt : m.toNat < i.toNat := by
        rw [UInt8.le_iff_toNat_le] at hle
        omega
      rw [if_neg hle, show m.toNat + 1 - i.toNat = 0 by omega]
      rfl

/-- **Below 255 the scan returns the missing numbers.** -/
theorem scanMissing_eq (fragments : KeyMap UInt8 Bytes) {m : UInt8} (hm : m ≠ 255) :
    scanMissing fragments m scanFuel 0 = some (missing fragments m) := by
  have h1 := m.toNat_lt
  rw [scanMissing_from fragments hm scanFuel 0 (Nat.zero_le _) (by
    rw [scanFuel, show (0 : UInt8).toNat = 0 from rfl]; omega)]
  rw [missing, List.range_eq_range', show (0 : UInt8).toNat = 0 from rfl, Nat.sub_zero]

/-! ## The retransmission request -/

/-- The scan of `checkMissingFragments` comes to an end. -/
def ScanEnds (s : Reassembly) : Prop :=
  ∃ fuel, scanMissing s.fragments s.expectedMaxSeq fuel 0 ≠ none

/-- `i` is a number of the current frame that is not held. -/
def Lacks (s : Reassembly) (i : UInt8) : Prop := i ≤ s.expectedMaxSeq ∧ i ∉ s.fragments

/-- The call returns, and with `sendControl_` set it sends a request exactly when a number is
lacking: one that names the current frame and lists the lacking numbers in increasing order. -/
def RequestExact (s : Reassembly) : Prop :=
  s.ScanEnds ∧ ∃ s' out, s.checkMissingFragments = some (s', out) ∧
    (s.sendControl = true →
      ((∃ json, UdpOutput.sendControl json ∈ out) ↔ ∃ i, s.Lacks i) ∧
      ((∃ i, s.Lacks i) → ∃ missing : List UInt8,
        out = [.sendControl (missingJson s.currentFrame missing)] ∧
          missing.Pairwise (· < ·) ∧ ∀ i, i ∈ missing ↔ s.Lacks i))

theorem mem_missing {fragments : KeyMap UInt8 Bytes} {m i : UInt8} :
    i ∈ missing fragments m ↔ i ≤ m ∧ i ∉ fragments := by
  simp only [missing, List.mem_filter, List.mem_map, List.mem_range, decide_eq_true_eq]
  refine and_congr_left fun _ => ⟨?_, fun h => ⟨i.toNat, ?_, UInt8.ofNat_toNat⟩⟩
  · rintro ⟨n, hn, rfl⟩
    have hm := m.toNat_lt
    rw [UInt8.le_iff_toNat_le, UInt8.toNat_ofNat_of_lt' (show n < 2 ^ 8 by omega)]
    exact Nat.le_of_lt_succ hn
  · exact Nat.lt_succ_of_le (UInt8.le_iff_toNat_le.mp h)

theorem pairwise_missing (fragments : KeyMap UInt8 Bytes) (m : UInt8) :
    (missing fragments m).Pairwise (· < ·) := by
  refine List.Pairwise.filter _ (List.pairwise_map.mpr ?_)
  refine List.pairwise_lt_range.imp_of_mem fun {i j} _ hj hij => ?_
  have hm := m.toNat_lt
  have hj' := List.mem_range.mp hj
  rw [UInt8.lt_iff_toNat_lt, UInt8.toNat_ofNat_of_lt' (show i < 2 ^ 8 by omega),
    UInt8.toNat_ofNat_of_lt' (show j < 2 ^ 8 by omega)]
  exact hij

theorem missing_ne_nil_iff (s : Reassembly) :
    missing s.fragments s.expectedMaxSeq ≠ [] ↔ ∃ i, s.Lacks i :=
  ⟨fun h => (List.exists_mem_of_ne_nil _ h).imp fun _ => mem_missing.mp,
    fun ⟨_, hi⟩ => List.ne_nil_of_mem (mem_missing.mpr hi)⟩

theorem not_scanEnds_of_full {s : Reassembly} (h : s.expectedMaxSeq = 255) : ¬ s.ScanEnds := by
  rintro ⟨fuel, hf⟩
  rw [h, scanMissing_of_full] at hf
  exact hf rfl

theorem checkMissingFragments_eq {s : Reassembly} (h : s.expectedMaxSeq ≠ 255) :
    s.checkMissingFragments =
      if missing s.fragments s.expectedMaxSeq ≠ [] ∧ s.sendControl then
        some ({ s with reassemblyTimer := s.reassemblyTimer.rearm s.currentFrame },
          [.sendControl (missingJson s.currentFrame (missing s.fragments s.expectedMaxSeq))])
      else some (s, []) := by
  rw [checkMissingFragments, scanMissing_eq _ h, Option.map_some]
  split_ifs <;> rfl

theorem requestExact_of_ne {s : Reassembly} (h : s.expectedMaxSeq ≠ 255) : s.RequestExact := by
  have hends : s.ScanEnds := ⟨scanFuel, by rw [scanMissing_eq _ h]; nofun⟩
  by_cases hm : missing s.fragments s.expectedMaxSeq ≠ [] ∧ s.sendControl
  · have hl := (missing_ne_nil_iff s).mp hm.1
    refine ⟨hends, _, _, (checkMissingFragments_eq h).trans (if_pos hm), fun _ => ⟨?_, fun _ => ?_⟩⟩
    · exact iff_of_true ⟨_, List.mem_singleton.mpr rfl⟩ hl
    · exact ⟨_, rfl, pairwise_missing _ _, fun _ => mem_missing⟩
  · refine ⟨hends, _, _, (checkMissingFragments_eq h).trans (if_neg hm), fun hs => ?_⟩
    have hl : ¬ ∃ i, s.Lacks i := fun hl => hm ⟨(missing_ne_nil_iff s).mpr hl, hs⟩
    exact ⟨iff_of_false (fun ⟨_, hj⟩ => List.not_mem_nil hj) hl, fun hl' => absurd hl' hl⟩

/-- **The request is exact and the scan ends** in just the states whose expected maximum is not
255. -/
theorem retransmission_exact_iff (s : Reassembly) : s.RequestExact ↔ s.expectedMaxSeq ≠ 255 :=
  ⟨fun h hfull => not_scanEnds_of_full hfull h.1, requestExact_of_ne⟩

/-- The first of 256 fragments is held and the scan for the others does not end. -/
theorem retransmission_exact_fails :
    ¬ ((init true true).handleImageFragment ⟨1, 0, 255, [7]⟩).1.RequestExact :=
  fun h => not_scanEnds_of_full (by decide +kernel) h.1

/-! ## The handler of a wait -/

/-- The handler of a wait armed for `frameNo` would not let it rest: it finds its frame current,
pieces held and a piece missing, or a maximum of 255 that it never gets past. -/
def Rearms (r : Reassembly) (frameNo : UInt8) : Prop :=
  r.currentFrame = frameNo ∧ r.fragments ≠ ∅ ∧
    (r.expectedMaxSeq = 255 ∨ missing r.fragments r.expectedMaxSeq ≠ [])

instance (r : Reassembly) (frameNo : UInt8) : Decidable (r.Rearms frameNo) :=
  inferInstanceAs (Decidable (_ ∧ _ ∧ (_ ∨ _)))

theorem onReassemblyWait_of_rests {r : Reassembly} {frameNo : UInt8} (h : ¬ r.Rearms frameNo) :
    r.onReassemblyWait frameNo = some (r, []) := by
  unfold onReassemblyWait
  split_ifs with hf
  · have hm : r.expectedMaxSeq ≠ 255 ∧ missing r.fragments r.expectedMaxSeq = [] := by
      by_contra hc
      refine h ⟨hf.1, hf.2, ?_⟩
      rw [not_and_or, not_not] at hc
      exact hc
    rw [checkMissingFragments, scanMissing_eq _ hm.1, hm.2]
    rfl
  · rfl

theorem onReassemblyWait_of_rearms {r : Reassembly} {frameNo : UInt8} (h : r.Rearms frameNo)
    (hs : r.sendControl = true) :
    r.onReassemblyWait frameNo = none ∨
      ∃ out, r.onReassemblyWait frameNo =
        some ({ r with reassemblyTimer := r.reassemblyTimer.rearm r.currentFrame }, out) := by
  obtain ⟨hf, hne, hm⟩ := h
  rw [onReassemblyWait, if_pos ⟨hf, hne⟩, checkMissingFragments]
  by_cases h255 : r.expectedMaxSeq = 255
  · rw [h255, scanMissing_of_full]
    exact Or.inl rfl
  · have hm' := hm.resolve_left h255
    rw [scanMissing_eq _ h255, Option.map_some, if_pos ⟨hm', hs⟩]
    exact Or.inr ⟨_, rfl⟩

/-- Only a maximum of 255 keeps the handler from returning. -/
theorem expectedMaxSeq_of_onReassemblyWait {r : Reassembly} {frameNo : UInt8}
    (h : r.onReassemblyWait frameNo = none) :
    r.Rearms frameNo ∧ r.expectedMaxSeq = 255 := by
  by_cases hre : r.Rearms frameNo
  · refine ⟨hre, ?_⟩
    by_contra hne
    rw [onReassemblyWait, if_pos ⟨hre.1, hre.2.1⟩, checkMissingFragments, scanMissing_eq _ hne] at h
    cases h
  · rw [onReassemblyWait_of_rests hre] at h
    cases h

end Reassembly

end Network

end AnoMap
