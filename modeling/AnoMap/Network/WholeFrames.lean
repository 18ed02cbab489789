import AnoMap.Network.TcpSession

/-!
# Whole frames on the TCP stream

The strand orders the handlers that start writes, not the writes. A frame stays whole when no call
that leads to a write is made before the writes of earlier calls are over.

* `Asks`: the event is a call of `sendMessage`, or a handler whose `handleTlsOutput` finds output.
* `Waits`: on an open socket such an event finds no write outstanding and none waiting on the strand.
* `OneWriter`: at most one write is outstanding or waiting. Every handler keeps it.
* **`frames_whole`**: a run whose events all wait keeps the frames whole.
-/

set_option autoImplicit false

namespace AnoMap

namespace Network

/-- The handler starts a write. -/
def Handler.isWriter : Handler → Bool
  | .sendMessage _ | .writeTls _ => true
  | .wrote _ | .read _ _ => false

namespace TcpSession

variable {σ : Type} (E : Ssl σ)

/-- **Whole frames.** One write is outstanding at most, what was started are frames, and what was
sent are these frames up to what is left of the last. -/
structure FramesWhole (s : TcpSession σ) : Prop where
  one : s.socket.writing.length ≤ 1
  frames : ∀ buf ∈ s.socket.started, ∃ type payload, buf = frame type payload
  sent : s.socket.sent <+: s.socket.started.flatten
  whole : s.socket.isOpen = true → s.socket.broken = false →
    s.socket.sent ++ s.socket.writing.flatten = s.socket.started.flatten

/-- The event is a call that leads to a write. -/
def Asks (s : TcpSession σ) : Event → Bool
  | .sendMessage _ => true
  | .run => s.strand.head?.any fun h => !(recordBytes (s.drained E h).2).isEmpty
  | _ => false

/-- No write is outstanding, and none waits on the strand. -/
def Idle (s : TcpSession σ) : Prop := s.strand.countP Handler.isWriter + s.socket.writing.length = 0

/-- A call that leads to a write finds the session idle, or closed. -/
def Waits (s : TcpSession σ) (e : Event) : Prop :=
  s.Asks E e = true → s.socket.isOpen = true → s.Idle

instance (s : TcpSession σ) (e : Event) : Decidable (s.Waits E e) :=
  inferInstanceAs (Decidable (_ → _ → _ = _))

/-- Every started write is a frame. -/
def OnlyFrames (k : StreamSocket) : Prop := ∀ buf ∈ k.started, ∃ type payload, buf = frame type payload

/-- **One writer.** -/
structure OneWriter (s : TcpSession σ) : Prop where
  serial : s.socket.Serial
  frames : OnlyFrames s.socket
  one : s.socket.isOpen = true → s.strand.countP Handler.isWriter + s.socket.writing.length ≤ 1

theorem OneWriter.framesWhole {s : TcpSession σ} (h : s.OneWriter) : s.FramesWhole :=
  ⟨h.serial.one, h.frames, h.serial.sent_prefix, h.serial.whole⟩

/-! ## What keeps one writer -/

theorem OneWriter.post {s : TcpSession σ} (h : s.OneWriter) {a : Handler}
    (ha : a.isWriter = true → s.socket.isOpen = true → s.Idle) : (s.post a).OneWriter where
  serial := h.serial
  frames := h.frames
  one := fun ho => by
    have h1 := h.one ho
    simp only [TcpSession.post, List.countP_append, List.countP_singleton]
    split_ifs with hw
    · have h0 : s.strand.countP Handler.isWriter + s.socket.writing.length = 0 := ha hw ho
      omega
    · omega

theorem OneWriter.tail {s : TcpSession σ} (h : s.OneWriter) {a : Handler} {as : List Handler}
    (hs : s.strand = a :: as) : OneWriter { s with strand := as } where
  serial := h.serial
  frames := h.frames
  one := fun ho => by
    have h1 := h.one ho
    rw [hs, List.countP_cons] at h1
    change as.countP Handler.isWriter + s.socket.writing.length ≤ 1
    omega

theorem OneWriter.idle_tail {s : TcpSession σ} (h : s.OneWriter) {a : Handler} {as : List Handler}
    (hs : s.strand = a :: as) (ha : a.isWriter = true) (ho : s.socket.isOpen = true) :
    Idle ({ s with strand := as } : TcpSession σ) := by
  have h1 := h.one ho
  rw [hs, List.countP_cons, if_pos ha] at h1
  change as.countP Handler.isWriter + s.socket.writing.length = 0
  omega

theorem OneWriter.asyncRead {s : TcpSession σ} (h : s.OneWriter) (op : ReadOp) :
    (s.asyncRead op).OneWriter := by
  unfold TcpSession.asyncRead
  split_ifs
  · exact ⟨h.serial, h.frames, h.one⟩
  · exact h.post fun ha => by cases ha

theorem OneWriter.close {s : TcpSession σ} (h : s.OneWriter) : s.close.OneWriter where
  serial := h.serial.close
  frames := h.frames
  one := fun ho => by cases ho

theorem OneWriter.handleDisconnect {s : TcpSession σ} (h : s.OneWriter) :
    s.handleDisconnect.1.OneWriter := by
  unfold TcpSession.handleDisconnect
  split_ifs
  · exact h
  · exact OneWriter.close (s := { s with disconnected := true }) ⟨h.serial, h.frames, h.one⟩

theorem OneWriter.asyncWrite {s : TcpSession σ} (h : s.OneWriter)
    (hi : s.socket.isOpen = true → s.Idle) (type : UInt8) (payload : Bytes) (rs : List Record) :
    (s.asyncWrite (frame type payload) rs).OneWriter := by
  unfold TcpSession.asyncWrite
  split_ifs with ho
  · have h0 : s.strand.countP Handler.isWriter + s.socket.writing.length = 0 := hi ho
    have hw : s.socket.writing = [] := List.length_eq_zero_iff.mp (by omega)
    refine ⟨h.serial.start ho hw _, fun buf hb => ?_, fun _ => ?_⟩
    · rcases List.mem_append.mp hb with hb | hb
      · exact h.frames buf hb
      · exact ⟨type, payload, List.mem_singleton.mp hb⟩
    · simp only [StreamSocket.start, hw, List.nil_append, List.length_singleton]
      omega
  · exact h.post fun ha => by cases ha

theorem OneWriter.setTls {s : TcpSession σ} (h : s.OneWriter) (tls : Option (TlsSession σ)) :
    (s.setTls tls).OneWriter := ⟨h.serial, h.frames, h.one⟩

theorem OneWriter.setMessage {s : TcpSession σ} (h : s.OneWriter) (type : UInt8) (length : UInt32)
    (payload : Bytes) : (s.setMessage type length payload).OneWriter :=
  ⟨h.serial, h.frames, h.one⟩

theorem OneWriter.handleTlsOutput {s : TcpSession σ} (h : s.OneWriter)
    (hi : (recordBytes (s.tlsOutput E).2).isEmpty = false → s.socket.isOpen = true → s.Idle) :
    (s.handleTlsOutput E).OneWriter := by
  unfold TcpSession.handleTlsOutput
  dsimp only
  split_ifs with he
  · exact h.setTls _
  · exact (h.setTls _).post fun _ ho => hi (Bool.eq_false_iff.mpr he) ho

theorem OneWriter.sendMessage {s : TcpSession σ} (h : s.OneWriter)
    (hi : s.socket.isOpen = true → s.Idle) (msg : Message) : (s.sendMessage E msg).OneWriter := by
  unfold TcpSession.sendMessage
  split
  · exact h.asyncWrite hi _ _ _
  · dsimp only
    split_ifs
    · apply OneWriter.asyncWrite (h.setTls _)
      exact hi
    · exact h.asyncWrite hi _ _ _

theorem OneWriter.dispatch {s : TcpSession σ} (h : s.OneWriter) : s.dispatch.1.OneWriter :=
  h.asyncRead _

theorem OneWriter.completeHandshake {s : TcpSession σ} (h : s.OneWriter) :
    (s.completeHandshake E).1.OneWriter := by
  unfold TcpSession.completeHandshake
  split_ifs
  · exact ⟨h.serial, h.frames, h.one⟩
  · exact h

theorem OneWriter.onHeader {s : TcpSession σ} (h : s.OneWriter) (data : Option Bytes)
    (hi : (recordBytes (s.drained E (.read .header data)).2).isEmpty = false →
      s.socket.isOpen = true → s.Idle) : (s.onHeader E data).1.OneWriter := by
  unfold TcpSession.onHeader
  split
  · exact h.handleDisconnect
  · dsimp only
    split_ifs with hl ht
    · exact (h.setMessage _ _ _).asyncRead _
    · apply OneWriter.asyncRead
      apply (h.setMessage _ _ _).handleTlsOutput E
      intro hr
      apply hi
      rw [drained, if_neg hl, if_pos ht.2]
      exact hr
    · exact (h.setMessage _ _ _).asyncRead _

theorem OneWriter.onBody {s : TcpSession σ} (h : s.OneWriter) (data : Option Bytes)
    (hi : (recordBytes (s.drained E (.read .body data)).2).isEmpty = false →
      s.socket.isOpen = true → s.Idle) : (s.onBody E data).1.OneWriter := by
  unfold TcpSession.onBody
  split
  · exact h.handleDisconnect
  · rename_i payload
    dsimp only
    split
    · exact (h.setMessage _ _ _).dispatch
    · rename_i t ht
      split_ifs with hl htype
      · have h1 := ((h.setTls _).setMessage _ _ _).handleTlsOutput E
          (s := s.decryptBody E t payload) fun hr => hi ?_
        · exact (h1.completeHandshake E).asyncRead _
        · simp only [drained, ht, if_pos hl]
          exact hr
      · have h1 := ((h.setTls _).setMessage _ _ _).handleTlsOutput E
          (s := s.decryptBody E t payload) fun hr => hi ?_
        · exact h1.dispatch
        · simp only [drained, ht, if_pos hl]
          exact hr
      · exact (h.setMessage _ _ _).dispatch

theorem length_writing_accept (k : StreamSocket) (i n : ℕ) :
    (k.accept i n).writing.length ≤ k.writing.length := by
  unfold StreamSocket.accept
  dsimp only
  split_ifs
  · exact List.length_eraseIdx_le _ _
  · exact Nat.le_of_eq List.length_set

theorem OneWriter.acceptBytes {s : TcpSession σ} (h : s.OneWriter) (i n : ℕ) :
    (s.acceptBytes i n).OneWriter := by
  by_cases ha : s.socket.CanAccept i n
  · have h1 : (s.setSocket (s.socket.accept i n)).OneWriter := by
      refine ⟨h.serial.accept ha, h.frames, fun ho => ?_⟩
      have hone := h.one ho
      have hle := length_writing_accept s.socket i n
      change s.strand.countP Handler.isWriter + (s.socket.accept i n).writing.length ≤ 1
      omega
    rw [TcpSession.acceptBytes, if_pos ha]
    dsimp only
    split_ifs
    · exact h1.post fun hw => by cases hw
    · exact h1
  · rw [TcpSession.acceptBytes, if_neg ha]
    exact h

theorem OneWriter.failWrite {s : TcpSession σ} (h : s.OneWriter) (i : ℕ) :
    (s.failWrite i).OneWriter := by
  unfold TcpSession.failWrite
  split_ifs
  · have h1 : (s.setSocket (s.socket.fail i)).OneWriter := by
      refine ⟨h.serial.fail i, h.frames, fun ho => ?_⟩
      have hone := h.one ho
      have hle := List.length_eraseIdx_le s.socket.writing i
      change s.strand.countP Handler.isWriter + (s.socket.writing.eraseIdx i).length ≤ 1
      omega
    exact h1.post fun hw => by cases hw
  · exact h

theorem OneWriter.endRead {s : TcpSession σ} (h : s.OneWriter) (data : Option Bytes) :
    (s.endRead data).OneWriter := by
  unfold TcpSession.endRead
  split
  · exact h
  · split_ifs
    · exact OneWriter.post (s := { s with reading := none }) ⟨h.serial, h.frames, h.one⟩
        fun ha => by cases ha
    · exact h

theorem OneWriter.run {s : TcpSession σ} (h : s.OneWriter) (hw : s.Waits E .run) :
    (s.run E).1.OneWriter := by
  unfold TcpSession.run
  split
  · exact h
  · rename_i a as hs
    have ht := h.tail hs
    -- taking the handler off the strand changes neither its output nor what it waits for
    have hi (hr : (recordBytes (s.drained E a).2).isEmpty = false) (ho : s.socket.isOpen = true) :
        Idle ({ s with strand := as } : TcpSession σ) := by
      have h0 : s.strand.countP Handler.isWriter + s.socket.writing.length = 0 := by
        refine hw ?_ ho
        unfold Asks
        rw [hs, List.head?_cons, Option.any_some, hr]
        rfl
      rw [hs, List.countP_cons] at h0
      change as.countP Handler.isWriter + s.socket.writing.length = 0
      omega
    cases a with
    | sendMessage msg => exact ht.sendMessage E (h.idle_tail hs rfl) msg
    | writeTls records => exact ht.asyncWrite (h.idle_tail hs rfl) _ _ _
    | wrote ok =>
      cases ok with
      | true => exact ht
      | false => exact ht.handleDisconnect
    | read op data =>
      cases op with
      | header => exact ht.onHeader E data fun hr => hi (by cases data <;> exact hr)
      | body => exact ht.onBody E data fun hr => hi (by cases data <;> exact hr)

/-- **One step keeps one writer** when a call that leads to a write waits. -/
theorem OneWriter.step {s : TcpSession σ} {e : Event} (hw : s.Waits E e) (h : s.OneWriter) :
    (s.step E e).1.OneWriter := by
  cases e with
  | sendMessage msg => exact h.post fun _ => hw rfl
  | close => exact h.close
  | run => exact h.run E hw
  | accept i n => exact h.acceptBytes i n
  | writeFails i => exact h.failWrite i
  | arrive bytes => exact h.endRead _
  | readFails => exact h.endRead _

theorem oneWriter_init (tls : Option (TlsSession σ)) : (init E tls).OneWriter := by
  have hn : (new tls).OneWriter :=
    ⟨.connected, fun buf hb => absurd hb List.not_mem_nil, fun _ => Nat.zero_le _⟩
  unfold init start
  split_ifs
  · exact OneWriter.asyncRead (hn.handleTlsOutput E fun _ _ => rfl) _
  · exact hn.asyncRead _

/-- **Frames stay whole** in every state of a run in which every call that leads to a write waits
for the earlier writes. -/
theorem frames_whole (tls : Option (TlsSession σ)) (es : List Event)
    (h : Machine.Along (step E) (Waits E) (init E tls) es) :
    ∀ pre, pre <+: es → (Machine.final (step E) (init E tls) pre).FramesWhole := by
  intro pre hp
  refine OneWriter.framesWhole ?_
  exact Machine.invariant_along (step E) (oneWriter_init E tls)
    (fun s e hw hs => OneWriter.step E hw hs) h pre hp

/-- A message sent after the handshake, in two chunks. -/
theorem frames_whole_sample :
    Machine.Along (step sampleSsl) (Waits sampleSsl) sampleInit (sampleHandshake ++
      [.sendMessage ⟨0x04, 1, [7]⟩, .run, .accept 0 3, .accept 0 8, .run]) ∧
    (Machine.final (step sampleSsl) sampleInit (sampleHandshake ++
      [.sendMessage ⟨0x04, 1, [7]⟩, .run, .accept 0 3, .accept 0 8, .run])).FramesWhole := by
  have h : Machine.Along (step sampleSsl) (Waits sampleSsl) sampleInit (sampleHandshake ++
      [.sendMessage ⟨0x04, 1, [7]⟩, .run, .accept 0 3, .accept 0 8, .run]) := by decide +kernel
  exact ⟨h, frames_whole sampleSsl _ _ h _ List.prefix_rfl⟩

/-- Two messages sent together after the handshake: the socket takes a byte of each. -/
theorem frames_whole_fails :
    ¬ (Machine.final (step sampleSsl) sampleInit (sampleHandshake ++
      [.sendMessage ⟨0x04, 1, [7]⟩, .sendMessage ⟨0x04, 1, [8]⟩, .run, .run, .accept 0 1,
        .accept 1 1])).FramesWhole :=
  fun h => absurd h.sent (by decide +kernel)

end TcpSession

end Network

end AnoMap
