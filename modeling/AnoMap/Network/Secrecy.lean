import AnoMap.Network.NetworkService
import AnoMap.Network.RoundTrip

/-!
# Secrecy of the messages

What `send` hands to the connection leaves in clear when there is no TLS object, and as an empty
frame when `encrypt` gives up.

* `Sent`: a message whose handler ran on an open socket, the TLS session it found and the frame it
  started; `sentLog`: those of a run. Every other frame carries the handshake (`mem_started`).
* `Sent.Sealed`: the frame is the encryption of the whole body.
* `Seals`: a message with a body finds the handshake done, and `SSL_write` can take it whole.
* `Kept`: the lengths of waiting messages are those of their bodies, and no engine output waits.
* **`credentials_sealed_iff`**: the messages of a run are sealed exactly when all its steps meet
  `Seals`.
* **`handshake_done`**: with a TLS object whose finished handshake stays finished, and `connected_`
  not left over, every message finds the handshake done.
-/

set_option autoImplicit false

namespace AnoMap

namespace Network

/-! ## The engine -/

/-- **`SSL_write` after the handshake** takes a body whose length is an `int` and produces records,
less than 4 GiB of them. -/
def Ssl.Writes {σ : Type} (E : Ssl σ) : Prop :=
  ∀ c body, E.isInitFinished c = true → body ≠ [] → body.length < 2 ^ 31 →
    (E.write c body).1 = true ∧ (E.write c body).2.2 ≠ [] ∧
      ((E.write c body).2.2.flatMap TlsRecord.bytes).length < 2 ^ 32

theorem recordBytes_numbered (n : ℕ) (rs : List TlsRecord) :
    recordBytes (numbered n rs) = rs.flatMap TlsRecord.bytes := by
  induction rs generalizing n with
  | nil => rfl
  | cons r rs ih => exact congrArg (r.bytes ++ ·) (ih (n + 1))

namespace TlsSession

variable {σ : Type} (E : Ssl σ) {t : TlsSession σ}

/-- The bytes of one successful `SSL_write` of the whole body, whose length is an `int`. -/
def Encrypts (t : TlsSession σ) (body bytes : Bytes) : Prop :=
  ∃ c, t.ssl = some c ∧ body.length < 2 ^ 31 ∧ (E.write c body).1 = true ∧
    (E.write c body).2.2 ≠ [] ∧ bytes = (E.write c body).2.2.flatMap TlsRecord.bytes

/-- No engine output waits. -/
def Flushed (t : TlsSession σ) : Prop := ∀ c, t.ssl = some c → t.writeBio = []

theorem flushed_handshake (t : TlsSession σ) : (t.handshake E).1.Flushed := by
  unfold handshake
  split
  · next hs =>
    intro c hc
    rw [hs] at hc
    cases hc
  · exact fun _ _ => rfl

theorem encrypt_of_done (hE : E.Writes) (hf : t.Flushed) (hd : t.isHandshakeDone E = true)
    {body : Bytes} (hb : body ≠ []) (hl : body.length < 2 ^ 31) :
    (t.encrypt E body (UInt32.ofNat body.length)).1.Flushed ∧
      t.Encrypts E body (recordBytes (t.encrypt E body (UInt32.ofNat body.length)).2) := by
  obtain ⟨c, hc, hi⟩ : ∃ c, t.ssl = some c ∧ E.isInitFinished c = true := by
    cases hs : t.ssl with
    | none => rw [isHandshakeDone, hs] at hd; cases hd
    | some c => exact ⟨c, rfl, by simpa [isHandshakeDone, hs] using hd⟩
  obtain ⟨hw, hr, -⟩ := hE c body hi hb hl
  have hfit : fitsInt (UInt32.ofNat body.length) = true := by
    rw [fitsInt, UInt32.toNat_ofNat', Nat.mod_eq_of_lt (by omega)]
    exact decide_eq_true hl
  simp only [encrypt, hc, hi, hfit, Bool.and_self, if_true, hw, flushWriteBio, produce, hf c hc,
    List.nil_append]
  exact ⟨fun _ _ => rfl, c, hc, hl, hw, hr, recordBytes_numbered _ _⟩

theorem encrypt_of_not_done (hd : t.isHandshakeDone E = false) (body : Bytes) (len : UInt32) :
    t.encrypt E body len = (t, []) := by
  unfold encrypt
  cases hs : t.ssl with
  | none => rfl
  | some c =>
    have hi : E.isInitFinished c = false := by simpa [isHandshakeDone, hs] using hd
    simp only [hi, Bool.false_and, Bool.false_eq_true, if_false]

theorem encrypt_of_not_fits {len : UInt32} (hl : ¬ len.toNat < 2 ^ 31) (body : Bytes) :
    t.encrypt E body len = (t, []) := by
  unfold encrypt
  cases hs : t.ssl with
  | none => rfl
  | some c => simp only [fitsInt, hl, decide_false, Bool.and_false, Bool.false_eq_true, if_false]

theorem Flushed.encrypt (h : t.Flushed) (hE : E.Writes) {body : Bytes} (hb : body ≠ [])
    (hl : body.length < 2 ^ 32) : (t.encrypt E body (UInt32.ofNat body.length)).1.Flushed := by
  have hn : (UInt32.ofNat body.length).toNat = body.length := by
    rw [UInt32.toNat_ofNat', Nat.mod_eq_of_lt hl]
  cases hd : t.isHandshakeDone E with
  | false => rw [encrypt_of_not_done E hd]; exact h
  | true =>
    by_cases hi : body.length < 2 ^ 31
    · exact (encrypt_of_done E hE h hd hb hi).1
    · rw [encrypt_of_not_fits E (by rwa [hn])]
      exact h

end TlsSession

/-! ## The frames a handler starts -/

/-- The length is that of the body. -/
def Message.Measured (m : Message) : Prop := m.length = UInt32.ofNat m.payload.length

namespace TcpSession

variable {σ : Type} (E : Ssl σ) {s : TcpSession σ}

/-- The frames of a handler. -/
def starts (s : TcpSession σ) : Handler → List Bytes
  | .sendMessage msg =>
    if s.socket.isOpen then [frame msg.type (finalPayload E s.tlsSession msg).2] else []
  | .writeTls records =>
    if s.socket.isOpen then [frame MessageType.tlsHandshake.code (recordBytes records)] else []
  | .wrote _ | .read _ _ => []

@[simp] theorem started_post (a : Handler) : (s.post a).socket.started = s.socket.started := rfl

@[simp] theorem started_setTls (tls : Option (TlsSession σ)) :
    (s.setTls tls).socket.started = s.socket.started := rfl

@[simp] theorem started_setMessage (type : UInt8) (length : UInt32) (payload : Bytes) :
    (s.setMessage type length payload).socket.started = s.socket.started := rfl

@[simp] theorem started_asyncRead (op : ReadOp) :
    (s.asyncRead op).socket.started = s.socket.started := by
  unfold asyncRead
  split_ifs <;> rfl

@[simp] theorem started_handleDisconnect :
    s.handleDisconnect.1.socket.started = s.socket.started := by
  unfold handleDisconnect
  split_ifs <;> rfl

@[simp] theorem started_handleTlsOutput :
    (s.handleTlsOutput E).socket.started = s.socket.started := by
  unfold handleTlsOutput
  dsimp only
  split_ifs <;> rfl

@[simp] theorem started_completeHandshake :
    (s.completeHandshake E).1.socket.started = s.socket.started := by
  unfold completeHandshake
  split_ifs <;> rfl

theorem started_asyncWrite (buf : Bytes) (rs : List Record) :
    (s.asyncWrite buf rs).socket.started =
      s.socket.started ++ if s.socket.isOpen then [buf] else [] := by
  unfold asyncWrite
  split_ifs
  · rfl
  · exact (List.append_nil _).symm

theorem started_runHandler (h : Handler) :
    (runHandler E s h).1.socket.started = s.socket.started ++ s.starts E h := by
  cases h with
  | sendMessage msg =>
    obtain ⟨rs, h⟩ := s.sendMessage_eq E msg
    rw [runHandler, h, started_asyncWrite]
    rfl
  | writeTls records => exact started_asyncWrite _ _
  | wrote ok =>
    simp only [starts, List.append_nil, runHandler, onWritten]
    split_ifs
    · rfl
    · exact started_handleDisconnect
  | read op data =>
    simp only [starts, List.append_nil]
    cases op with
    | header =>
      simp only [runHandler, onHeader]
      split
      · exact started_handleDisconnect
      · split_ifs <;> simp [readBody, readHeader]
    | body =>
      simp only [runHandler, onBody]
      split
      · exact started_handleDisconnect
      · split
        · simp [dispatch, readHeader]
        · split_ifs <;> simp [dispatch, readHeader, decryptBody]

theorem started_endRead (data : Option Bytes) :
    (s.endRead data).socket.started = s.socket.started := by
  unfold endRead
  split
  · rfl
  · split_ifs <;> rfl

theorem started_step {e : Event} (he : e ≠ .run) :
    (step E s e).1.socket.started = s.socket.started := by
  cases e with
  | sendMessage msg | close => rfl
  | run => exact absurd rfl he
  | accept i n =>
    simp only [step, acceptBytes]
    split_ifs <;> rfl
  | writeFails i =>
    simp only [step, failWrite]
    split_ifs <;> rfl
  | arrive bytes => exact started_endRead _
  | readFails => exact started_endRead _

/-! ## What waits on the strand and in the engine -/

/-- Every message that waits on the strand satisfies `P`. -/
def Waiting (P : Message → Prop) (s : TcpSession σ) : Prop :=
  ∀ msg, Handler.sendMessage msg ∈ s.strand → P msg

variable {P : Message → Prop}

theorem Waiting.post (h : s.Waiting P) {a : Handler}
    (ha : ∀ msg, a = .sendMessage msg → P msg) :
    (s.post a).Waiting P := by
  intro msg hm
  rcases List.mem_append.mp hm with hm | hm
  · exact h msg hm
  · exact ha msg (List.mem_singleton.mp hm).symm

theorem Waiting.setTls (h : s.Waiting P) (tls : Option (TlsSession σ)) : (s.setTls tls).Waiting P := h

theorem Waiting.setMessage (h : s.Waiting P) (type : UInt8) (length : UInt32) (payload : Bytes) :
    (s.setMessage type length payload).Waiting P := h

theorem Waiting.asyncRead (h : s.Waiting P) (op : ReadOp) : (s.asyncRead op).Waiting P := by
  unfold TcpSession.asyncRead
  split_ifs
  · exact h
  · exact h.post nofun

theorem Waiting.asyncWrite (h : s.Waiting P) (buf : Bytes) (rs : List Record) :
    (s.asyncWrite buf rs).Waiting P := by
  unfold TcpSession.asyncWrite
  split_ifs
  · exact h
  · exact h.post nofun

theorem Waiting.close (h : s.Waiting P) : s.close.Waiting P := by
  intro msg hm
  rcases List.mem_append.mp hm with hm | hm
  · exact h msg hm
  · rcases List.mem_append.mp hm with hm | hm <;> obtain ⟨x, -, hx⟩ := List.mem_map.mp hm <;> cases hx

theorem Waiting.handleDisconnect (h : s.Waiting P) : s.handleDisconnect.1.Waiting P := by
  unfold TcpSession.handleDisconnect
  split_ifs
  · exact h
  · exact Waiting.close (s := { s with disconnected := true }) h

theorem Waiting.handleTlsOutput (h : s.Waiting P) : (s.handleTlsOutput E).Waiting P := by
  unfold TcpSession.handleTlsOutput
  dsimp only
  split_ifs
  · exact h
  · exact (h.setTls _).post nofun

theorem Waiting.decryptBody (h : s.Waiting P) (t : TlsSession σ) (payload : Bytes) :
    (s.decryptBody E t payload).Waiting P := h

theorem Waiting.completeHandshake (h : s.Waiting P) : (s.completeHandshake E).1.Waiting P := by
  unfold TcpSession.completeHandshake
  split_ifs <;> exact h

theorem Waiting.runHandler (h : s.Waiting P) (a : Handler) : (runHandler E s a).1.Waiting P := by
  cases a with
  | sendMessage msg =>
    obtain ⟨rs, hs⟩ := s.sendMessage_eq E msg
    rw [TcpSession.runHandler, hs]
    exact (h.setTls _).asyncWrite _ _
  | writeTls records => exact h.asyncWrite _ _
  | wrote ok =>
    simp only [TcpSession.runHandler, onWritten]
    split_ifs
    · exact h
    · exact h.handleDisconnect
  | read op data =>
    cases op with
    | header =>
      simp only [TcpSession.runHandler, onHeader]
      split
      · exact h.handleDisconnect
      · split_ifs
        · exact (h.setMessage _ _ _).asyncRead _
        · exact ((h.setMessage _ _ _).handleTlsOutput E).asyncRead _
        · exact (h.setMessage _ _ _).asyncRead _
    | body =>
      simp only [TcpSession.runHandler, onBody]
      split
      · exact h.handleDisconnect
      · split
        · exact (h.setMessage _ _ _).asyncRead _
        · split_ifs
          · exact (((h.decryptBody E _ _).handleTlsOutput E).completeHandshake E).asyncRead _
          · exact ((h.decryptBody E _ _).handleTlsOutput E).asyncRead _
          · exact (h.setMessage _ _ _).asyncRead _

/-- No engine output waits between two handlers. -/
def Flushed (s : TcpSession σ) : Prop := ∀ t ∈ s.tlsSession, t.Flushed

theorem tlsSession_asyncRead (op : ReadOp) : (s.asyncRead op).tlsSession = s.tlsSession := by
  unfold asyncRead
  split_ifs <;> rfl

theorem tlsSession_asyncWrite (buf : Bytes) (rs : List Record) :
    (s.asyncWrite buf rs).tlsSession = s.tlsSession := by
  unfold asyncWrite
  split_ifs <;> rfl

theorem tlsSession_handleDisconnect : s.handleDisconnect.1.tlsSession = s.tlsSession := by
  unfold handleDisconnect
  split_ifs <;> rfl

theorem tlsSession_completeHandshake : (s.completeHandshake E).1.tlsSession = s.tlsSession := by
  unfold completeHandshake
  split_ifs <;> rfl

theorem tlsSession_handleTlsOutput : (s.handleTlsOutput E).tlsSession = (s.tlsOutput E).1 := by
  unfold handleTlsOutput
  dsimp only
  split_ifs <;> rfl

theorem flushed_handleTlsOutput (s : TcpSession σ) : (s.handleTlsOutput E).Flushed := by
  unfold Flushed
  rw [tlsSession_handleTlsOutput]
  unfold tlsOutput
  split
  · exact nofun
  · rintro _ ⟨⟩
    exact TlsSession.flushed_handshake E _

theorem Flushed.of_eq {s₁ : TcpSession σ} (h : s.Flushed) (he : s₁.tlsSession = s.tlsSession) :
    s₁.Flushed := by
  unfold Flushed
  rw [he]
  exact h

theorem take_body {msg : Message} (hm : msg.Measured) (h0 : 0 < msg.length) : msg.payload.take msg.length.toNat ≠ [] ∧
      (msg.payload.take msg.length.toNat).length = msg.length.toNat := by
  have hn : msg.length.toNat = msg.payload.length % 2 ^ 32 := by rw [hm, UInt32.toNat_ofNat']
  have hl : (msg.payload.take msg.length.toNat).length = msg.length.toNat := by
    rw [List.length_take, hn]
    exact Nat.min_eq_left (Nat.mod_le _ _)
  refine ⟨fun he => ?_, hl⟩
  rw [he] at hl
  exact absurd h0 (by rw [UInt32.lt_iff_toNat_lt, ← hl]; exact Nat.lt_irrefl 0)

theorem Flushed.runHandler (h : s.Flushed) (hE : E.Writes) {a : Handler}
    (ha : ∀ msg, a = .sendMessage msg → msg.Measured) : (runHandler E s a).1.Flushed := by
  cases a with
  | sendMessage msg =>
    obtain ⟨rs, hs⟩ := s.sendMessage_eq E msg
    rw [TcpSession.runHandler, hs]
    unfold Flushed
    rw [tlsSession_asyncWrite]
    change ∀ t ∈ (finalPayload E s.tlsSession msg).1, t.Flushed
    unfold finalPayload
    split
    · rintro _ ⟨⟩
    · next t ht =>
      split_ifs with h0
      · obtain ⟨hb, hl⟩ := take_body (ha msg rfl) h0
        rintro _ ⟨⟩
        have := (h t ht).encrypt E hE hb (by rw [hl]; exact msg.length.toNat_lt)
        rwa [hl, UInt32.ofNat_toNat] at this
      · rintro _ ⟨⟩
        exact h t ht
  | writeTls records => exact h.of_eq (tlsSession_asyncWrite _ _)
  | wrote ok =>
    simp only [TcpSession.runHandler, onWritten]
    split_ifs
    · exact h
    · exact h.of_eq tlsSession_handleDisconnect
  | read op data =>
    cases op with
    | header =>
      simp only [TcpSession.runHandler, onHeader]
      split
      · exact h.of_eq tlsSession_handleDisconnect
      · split_ifs
        · exact h.of_eq (tlsSession_asyncRead (s := s.setMessage _ _ _) _)
        · exact (flushed_handleTlsOutput E _).of_eq (tlsSession_asyncRead _)
        · exact h.of_eq (tlsSession_asyncRead (s := s.setMessage _ _ _) _)
    | body =>
      simp only [TcpSession.runHandler, onBody]
      split
      · exact h.of_eq tlsSession_handleDisconnect
      · split
        · exact h.of_eq (tlsSession_asyncRead (s := s.setMessage _ _ _) _)
        · split_ifs
          · exact (flushed_handleTlsOutput E _).of_eq
              ((tlsSession_asyncRead _).trans (tlsSession_completeHandshake E))
          · exact (flushed_handleTlsOutput E _).of_eq (tlsSession_asyncRead _)
          · exact h.of_eq (tlsSession_asyncRead (s := s.setMessage _ _ _) _)

/-- The frame is the encryption of the whole body, made by the TLS session `tls`. -/
def SealedBy (tls : Option (TlsSession σ)) (msg : Message) (buf : Bytes) : Prop :=
  ∃ t bytes, tls = some t ∧ t.Encrypts E msg.payload bytes ∧
    buf = msg.type :: lengthBytes (UInt32.ofNat bytes.length) ++ bytes

/-- **One message**: its frame is sealed exactly when the handshake is done and an `int` holds the
length of its body. -/
theorem sealedBy_iff (hE : E.Writes) (hf : s.Flushed) {msg : Message}
    (hm : msg.Measured) (hp : msg.payload ≠ []) :
    SealedBy E s.tlsSession msg (frame msg.type (finalPayload E s.tlsSession msg).2) ↔
      s.tlsSession.any (·.isHandshakeDone E) = true ∧ msg.payload.length < 2 ^ 31 := by
  constructor
  · rintro ⟨t, bytes, ht, ⟨c, hc, hl, -, hr, hbytes⟩, hbuf⟩
    refine ⟨?_, hl⟩
    by_contra hd
    rw [ht, Option.any_some, Bool.not_eq_true] at hd
    have h0 : 0 < msg.length := by
      rw [hm]
      exact (length_pos_iff (Nat.lt_trans hl (by decide))).mpr hp
    -- `encrypt` gives up and the frame is empty
    have := congrArg List.length hbuf
    simp only [ht, finalPayload, h0, if_true, TlsSession.encrypt_of_not_done E hd, recordBytes,
      List.flatMap_nil, frame_of_lt msg.type (show ([] : Bytes).length < 2 ^ 32 by decide),
      List.length_append, List.length_cons, lengthBytes, List.length_nil] at this
    rw [List.length_eq_zero_iff.mp (show bytes.length = 0 by omega)] at hbytes
    obtain ⟨r, hr'⟩ := List.exists_mem_of_ne_nil _ hr
    have := List.flatMap_eq_nil_iff.mp hbytes.symm r hr'
    exact List.cons_ne_nil _ _ this
  · rintro ⟨hd, hl⟩
    cases ht : s.tlsSession with
    | none => rw [ht] at hd; cases hd
    | some t =>
      rw [ht, Option.any_some] at hd
      have h0 : 0 < msg.length := by
        rw [hm]
        exact (length_pos_iff (Nat.lt_trans hl (by decide))).mpr hp
      have hn : msg.length.toNat = msg.payload.length := by
        rw [hm, UInt32.toNat_ofNat', Nat.mod_eq_of_lt (by omega)]
      obtain ⟨-, henc⟩ := TlsSession.encrypt_of_done E hE (hf t ht) hd hp hl
      refine ⟨t, _, rfl, henc, ?_⟩
      have hlt : (recordBytes (t.encrypt E msg.payload (UInt32.ofNat msg.payload.length)).2).length
          < 2 ^ 32 := by
        obtain ⟨c, hc, -, -, -, hbytes⟩ := henc
        have hi : E.isInitFinished c = true := by simpa [TlsSession.isHandshakeDone, hc] using hd
        rw [hbytes]
        exact (hE c msg.payload hi hp hl).2.2
      simp only [finalPayload, h0, if_true]
      rw [List.take_of_length_le (Nat.le_of_eq hn.symm), hm, frame_of_lt msg.type hlt]

theorem Flushed.step (h : s.Flushed) (hm : s.Waiting Message.Measured)
    (hE : E.Writes) (e : Event) :
    (step E s e).1.Flushed := by
  cases e with
  | sendMessage msg | close => exact h
  | run =>
    simp only [TcpSession.step, run]
    split
    · exact h
    · next a as hs =>
      refine Flushed.runHandler E (s := { s with strand := as }) h hE fun msg ha => hm msg ?_
      rw [hs, ha]
      exact List.mem_cons_self
  | accept i n =>
    simp only [TcpSession.step, acceptBytes]
    split_ifs <;> exact h
  | writeFails i =>
    simp only [TcpSession.step, failWrite]
    split_ifs <;> exact h
  | arrive bytes =>
    simp only [TcpSession.step, endRead]
    split
    · exact h
    · split_ifs <;> exact h
  | readFails =>
    simp only [TcpSession.step, endRead]
    split
    · exact h
    · split_ifs <;> exact h

theorem Waiting.endRead (h : s.Waiting P) (data : Option Bytes) : (s.endRead data).Waiting P := by
  unfold TcpSession.endRead
  split
  · exact h
  · split_ifs
    · exact Waiting.post (s := { s with reading := none }) h nofun
    · exact h

theorem Waiting.step (h : s.Waiting P) {e : Event}
    (he : ∀ msg, e = .sendMessage msg → P msg) :
    (step E s e).1.Waiting P := by
  cases e with
  | sendMessage msg =>
    refine h.post ?_
    rintro _ ⟨⟩
    exact he msg rfl
  | close => exact h.close
  | run =>
    simp only [TcpSession.step, run]
    split
    · exact h
    · next a as hs =>
      refine Waiting.runHandler E (s := { s with strand := as }) (fun msg hm => h msg ?_) a
      rw [hs]
      exact List.mem_cons_of_mem a hm
  | accept i n =>
    simp only [TcpSession.step, acceptBytes]
    split_ifs
    · exact Waiting.post (s := s.setSocket _) h (by rintro _ ⟨⟩)
    · exact h
    · exact h
  | writeFails i =>
    simp only [TcpSession.step, failWrite]
    split_ifs
    · exact Waiting.post (s := s.setSocket _) h (by rintro _ ⟨⟩)
    · exact h
  | arrive bytes => exact h.endRead _
  | readFails => exact h.endRead _

end TcpSession

/-! ## The messages of a run -/

/-- A message whose handler ran, the TLS session it found and a frame it started. -/
structure Sent (σ : Type) where
  tls : Option (TlsSession σ)
  msg : Message
  frame : Bytes
  deriving DecidableEq, Repr

/-- **Sealed**: the frame is the encryption of the whole body. -/
def Sent.Sealed {σ : Type} (E : Ssl σ) (w : Sent σ) : Prop :=
  TcpSession.SealedBy E w.tls w.msg w.frame

namespace NetworkService

variable {σ δ : Type} (E : Env σ δ)

/-- The frames started on the connection. -/
def started (s : NetworkService σ δ) : List Bytes := s.tcp.elim [] (·.socket.started)

/-- The message that the event sends on an open socket, with the session. -/
def sending (s : NetworkService σ δ) (e : Event) : Option (TcpSession σ × Message) :=
  match e, s.tcp with
  | .ready .tcp, some t =>
    match t.strand with
    | .sendMessage msg :: _ => if !s.halted && t.socket.isOpen then some (t, msg) else none
    | _ => none
  | _, _ => none

/-- What the event sends: its message with every frame it starts. -/
def sentBy (s : NetworkService σ δ) (e : Event) : List (Sent σ) :=
  (s.sending e).toList.flatMap fun x =>
    ((step E s e).1.started.drop s.started.length).map fun buf => ⟨x.1.tlsSession, x.2, buf⟩

/-- The step with what it sends. -/
def sendStep (s : NetworkService σ δ) (e : Event) : NetworkService σ δ × List (Sent σ) :=
  ((step E s e).1, s.sentBy E e)

/-- Everything a run sends. -/
def sentLog (connected resolves : Bool) (es : List Event) : List (Sent σ) :=
  (Machine.trace (sendStep E) (init connected resolves) es).flatMap Prod.snd

/-- Every message of the run that has a body, those of the handshake apart, is sealed. -/
def AllSealed (connected resolves : Bool) (es : List Event) : Prop :=
  ∀ w ∈ sentLog E connected resolves es, w.msg.type ≠ MessageType.tlsHandshake.code →
    w.msg.payload ≠ [] → w.Sealed E.ssl

/-- **The condition.** A message with a body finds a TLS session whose handshake is done, and an
`int` holds the length of the body. -/
def Seals (s : NetworkService σ δ) (e : Event) : Prop :=
  ∀ x ∈ s.sending e, x.2.type ≠ MessageType.tlsHandshake.code → x.2.payload ≠ [] →
    x.1.tlsSession.any (·.isHandshakeDone E.ssl) = true ∧ x.2.payload.length < 2 ^ 31

instance (s : NetworkService σ δ) (e : Event) : Decidable (s.Seals E e) :=
  inferInstanceAs (Decidable (∀ _ ∈ _, _))

/-- What holds of the connection between two handlers. -/
def Kept (s : NetworkService σ δ) : Prop := ∀ t ∈ s.tcp, t.Waiting Message.Measured ∧ t.Flushed

variable {E} {s : NetworkService σ δ}

/-! ## What a step does to the connection -/

theorem tcp_process (msg : Message) : (s.process E msg).1.tcp = s.tcp := by
  unfold process
  split <;> rfl

theorem tcp_onImageMeta (json : Bytes) : (s.onImageMeta E json).1.tcp = s.tcp := by
  have ho : (s.openUdp E).tcp = s.tcp := by
    unfold openUdp
    split <;> rfl
  have hr : ((s.openUdp E).replyPort json).tcp = (s.openUdp E).tcp := by
    unfold replyPort
    split <;> rfl
  exact hr.trans ho

theorem tcp_runReceive (i : ℕ) : (s.runReceive E i).1.tcp = s.tcp := by
  unfold runReceive
  split
  · rfl
  · split <;> rfl

theorem tcp_runWait (i : ℕ) : (s.runWait i).1.tcp = s.tcp := by
  unfold runWait
  split
  · rfl
  · split
    · rfl
    · split <;> rfl

theorem tcp_endReceive (i : ℕ) (r : Option Datagram) : (s.endReceive i r).tcp = s.tcp := by
  unfold endReceive
  split
  · rfl
  · split_ifs <;> rfl

theorem tcp_expireWait (i : ℕ) : (s.expireWait i).tcp = s.tcp := by
  unfold expireWait
  split <;> rfl

/-- The connection goes through the event `ev` of its own; a message has the length of its body and
comes from a service that is connected. -/
def Moves (E : Env σ δ) (s : NetworkService σ δ) (e : Event) (tcp : Option (TcpSession σ)) : Prop :=
  ∃ t ev, s.tcp = some t ∧ tcp = some (t.step E.ssl ev).1 ∧
    (∀ msg, ev = .sendMessage msg →
      s.connected = true ∧ msg.Measured) ∧
    (ev = .run → e = .ready .tcp ∧ s.halted = false)

theorem tcp_runTask (t : Task) :
    (s.runTask E t).1.tcp = s.tcp ∨ Moves E s (.ready .task) (s.runTask E t).1.tcp := by
  cases t with
  | connect resolves => cases resolves <;> exact Or.inl rfl
  | connected | lost => exact Or.inl rfl
  | process msg => exact Or.inl (tcp_process msg)
  | imageMeta json => exact Or.inl (tcp_onImageMeta json)
  | send type body =>
    simp only [runTask, sendTask]
    split_ifs with hc
    · cases ht : s.tcp with
      | none => exact Or.inl rfl
      | some t =>
        refine Or.inr ⟨t, .sendMessage _, ht, rfl, ?_, nofun⟩
        rintro _ ⟨⟩
        exact ⟨hc.2, rfl⟩
    · exact Or.inl rfl
  | cleanup =>
    simp only [runTask, NetworkService.cleanup]
    split_ifs
    · cases ht : s.tcp with
      | none => exact Or.inl rfl
      | some t => exact Or.inr ⟨t, .close, ht, rfl, fun _ => nofun, nofun⟩
    · exact Or.inl rfl

/-- **What a step does to the connection**: nothing, an event of its own, or a new start. -/
theorem step_tcp (e : Event) : (step E s e).1.tcp = s.tcp ∨ Moves E s e (step E s e).1.tcp ∨
    (step E s e).1.tcp = some ((TcpSession.new E.newTls).start E.ssl).1 := by
  unfold step
  split_ifs with hh
  · exact Or.inl rfl
  cases e with
  | send type body | disconnect => exact Or.inl rfl
  | connectEnds ok =>
    left
    simp only [act]
    split_ifs <;> rfl
  | datagram i r => exact Or.inl (tcp_endReceive i r)
  | expire i => exact Or.inl (tcp_expireWait i)
  | socket e =>
    simp only [act]
    cases ht : s.tcp with
    | none => exact Or.inl ht
    | some t =>
      refine Or.inr (Or.inl ⟨t, e.toEvent, ht, rfl, ?_, ?_⟩)
      · cases e <;> exact fun _ => nofun
      · cases e <;> exact nofun
  | ready h =>
    simp only [act]
    cases h with
    | receive i => exact Or.inl (tcp_runReceive i)
    | wait i => exact Or.inl (tcp_runWait i)
    | tcp =>
      simp only [runReady]
      cases ht : s.tcp with
      | none => exact Or.inl ht
      | some t =>
        exact Or.inr (Or.inl ⟨t, .run, ht, rfl, fun _ => nofun,
          fun _ => ⟨rfl, Bool.eq_false_iff.mpr hh⟩⟩)
    | connect =>
      simp only [runReady]
      cases s.connectDone with
      | none => exact Or.inl rfl
      | some ok =>
        cases ok
        · exact Or.inl rfl
        · exact Or.inr (Or.inr rfl)
    | task =>
      simp only [runReady]
      cases s.strand with
      | nil => exact Or.inl rfl
      | cons t ts =>
        rcases tcp_runTask (E := E) (s := { s with strand := ts }) t with h | ⟨t', ev, ht, heq, h⟩
        · exact Or.inl h
        · refine Or.inr (Or.inl ⟨t', ev, ht, heq, h.1, fun hrun => ?_⟩)
          cases (h.2 hrun).1

theorem kept_start (tls : Option (TlsSession σ)) (E : Ssl σ) :
    ((TcpSession.new tls).start E).1.Waiting (fun _ => False) ∧
      ((TcpSession.new tls).start E).1.Flushed := by
  have hm : (TcpSession.new tls).Waiting (fun _ => False) := fun msg hm => List.not_mem_nil hm
  unfold TcpSession.start
  split_ifs with ht
  · exact ⟨(hm.handleTlsOutput E).asyncRead _,
      (TcpSession.flushed_handleTlsOutput E _).of_eq (TcpSession.tlsSession_asyncRead _)⟩
  · refine ⟨hm.asyncRead _, fun t h => ?_⟩
    have hn : tls = none := Option.not_isSome_iff_eq_none.mp ht
    rw [TcpSession.readHeader, TcpSession.tlsSession_asyncRead] at h
    change t ∈ tls at h
    rw [hn] at h
    cases h

theorem Kept.step (h : s.Kept) (hE : E.ssl.Writes) (e : Event) : (step E s e).1.Kept := by
  rcases step_tcp e with he | ⟨t, ev, ht, he, hm, -⟩ | he <;> intro t' ht' <;> rw [he] at ht'
  · exact h t' ht'
  · rw [← Option.some.inj ht']
    obtain ⟨h₁, h₂⟩ := h t ht
    exact ⟨h₁.step E.ssl fun msg hmsg => (hm msg hmsg).2, h₂.step E.ssl h₁ hE ev⟩
  · rw [← Option.some.inj ht']
    exact (kept_start E.newTls E.ssl).imp_left fun h msg hm => (h msg hm).elim

theorem kept_reach (hE : E.ssl.Writes) (connected resolves : Bool) (es : List Event) :
    (reach E connected resolves es).Kept := by
  refine Machine.invariant (NetworkService.step E) Kept (fun _ => True)
    (fun t ht => absurd ht (Option.not_mem_none t)) (fun s e _ h => h.step hE e) es fun _ _ => trivial

/-! ## The messages of a step -/

theorem sending_eq_some {e : Event} {t : TcpSession σ} {msg : Message}
    (h : s.sending e = some (t, msg)) : e = .ready .tcp ∧ s.halted = false ∧ s.tcp = some t ∧
      t.socket.isOpen = true ∧ ∃ as, t.strand = .sendMessage msg :: as := by
  unfold sending at h
  split at h
  · next t₁ ht =>
    split at h
    · next msg₁ as hs =>
      split_ifs at h with hc
      obtain ⟨rfl, rfl⟩ := Prod.mk.inj (Option.some.inj h)
      rw [Bool.and_eq_true, Bool.not_eq_true'] at hc
      exact ⟨rfl, hc.1, ht, hc.2, as, hs⟩
    · cases h
  · cases h

/-- **What a step sends**: one frame, with the payload that `sendMessage` gives it. -/
theorem sentBy_of_sending {e : Event} {t : TcpSession σ} {msg : Message}
    (h : s.sending e = some (t, msg)) : s.sentBy E e =
      [⟨t.tlsSession, msg, frame msg.type (TcpSession.finalPayload E.ssl t.tlsSession msg).2⟩] := by
  obtain ⟨rfl, hh, ht, ho, as, hs⟩ := sending_eq_some h
  have hstep : (step E s (.ready .tcp)).1.started = s.started ++
      [frame msg.type (TcpSession.finalPayload E.ssl t.tlsSession msg).2] := by
    have := TcpSession.started_runHandler E.ssl (s := { t with strand := as }) (.sendMessage msg)
    simp only [TcpSession.starts, ho, if_true] at this
    simp only [step, hh, Bool.false_eq_true, if_false, act, runReady, ht, started, setTcp, post,
      TcpSession.run, hs, Option.elim]
    exact this
  rw [sentBy, h, Option.toList_some, List.flatMap_singleton, hstep, List.drop_left]
  rfl

/-- **One step** seals its message exactly when it meets the condition. -/
theorem seals_iff (hE : E.ssl.Writes) (hk : s.Kept) (e : Event) :
    (∀ w ∈ s.sentBy E e, w.msg.type ≠ MessageType.tlsHandshake.code → w.msg.payload ≠ [] →
      w.Sealed E.ssl) ↔ s.Seals E e := by
  cases hs : s.sending e with
  | none =>
    rw [sentBy, hs]
    exact iff_of_true (fun w hw => absurd hw List.not_mem_nil) fun x hx => by
      rw [hs] at hx
      cases hx
  | some x =>
    obtain ⟨t, msg⟩ := x
    obtain ⟨-, -, ht, -, as, has⟩ := sending_eq_some hs
    obtain ⟨hm, hf⟩ := hk t ht
    have hlen := hm msg (by rw [has]; exact List.mem_cons_self)
    rw [sentBy_of_sending hs, List.forall_mem_singleton, Seals, hs]
    constructor
    · rintro h _ ⟨⟩ hty hp
      exact (TcpSession.sealedBy_iff E.ssl hE hf hlen hp).mp (h hty hp)
    · intro h hty hp
      exact (TcpSession.sealedBy_iff E.ssl hE hf hlen hp).mpr (h _ rfl hty hp)

/-! ## The messages of a run -/

theorem mem_sentLog {connected resolves : Bool} {es : List Event} {w : Sent σ} :
    w ∈ sentLog E connected resolves es ↔ ∃ pre e post, es = pre ++ e :: post ∧
      w ∈ (reach E connected resolves pre).sentBy E e := by
  rw [sentLog, List.mem_flatMap]
  constructor
  · rintro ⟨x, hx, hw⟩
    obtain ⟨pre, post, hcut, ho⟩ := (Machine.mem_trace_iff _ _ _ x).mp hx
    rw [ho] at hw
    exact ⟨pre, x.1, post, hcut, hw⟩
  · rintro ⟨pre, e, post, hcut, hw⟩
    exact ⟨(e, _), (Machine.mem_trace_iff _ _ _ _).mpr ⟨pre, post, hcut, rfl⟩, hw⟩

theorem started_start (tls : Option (TlsSession σ)) (E : Ssl σ) :
    ((TcpSession.new tls).start E).1.socket.started = [] := by
  unfold TcpSession.start
  split_ifs
  · rw [TcpSession.readHeader, TcpSession.started_asyncRead, TcpSession.started_handleTlsOutput]
    rfl
  · rw [TcpSession.readHeader, TcpSession.started_asyncRead]
    rfl

/-- A frame that carries engine output. -/
def IsHandshakeFrame (buf : Bytes) : Prop :=
  ∃ rs, buf = frame MessageType.tlsHandshake.code (recordBytes rs)

theorem mem_started_step {e : Event} {buf : Bytes} (hb : buf ∈ (step E s e).1.started) :
    buf ∈ s.started ∨ IsHandshakeFrame buf ∨ ∃ w ∈ s.sentBy E e, w.frame = buf := by
  unfold started at hb
  rcases step_tcp (E := E) (s := s) e with he | ⟨t, ev, ht, he, -, hr⟩ | he <;> rw [he] at hb
  · exact Or.inl hb
  · rw [Option.elim] at hb
    by_cases hrun : ev = .run
    · obtain ⟨rfl, hh⟩ := hr hrun
      rw [hrun] at hb
      simp only [TcpSession.step, TcpSession.run] at hb
      split at hb
      · left
        rw [started, ht]
        exact hb
      · next a as hs =>
        rw [TcpSession.started_runHandler] at hb
        rcases List.mem_append.mp hb with hb | hb
        · left
          rw [started, ht]
          exact hb
        · cases a with
          | sendMessage msg =>
            rw [TcpSession.starts] at hb
            split_ifs at hb with ho
            · have hs' : s.sending (.ready .tcp) = some (t, msg) := by
                simp only [sending, ht, hs, hh, show t.socket.isOpen = true from ho,
                  Bool.not_false, Bool.and_self, if_true]
              rw [sentBy_of_sending hs']
              exact Or.inr (Or.inr ⟨_, List.mem_singleton.mpr rfl, (List.mem_singleton.mp hb).symm⟩)
            · cases hb
          | writeTls records =>
            rw [TcpSession.starts] at hb
            split_ifs at hb
            · exact Or.inr (Or.inl ⟨records, List.mem_singleton.mp hb⟩)
            · cases hb
          | wrote ok | read op data => cases hb
    · left
      rw [started, ht, Option.elim, ← TcpSession.started_step E.ssl hrun]
      exact hb
  · rw [Option.elim, started_start] at hb
    cases hb

/-- **Every frame on the connection** carries engine output or a message of the run. -/
theorem mem_started (connected resolves : Bool) (es : List Event) {buf : Bytes}
    (hb : buf ∈ (reach E connected resolves es).started) :
    IsHandshakeFrame buf ∨ ∃ w ∈ sentLog E connected resolves es, w.frame = buf := by
  induction es using List.reverseRecOn with
  | nil => cases hb
  | append_singleton es e ih =>
    rw [reach, Machine.final_concat] at hb
    rcases mem_started_step hb with hb | hb | ⟨w, hw, hbuf⟩
    · refine (ih hb).imp_right ?_
      rintro ⟨w, hw, hbuf⟩
      obtain ⟨pre, e₁, post, rfl, hw₁⟩ := mem_sentLog.mp hw
      exact ⟨w, mem_sentLog.mpr ⟨pre, e₁, post ++ [e], by simp, hw₁⟩, hbuf⟩
    · exact Or.inl hb
    · exact Or.inr ⟨w, mem_sentLog.mpr ⟨es, e, [], rfl, hw⟩, hbuf⟩

/-- **Sealed messages.** The messages of a run are all sealed exactly when every message with a
body finds the handshake done, and its body is shorter than 2 GiB. -/
theorem credentials_sealed_iff (E : Env σ δ) (hE : E.ssl.Writes) (connected resolves : Bool)
    (es : List Event) : AllSealed E connected resolves es ↔
      Machine.Along (step E) (Seals E) (init connected resolves) es := by
  rw [Machine.along_iff]
  constructor
  · intro h pre e post hcut
    refine (seals_iff hE (kept_reach hE connected resolves pre) e).mp fun w hw => ?_
    exact h w (mem_sentLog.mpr ⟨pre, e, post, hcut, hw⟩)
  · intro h w hw
    obtain ⟨pre, e, post, hcut, hw⟩ := mem_sentLog.mp hw
    exact (seals_iff hE (kept_reach hE connected resolves pre) e).mpr (h pre e post hcut) w hw

/-- A login on a connection whose handshake is done. -/
theorem credentials_sealed_login :
    AllSealed sampleEnv false true (sampleConnected ++
        [.send MessageType.login.code [7, 8], .ready .task, .ready .tcp]) ∧
      (sentLog sampleEnv false true (sampleConnected ++
        [.send MessageType.login.code [7, 8], .ready .task, .ready .tcp])).length = 1 :=
  ⟨(credentials_sealed_iff sampleEnv (by
      intro c body _ _ hl
      refine ⟨rfl, List.cons_ne_nil _ _, ?_⟩
      simp only [sampleEnv, sampleSsl, List.flatMap_singleton, TlsRecord.bytes,
        List.length_append, List.length_cons, List.length_nil]
      omega) false true _).mpr (by decide +kernel), by decide +kernel⟩

/-- Without a TLS context the login is sent as it is. -/
theorem credentials_sealed_fails :
    let es : List Event := [.ready .task, .connectEnds true, .ready .connect, .ready .task,
      .send MessageType.login.code [7, 8], .ready .task, .ready .tcp]
    ¬ AllSealed { sampleEnv with newTls := none } false true es ∧
      (reach { sampleEnv with newTls := none } false true es).started =
        [frame MessageType.login.code [7, 8]] := by
  refine ⟨fun h => ?_, by decide +kernel⟩
  have hw := h ⟨none, ⟨MessageType.login.code, 2, [7, 8]⟩, frame MessageType.login.code [7, 8]⟩
    (by decide +kernel) (by decide) (by decide)
  obtain ⟨t, bytes, ht, -⟩ := hw
  cases ht

end NetworkService

end Network

end AnoMap
