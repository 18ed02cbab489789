import AnoMap.Network.TcpSession

/-!
# Framing round trip

What one session frames, the read loop of another takes apart again.

* `framesOf`: the bytes of the frames that `sendMessage` starts for a list of messages.
* `readNext`, `consume`: the read loop over a stream of bytes. It is a run of the session
  (`step_readNext`).
* `Channel`: neither session has TLS, or `decrypt` undoes `encrypt` in order and the reader has no
  engine output pending.
* **`framing_round_trip`**: consumed from a frame boundary, the frames make `messageHandler_` be
  called with the messages, and end at a frame boundary.
-/

set_option autoImplicit false

namespace AnoMap

namespace Network

/-- The length is the payload's, and an `int` holds it. -/
structure Message.WellFormed (m : Message) : Prop where
  length : m.length.toNat = m.payload.length
  int : m.payload.length < 2 ^ 31

instance (m : Message) : Decidable m.WellFormed :=
  decidable_of_iff (m.length.toNat = m.payload.length ∧ m.payload.length < 2 ^ 31)
    ⟨fun h => ⟨h.1, h.2⟩, fun h => ⟨h.1, h.2⟩⟩

theorem Message.WellFormed.length_eq {m : Message} (h : m.WellFormed) :
    m.length = UInt32.ofNat m.payload.length := by
  apply UInt32.toNat_inj.mp
  have := h.int
  rw [UInt32.toNat_ofNat', h.length, Nat.mod_eq_of_lt (by omega)]

theorem length_pos_iff {payload : Bytes} (h : payload.length < 2 ^ 32) :
    0 < UInt32.ofNat payload.length ↔ payload ≠ [] := by
  rw [UInt32.lt_iff_toNat_lt, UInt32.toNat_ofNat', Nat.mod_eq_of_lt h, ← List.length_pos_iff]
  rfl

theorem Message.WellFormed.length_pos_iff {m : Message} (h : m.WellFormed) :
    0 < m.length ↔ m.payload ≠ [] := by
  rw [h.length_eq]
  exact Network.length_pos_iff (Nat.lt_trans h.int (by decide))

namespace TlsSession

variable {σ τ : Type} (E : Ssl σ) (F : Ssl τ)

/-- The handshake is done and the write BIO is empty. -/
def Settled (t : TlsSession σ) : Prop := t.isHandshakeDone E = true ∧ t.writeBio = []

instance (t : TlsSession σ) : Decidable (t.Settled E) := inferInstanceAs (Decidable (_ ∧ _))

theorem Settled.handshake {t : TlsSession σ} (h : t.Settled E) : t.handshake E = (t, []) := by
  obtain ⟨hd, hw⟩ := h
  unfold TlsSession.handshake
  cases hs : t.ssl with
  | none => rfl
  | some c =>
    have hi : E.isInitFinished c = true := by simpa [isHandshakeDone, hs] using hd
    have hp : t.progress E = t := by simp only [progress, hs, hi, if_true]
    dsimp only
    rw [hp, flushWriteBio, hw, ← hw]

/-- **An ordered lossless channel**: the `k`-th ciphertext, whose size its length field holds,
decrypts to the `k`-th plaintext. -/
def Lossless : TlsSession σ → TlsSession τ → List Bytes → Prop
  | _, u, [] => u.Settled F
  | t, u, p :: ps =>
    let c := t.encrypt E p (UInt32.ofNat p.length)
    let d := u.decrypt F (recordBytes c.2) (UInt32.ofNat (recordBytes c.2).length)
    u.Settled F ∧ recordBytes c.2 ≠ [] ∧ (recordBytes c.2).length < 2 ^ 32 ∧ d.2 = p ∧
      Lossless c.1 d.1 ps

instance decidableLossless :
    ∀ (t : TlsSession σ) (u : TlsSession τ) (ps : List Bytes), Decidable (Lossless E F t u ps)
  | _, u, [] => inferInstanceAs (Decidable (u.Settled F))
  | t, u, p :: ps =>
    let c := t.encrypt E p (UInt32.ofNat p.length)
    let d := u.decrypt F (recordBytes c.2) (UInt32.ofNat (recordBytes c.2).length)
    have : Decidable (Lossless E F c.1 d.1 ps) := decidableLossless c.1 d.1 ps
    inferInstanceAs (Decidable (_ ∧ _ ∧ _ ∧ _ ∧ _))

theorem Lossless.settled {t : TlsSession σ} {u : TlsSession τ} {ps : List Bytes}
    (h : Lossless E F t u ps) : u.Settled F := by
  cases ps with
  | nil => exact h
  | cons p ps => exact h.1

end TlsSession

namespace TcpSession

variable {σ τ : Type} (E : Ssl σ) (F : Ssl τ)

/-! ## The frames of a list of messages -/

/-- The strand runs the handlers of `sendMessage` for `msgs`, in order. -/
def sendAll (s : TcpSession σ) (msgs : List Message) : TcpSession σ :=
  msgs.foldl (fun s m => s.sendMessage E m) s

/-- The bytes of the frames it starts. -/
def framesOf (s : TcpSession σ) (msgs : List Message) : Bytes :=
  ((s.sendAll E msgs).socket.started.drop s.socket.started.length).flatten

/-- The TLS session after a message, and its payload on the wire. -/
def finalPayload (tls : Option (TlsSession σ)) (m : Message) : Option (TlsSession σ) × Bytes :=
  match tls with
  | none => (none, m.payload)
  | some t =>
    if 0 < m.length then
      let r := t.encrypt E (m.payload.take m.length.toNat) m.length
      (some r.1, recordBytes r.2)
    else (some t, m.payload)

theorem asyncWrite_of_isOpen {s : TcpSession σ} (ho : s.socket.isOpen = true) (buf : Bytes)
    (rs : List Record) : (s.asyncWrite buf rs).tlsSession = s.tlsSession ∧
      (s.asyncWrite buf rs).socket = s.socket.start buf := by
  rw [asyncWrite, if_pos ho]
  exact ⟨rfl, rfl⟩

theorem setTls_eq {s : TcpSession σ} {tls : Option (TlsSession σ)} (h : s.tlsSession = tls) :
    s.setTls tls = s := by
  rw [← h]
  rfl

theorem sendMessage_eq (s : TcpSession σ) (m : Message) : ∃ rs, s.sendMessage E m =
    (s.setTls (finalPayload E s.tlsSession m).1).asyncWrite
      (frame m.type (finalPayload E s.tlsSession m).2) rs := by
  unfold TcpSession.sendMessage finalPayload
  cases ht : s.tlsSession with
  | none => exact ⟨[], by rw [setTls_eq ht]⟩
  | some t =>
    dsimp only
    split_ifs
    · exact ⟨_, rfl⟩
    · exact ⟨[], by rw [setTls_eq ht]⟩

theorem sendMessage_of_isOpen {s : TcpSession σ} (ho : s.socket.isOpen = true) (m : Message) :
    (s.sendMessage E m).tlsSession = (finalPayload E s.tlsSession m).1 ∧
      (s.sendMessage E m).socket =
        s.socket.start (frame m.type (finalPayload E s.tlsSession m).2) := by
  obtain ⟨rs, h⟩ := s.sendMessage_eq E m
  rw [h]
  refine asyncWrite_of_isOpen ?_ _ _
  exact ho

/-- The frames of a list of messages as a function of the TLS session alone. -/
def wire (tls : Option (TlsSession σ)) : List Message → List Bytes
  | [] => []
  | m :: msgs => frame m.type (finalPayload E tls m).2 :: wire (finalPayload E tls m).1 msgs

theorem started_sendAll {s : TcpSession σ} (ho : s.socket.isOpen = true) (msgs : List Message) :
    (s.sendAll E msgs).socket.started = s.socket.started ++ wire E s.tlsSession msgs := by
  induction msgs generalizing s with
  | nil => exact (List.append_nil _).symm
  | cons m msgs ih =>
    obtain ⟨ht, hk⟩ := sendMessage_of_isOpen E ho m
    have ho₁ : (s.sendMessage E m).socket.isOpen = true := by rw [hk]; exact ho
    have := ih ho₁
    rw [ht, hk] at this
    rw [sendAll, List.foldl_cons, ← sendAll, this, StreamSocket.start, List.append_assoc]
    rfl

theorem framesOf_eq {s : TcpSession σ} (ho : s.socket.isOpen = true) (msgs : List Message) :
    s.framesOf E msgs = (wire E s.tlsSession msgs).flatten := by
  rw [framesOf, started_sendAll E ho, List.drop_left]

/-! ## The read loop -/

/-- The outstanding read ends with the next bytes of the stream, and its handler runs. -/
def readNext (r : TcpSession τ) (stream : Bytes) :
    Option ((TcpSession τ × List TcpOutput) × Bytes) :=
  match r.reading with
  | none => none
  | some op =>
    if r.expects op ≤ stream.length then
      some (runHandler F { r with reading := none } (.read op (some (stream.take (r.expects op)))),
        stream.drop (r.expects op))
    else none

/-- The loop, for `fuel` reads at most: the session, the callbacks and what is left unread. -/
def consume : ℕ → TcpSession τ → Bytes → TcpSession τ × List TcpOutput × Bytes
  | 0, r, stream => (r, [], stream)
  | fuel + 1, r, stream =>
    match r.readNext F stream with
    | none => (r, [], stream)
    | some ((r₁, out), rest) =>
      let c := consume fuel r₁ rest
      (c.1, out ++ c.2.1, c.2.2)

/-- **The loop is a run** of a session whose strand has nothing else to do. -/
theorem step_readNext {r r₁ : TcpSession τ} {stream rest : Bytes} {out : List TcpOutput}
    (hs : r.strand = []) (h : r.readNext F stream = some ((r₁, out), rest)) :
    ∃ bytes, stream = bytes ++ rest ∧ step F (step F r (.arrive bytes)).1 .run = (r₁, out) := by
  unfold readNext at h
  split at h
  · cases h
  · next op hop =>
    split_ifs at h with hle
    · obtain ⟨hr, rfl⟩ := Prod.mk.inj (Option.some.inj h)
      refine ⟨stream.take (r.expects op), (List.take_append_drop _ _).symm, ?_⟩
      have hlen : (stream.take (r.expects op)).length = r.expects op := List.length_take_of_le hle
      have ha : (step F r (.arrive (stream.take (r.expects op)))).1 =
          post { r with reading := none } (.read op (some (stream.take (r.expects op)))) := by
        simp only [step, endRead, hop, Option.all_some, hlen, decide_true, if_true]
      rw [ha, ← hr]
      simp only [step, run, post, hs, List.nil_append]

/-- A reader that waits for the next header. -/
def AtBoundary (r : TcpSession τ) : Prop := r.reading = some .header ∧ r.socket.isOpen = true

instance (r : TcpSession τ) : Decidable r.AtBoundary := inferInstanceAs (Decidable (_ ∧ _))

theorem readNext_of_expects {r : TcpSession τ} (op : ReadOp) (ho : r.reading = some op)
    (bytes : Bytes) (hl : bytes.length = r.expects op) (rest : Bytes) :
    r.readNext F (bytes ++ rest) =
      some (runHandler F { r with reading := none } (.read op (some bytes)), rest) := by
  have hle : r.expects op ≤ (bytes ++ rest).length := by rw [List.length_append]; omega
  rw [readNext, ho]
  dsimp only
  rw [if_pos hle, ← hl, List.take_left, List.drop_left]

theorem readHeader_of_isOpen {r : TcpSession τ} (ho : r.socket.isOpen = true) :
    r.readHeader = { r with reading := some .header } := by
  rw [readHeader, asyncRead, if_pos ho]

theorem readBody_of_isOpen {r : TcpSession τ} (ho : r.socket.isOpen = true) :
    r.readBody = { r with reading := some .body } := by
  rw [readBody, asyncRead, if_pos ho]

theorem AtBoundary.consume_nil {r : TcpSession τ} (h : r.AtBoundary) (fuel : ℕ) :
    r.consume F fuel [] = (r, [], []) := by
  cases fuel with
  | zero => rfl
  | succ fuel =>
    have : r.readNext F [] = none := by
      rw [readNext, h.1]
      rfl
    rw [consume, this]

theorem AtBoundary.header {r : TcpSession τ} (h : r.AtBoundary) (type : UInt8) {len : UInt32}
    (hl : 0 < len) (rest : Bytes) :
    ∃ payload, r.readNext F (type :: lengthBytes len ++ rest) =
      some (({ r with reading := some .body, currentMessage := ⟨type, len, payload⟩ }, []), rest) := by
  refine ⟨resize r.currentMessage.payload len.toNat, ?_⟩
  rw [readNext_of_expects F .header h.1 (type :: lengthBytes len) rfl]
  congr 2
  simp only [runHandler, onHeader, List.getD_cons_zero, List.drop_succ_cons, List.drop_zero,
    lengthOfBytes_lengthBytes, hl, if_true]
  rw [readBody_of_isOpen]
  · rfl
  · exact h.2

theorem AtBoundary.header_empty {r : TcpSession τ} (h : r.AtBoundary) {type : UInt8}
    (ht : type ≠ MessageType.tlsHandshake.code) (rest : Bytes) :
    r.readNext F (type :: lengthBytes 0 ++ rest) =
      some (({ r with currentMessage := ⟨type, 0, []⟩ }, [.message ⟨type, 0, []⟩]), rest) := by
  rw [readNext_of_expects F .header h.1 (type :: lengthBytes 0) rfl]
  congr 2
  simp only [runHandler, onHeader, List.getD_cons_zero, List.drop_succ_cons, List.drop_zero,
    lengthOfBytes_lengthBytes, if_neg (UInt32.lt_irrefl 0), ht, and_false, if_false]
  rw [readHeader_of_isOpen]
  · simp only [setMessage, ← h.1]
  · exact h.2

theorem readNext_body {r : TcpSession τ} (ho : r.socket.isOpen = true)
    (hr : r.reading = some .body) (hn : r.tlsSession = none) (hl : 0 < r.currentMessage.length)
    {body : Bytes} (hb : body.length = r.currentMessage.length.toNat) (rest : Bytes) :
    r.readNext F (body ++ rest) =
      some (({ r with reading := some .header,
                      currentMessage := { r.currentMessage with payload := body } },
        [.message { r.currentMessage with payload := body }]), rest) := by
  rw [readNext_of_expects F .body hr body hb]
  congr 2
  simp only [runHandler, onBody, hn, dispatch]
  rw [readHeader_of_isOpen]
  · simp only [setMessage, hl, if_true]
  · exact ho

theorem readNext_body_tls {r : TcpSession τ} (ho : r.socket.isOpen = true)
    (hr : r.reading = some .body) {u : TlsSession τ} (hu : r.tlsSession = some u)
    (ht : r.currentMessage.type ≠ MessageType.tlsHandshake.code)
    (hl : 0 < r.currentMessage.length) {body p : Bytes}
    (hb : body.length = r.currentMessage.length.toNat)
    (hd : (u.decrypt F body r.currentMessage.length).2 = p) (hp : 0 < UInt32.ofNat p.length)
    (hq : (u.decrypt F body r.currentMessage.length).1.Settled F) (rest : Bytes) :
    r.readNext F (body ++ rest) =
      some (({ r with reading := some .header,
                      tlsSession := some (u.decrypt F body r.currentMessage.length).1,
                      currentMessage := ⟨r.currentMessage.type, UInt32.ofNat p.length, p⟩ },
        [.message ⟨r.currentMessage.type, UInt32.ofNat p.length, p⟩]), rest) := by
  rw [readNext_of_expects F .body hr body hb]
  congr 2
  -- nothing is left to send after the decryption
  have hq' : ((u.decrypt F body r.currentMessage.length).1.handshake F) =
      ((u.decrypt F body r.currentMessage.length).1, []) := hq.handshake
  simp only [runHandler, onBody, hu, hl, if_true, ht, if_false, decryptBody, handleTlsOutput,
    tlsOutput, setTls, setMessage, hq', recordBytes, List.flatMap_nil, List.isEmpty_nil, hd,
    dispatch]
  rw [readHeader_of_isOpen]
  · simp only [hp, if_true]
  · exact ho

/-! ## The round trip -/

/-- Neither side has TLS, or the two TLS sessions are an ordered lossless channel for the payloads
that are encrypted. -/
def Channel (tls : Option (TlsSession σ)) (peer : Option (TlsSession τ)) (msgs : List Message) :
    Prop :=
  match tls, peer with
  | none, none => True
  | some t, some u => t.Lossless E F u ((msgs.map Message.payload).filter (· ≠ []))
  | _, _ => False

instance (tls : Option (TlsSession σ)) (peer : Option (TlsSession τ)) (msgs : List Message) :
    Decidable (Channel E F tls peer msgs) :=
  match tls, peer with
  | none, none => isTrue trivial
  | some _, some _ => inferInstanceAs (Decidable (TlsSession.Lossless _ _ _ _ _))
  | none, some _ | some _, none => isFalse id

theorem Channel.cons_empty {tls : Option (TlsSession σ)} {peer : Option (TlsSession τ)}
    {m : Message} {msgs : List Message} (h : Channel E F tls peer (m :: msgs))
    (hp : m.payload = []) : Channel E F tls peer msgs := by
  have hf : ((m :: msgs).map Message.payload).filter (· ≠ []) =
      (msgs.map Message.payload).filter (· ≠ []) := by simp [hp]
  simpa only [Channel, hf] using h

theorem AtBoundary.consume_empty {r : TcpSession τ} (h : r.AtBoundary) {m : Message}
    (hm : m.WellFormed) (ht : m.type ≠ MessageType.tlsHandshake.code) (hp : m.payload = [])
    (fuel : ℕ) (rest : Bytes) :
    r.consume F (fuel + 1) (frame m.type [] ++ rest) =
      let c := consume F fuel { r with currentMessage := m } rest
      (c.1, .message m :: c.2.1, c.2.2) := by
  have h0 : m.length = 0 := by rw [hm.length_eq, hp]; rfl
  have hm' : m = ⟨m.type, 0, []⟩ := by rw [← h0, ← hp]
  have := h.header_empty F ht rest
  rw [← hm'] at this
  rw [frame_of_lt m.type (show ([] : Bytes).length < 2 ^ 32 by decide), List.append_nil, consume]
  rw [show UInt32.ofNat ([] : Bytes).length = 0 from rfl, this]
  rfl

theorem AtBoundary.consume_plain {r : TcpSession τ} (h : r.AtBoundary) (hn : r.tlsSession = none)
    {m : Message} (hm : m.WellFormed) (hp : m.payload ≠ []) (fuel : ℕ) (rest : Bytes) :
    r.consume F (fuel + 2) (frame m.type m.payload ++ rest) =
      let c := consume F fuel { r with currentMessage := m } rest
      (c.1, .message m :: c.2.1, c.2.2) := by
  have hl := hm.length_pos_iff.mpr hp
  obtain ⟨payload, hh⟩ := h.header F m.type hl (m.payload ++ rest)
  have hb := readNext_body F
    (r := { r with reading := some .body, currentMessage := ⟨m.type, m.length, payload⟩ })
    h.2 rfl hn hl hm.length.symm rest
  rw [frame_of_lt m.type (Nat.lt_trans hm.int (by decide)), ← hm.length_eq, List.append_assoc,
    consume, hh]
  dsimp only
  rw [consume, hb]
  simp only [List.nil_append, List.singleton_append, ← h.1]

theorem AtBoundary.consume_sealed {r : TcpSession τ} (h : r.AtBoundary) {u : TlsSession τ}
    (hu : r.tlsSession = some u) {m : Message} (hm : m.WellFormed)
    (ht : m.type ≠ MessageType.tlsHandshake.code) (hp : m.payload ≠ []) {body : Bytes}
    (hne : body ≠ []) (hl : body.length < 2 ^ 32)
    (hd : (u.decrypt F body (UInt32.ofNat body.length)).2 = m.payload)
    (hq : (u.decrypt F body (UInt32.ofNat body.length)).1.Settled F) (fuel : ℕ) (rest : Bytes) :
    r.consume F (fuel + 2) (frame m.type body ++ rest) =
      let c := consume F fuel { r with
        tlsSession := some (u.decrypt F body (UInt32.ofNat body.length)).1
        currentMessage := m } rest
      (c.1, .message m :: c.2.1, c.2.2) := by
  have hpos := (length_pos_iff hl).mpr hne
  have hlen : body.length = (UInt32.ofNat body.length).toNat := by
    rw [UInt32.toNat_ofNat', Nat.mod_eq_of_lt hl]
  obtain ⟨payload, hh⟩ := h.header F m.type hpos (body ++ rest)
  have hm' : (⟨m.type, UInt32.ofNat m.payload.length, m.payload⟩ : Message) = m := by
    rw [← hm.length_eq]
  have hb := readNext_body_tls F
    (r := { r with reading := some .body,
                   currentMessage := ⟨m.type, UInt32.ofNat body.length, payload⟩ })
    h.2 rfl hu ht hpos hlen hd (by rw [← hm.length_eq]; exact hm.length_pos_iff.mpr hp) hq rest
  rw [frame_of_lt m.type hl, List.append_assoc, consume, hh]
  dsimp only
  rw [consume, hb]
  simp only [List.nil_append, List.singleton_append, hm', ← h.1]

/-- **One message**: the reads of its frame call the handler with it and go on from a frame
boundary. -/
theorem AtBoundary.consume_message {r : TcpSession τ} (h : r.AtBoundary) {m : Message}
    (hm : m.WellFormed) (ht : m.type ≠ MessageType.tlsHandshake.code) {tls : Option (TlsSession σ)}
    {msgs : List Message} (hc : Channel E F tls r.tlsSession (m :: msgs)) (rest : Bytes) :
    ∃ r₁ reads, r₁.AtBoundary ∧ Channel E F (finalPayload E tls m).1 r₁.tlsSession msgs ∧
      reads ≤ (frame m.type (finalPayload E tls m).2).length ∧
      ∀ fuel, r.consume F (fuel + reads) (frame m.type (finalPayload E tls m).2 ++ rest) =
        let c := consume F fuel r₁ rest
        (c.1, .message m :: c.2.1, c.2.2) := by
  have h5 : ∀ body : Bytes, 2 ≤ (frame m.type body).length := fun body => by
    simp only [frame, lengthBytes, List.length_append, List.length_cons]
    omega
  have hne := hm.length_pos_iff
  by_cases hp : m.payload = []
  · -- an empty message is sent as it is, with TLS too
    have h0 : ¬ 0 < m.length := fun h0 => hne.mp h0 hp
    have hf : finalPayload E tls m = (tls, []) := by
      cases tls with
      | none => simp only [finalPayload, hp]
      | some t => simp only [finalPayload, h0, if_false, hp]
    rw [hf]
    exact ⟨{ r with currentMessage := m }, 1, h, hc.cons_empty E F hp, Nat.le_of_succ_le (h5 []),
      fun fuel => h.consume_empty F hm ht hp fuel rest⟩
  · have h0 := hne.mpr hp
    cases htls : tls with
    | none =>
      have hr : r.tlsSession = none := by
        cases hr : r.tlsSession with
        | none => rfl
        | some u => rw [htls, hr] at hc; exact hc.elim
      refine ⟨{ r with currentMessage := m }, 2, h, ?_, h5 _,
        fun fuel => h.consume_plain F hr hm hp fuel rest⟩
      rw [show ({ r with currentMessage := m } : TcpSession τ).tlsSession = none from hr]
      trivial
    | some t =>
      rw [htls] at hc
      cases hr : r.tlsSession with
      | none => rw [hr] at hc; exact hc.elim
      | some u =>
        rw [hr] at hc
        have hc' : t.Lossless E F u (m.payload :: (msgs.map Message.payload).filter (· ≠ [])) := by
          simpa [Channel, hp] using hc
        obtain ⟨-, hbne, hlt, hd, hrest⟩ := hc'
        have hf : finalPayload E (some t) m =
            (some (t.encrypt E m.payload (UInt32.ofNat m.payload.length)).1,
              recordBytes (t.encrypt E m.payload (UInt32.ofNat m.payload.length)).2) := by
          simp only [finalPayload, h0, if_true]
          rw [List.take_of_length_le (Nat.le_of_eq hm.length.symm), hm.length_eq]
        rw [hf]
        let c := recordBytes (t.encrypt E m.payload (UInt32.ofNat m.payload.length)).2
        exact ⟨{ r with tlsSession := some (u.decrypt F c (UInt32.ofNat c.length)).1,
                        currentMessage := m }, 2, h, hrest, h5 _,
          fun fuel => h.consume_sealed F hr hm ht hp hbne hlt hd hrest.settled fuel rest⟩

/-- **Framing round trip.** Whatever well-formed messages a session frames, its peer's read loop
calls `messageHandler_` with these messages, in order, and stops at a frame boundary with nothing
left. -/
theorem framing_round_trip {s : TcpSession σ} {r : TcpSession τ} (hs : s.socket.isOpen = true)
    (hr : r.AtBoundary) (msgs : List Message)
    (hm : ∀ m ∈ msgs, m.WellFormed ∧ m.type ≠ MessageType.tlsHandshake.code)
    (hc : Channel E F s.tlsSession r.tlsSession msgs) (fuel : ℕ)
    (hf : (s.framesOf E msgs).length ≤ fuel) :
    (r.consume F fuel (s.framesOf E msgs)).2 = (msgs.map .message, []) ∧
      (r.consume F fuel (s.framesOf E msgs)).1.AtBoundary := by
  rw [framesOf_eq E hs] at hf ⊢
  generalize s.tlsSession = tls at hc hf ⊢
  induction msgs generalizing tls r fuel with
  | nil =>
    rw [wire, List.flatten_nil, hr.consume_nil]
    exact ⟨rfl, hr⟩
  | cons m msgs ih =>
    obtain ⟨hm₁, hms⟩ := List.forall_mem_cons.mp hm
    rw [wire, List.flatten_cons] at hf ⊢
    obtain ⟨r₁, reads, hr₁, hc₁, hle, hcons⟩ :=
      hr.consume_message E F hm₁.1 hm₁.2 hc (wire E (finalPayload E tls m).1 msgs).flatten
    rw [List.length_append] at hf
    obtain ⟨h₁, h₂⟩ := ih hr₁ hms (fuel - reads) _ hc₁ (by omega)
    have := hcons (fuel - reads)
    rw [Nat.sub_add_cancel (by omega)] at this
    rw [this]
    dsimp only
    rw [h₁]
    exact ⟨rfl, h₂⟩

/-- An object after its handshake, with the null cipher: it writes the plaintext as the fragment
and drops the record header when it reads. -/
def nullCipher : Ssl Bytes where
  isInitFinished _ := true
  doHandshake c := (c, [])
  bioWrite c b := if b = [] then none else some (c ++ b.drop 5)
  read c := if c = [] then (none, c, []) else (some c, [], [])
  write c b := (true, c, [⟨23, b⟩])
  buffered c := c.length
  buffered_read c h := by
    split_ifs at h ⊢
    · cases h
    · exact List.length_pos_iff.mpr ‹_›

/-- A login, an empty message and a metadata packet between two sessions with TLS. -/
theorem framing_round_trip_login :
    let s : TcpSession Bytes := new (some (.new (some [])))
    let msgs : List Message := [⟨1, 2, [7, 8]⟩, ⟨3, 0, []⟩, ⟨9, 1, [5]⟩]
    (consume nullCipher 40 s.readHeader (s.framesOf nullCipher msgs)).2 =
        (msgs.map .message, []) ∧
      (consume nullCipher 40 s.readHeader (s.framesOf nullCipher msgs)).1.AtBoundary :=
  framing_round_trip nullCipher nullCipher rfl (by decide) _ (by decide)
    (by decide) 40 (by decide)

end TcpSession

end Network

end AnoMap
