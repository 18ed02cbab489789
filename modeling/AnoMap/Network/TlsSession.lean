import AnoMap.Network.Protocol

/-!
# The TLS session of a connection

A `TLS::Session` over an OpenSSL object with memory BIOs. The object is a parameter: what it
answers to a call, and which records the call makes it produce.

* `Ssl`: the OpenSSL calls the session makes; `Record`: a TLS record with the number it was produced
  under.
* `handshake`, `decrypt`, `encrypt`: the member functions. `decrypt` leaves the records it made the
  object produce in the write BIO.
* `Numbered`: the records produced so far are those handed out and those still in the write BIO, in
  this order. Every member function keeps it.
* `sampleSsl`: a small object, for runs on fixed inputs.
-/

set_option autoImplicit false

namespace AnoMap

namespace Network

/-- A TLS record as it leaves the object: its content type and its fragment. -/
structure TlsRecord where
  type : UInt8
  fragment : Bytes
  deriving DecidableEq, Repr

/-- The record's bytes: content type, protocol version, 2-byte length and fragment. -/
def TlsRecord.bytes (r : TlsRecord) : Bytes :=
  let len := UInt16.ofNat r.fragment.length
  [r.type, 0x03, 0x03, (len >>> 8).toUInt8, len.toUInt8] ++ r.fragment

/-- The OpenSSL calls of a session on an object `σ`, with the records each makes it produce.
`read` is one `SSL_read`, `none` when it returns no data. -/
structure Ssl (σ : Type) where
  isInitFinished : σ → Bool
  doHandshake : σ → σ × List TlsRecord
  bioWrite : σ → Bytes → Option σ
  read : σ → Option Bytes × σ × List TlsRecord
  write : σ → Bytes → Bool × σ × List TlsRecord
  /-- The bytes still to be read. -/
  buffered : σ → ℕ
  buffered_read : ∀ s, (read s).1.isSome → buffered (read s).2.1 < buffered s

/-- A record and its place in the order of production. -/
structure Record where
  num : ℕ
  record : TlsRecord
  deriving DecidableEq, Repr

/-- The records numbered from `n` on. -/
def numbered : ℕ → List TlsRecord → List Record
  | _, [] => []
  | n, r :: rs => ⟨n, r⟩ :: numbered (n + 1) rs

/-- The bytes of consecutive records. -/
def recordBytes (rs : List Record) : Bytes := rs.flatMap fun r => r.record.bytes

/-- A `TLS::Session`: its SSL object, null when it could not be made, the records in the write BIO
and the number of records produced so far. -/
structure TlsSession (σ : Type) where
  ssl : Option σ
  writeBio : List Record
  produced : ℕ
  deriving DecidableEq, Repr

namespace TlsSession

variable {σ : Type} (E : Ssl σ)

/-- The constructor. -/
def new (ssl : Option σ) : TlsSession σ := ⟨ssl, [], 0⟩

/-- The object goes on to `c` and appends `rs` to the write BIO. -/
def produce (t : TlsSession σ) (c : σ) (rs : List TlsRecord) : TlsSession σ where
  ssl := some c
  writeBio := t.writeBio ++ numbered t.produced rs
  produced := t.produced + rs.length

def isHandshakeDone (t : TlsSession σ) : Bool := t.ssl.any E.isInitFinished

def flushWriteBio (t : TlsSession σ) : TlsSession σ × List Record :=
  ({ t with writeBio := [] }, t.writeBio)

/-- `if (!SSL_is_init_finished(ssl)) SSL_do_handshake(ssl)`. -/
def progress (t : TlsSession σ) : TlsSession σ :=
  match t.ssl with
  | none => t
  | some c => if E.isInitFinished c then t else t.produce (E.doHandshake c).1 (E.doHandshake c).2

def handshake (t : TlsSession σ) : TlsSession σ × List Record :=
  match t.ssl with
  | none => (t, [])
  | some _ => (t.progress E).flushWriteBio

/-- The `SSL_read` loop of `decrypt`. -/
def readLoop : ℕ → TlsSession σ → Bytes → TlsSession σ × Bytes
  | 0, t, plain => (t, plain)
  | fuel + 1, t, plain =>
    match t.ssl with
    | none => (t, plain)
    | some c =>
      let t := t.produce (E.read c).2.1 (E.read c).2.2
      match (E.read c).1 with
      | none => (t, plain)
      | some b => readLoop fuel t (plain ++ b)

/-- The loop with the fuel it needs. -/
def readAll (t : TlsSession σ) : TlsSession σ × Bytes :=
  match t.ssl with
  | none => (t, [])
  | some c => readLoop E (E.buffered c + 1) t []

/-- `static_cast<int>` of a length is not negative. -/
def fitsInt (len : UInt32) : Bool := len.toNat < 2 ^ 31

def decrypt (t : TlsSession σ) (buffer : Bytes) (len : UInt32) : TlsSession σ × Bytes :=
  match t.ssl with
  | none => (t, [])
  | some c =>
    match if fitsInt len then E.bioWrite c buffer else none with
    | none => (t, [])
    | some c =>
      let t := ({ t with ssl := some c } : TlsSession σ).progress E
      if t.isHandshakeDone E then t.readAll E else (t, [])

def encrypt (t : TlsSession σ) (buffer : Bytes) (len : UInt32) : TlsSession σ × List Record :=
  match t.ssl with
  | none => (t, [])
  | some c =>
    if E.isInitFinished c && fitsInt len then
      let t := t.produce (E.write c buffer).2.1 (E.write c buffer).2.2
      if (E.write c buffer).1 then t.flushWriteBio else (t, [])
    else (t, [])

/-! ## The order of production -/

/-- **Production order.** `out`, the records handed out, and the write BIO number the records
produced so far. -/
def Numbered (t : TlsSession σ) (out : List Record) : Prop :=
  (out ++ t.writeBio).map Record.num = List.range t.produced

instance (t : TlsSession σ) (out : List Record) : Decidable (t.Numbered out) :=
  inferInstanceAs (Decidable (_ = _))

theorem map_num_numbered (n : ℕ) (rs : List TlsRecord) :
    (numbered n rs).map Record.num = List.range' n rs.length := by
  induction rs generalizing n with
  | nil => rfl
  | cons r rs ih => rw [numbered, List.map_cons, ih, List.length_cons, List.range'_succ]

theorem numbered_new (ssl : Option σ) : (new ssl).Numbered [] := rfl

theorem Numbered.produce {t : TlsSession σ} {out : List Record} (h : t.Numbered out) (c : σ)
    (rs : List TlsRecord) : (t.produce c rs).Numbered out := by
  have hr : List.range t.produced ++ List.range' t.produced rs.length =
      List.range (t.produced + rs.length) := by
    rw [List.range_eq_range', List.range_eq_range', ← List.range'_append_1, Nat.zero_add]
  unfold Numbered TlsSession.produce
  rw [← List.append_assoc, List.map_append, h, map_num_numbered, hr]

theorem Numbered.setSsl {t : TlsSession σ} {out : List Record} (h : t.Numbered out) (c : σ) :
    Numbered ({ t with ssl := some c } : TlsSession σ) out := h

theorem Numbered.flushWriteBio {t : TlsSession σ} {out : List Record} (h : t.Numbered out) :
    t.flushWriteBio.1.Numbered (out ++ t.flushWriteBio.2) := by
  rw [Numbered, TlsSession.flushWriteBio, List.append_nil]
  exact h

theorem Numbered.progress {t : TlsSession σ} {out : List Record} (h : t.Numbered out) :
    (t.progress E).Numbered out := by
  unfold TlsSession.progress
  split
  · exact h
  · split_ifs
    · exact h
    · exact h.produce _ _

theorem Numbered.handshake {t : TlsSession σ} {out : List Record} (h : t.Numbered out) :
    (t.handshake E).1.Numbered (out ++ (t.handshake E).2) := by
  unfold TlsSession.handshake
  split
  · rw [List.append_nil]; exact h
  · exact (h.progress E).flushWriteBio

theorem Numbered.readLoop {t : TlsSession σ} {out : List Record} (h : t.Numbered out) (fuel : ℕ)
    (plain : Bytes) : (t.readLoop E fuel plain).1.Numbered out := by
  induction fuel generalizing t plain with
  | zero => exact h
  | succ fuel ih =>
    unfold TlsSession.readLoop
    split
    · exact h
    · dsimp only
      split
      · exact h.produce _ _
      · exact ih (h.produce _ _) _

theorem Numbered.readAll {t : TlsSession σ} {out : List Record} (h : t.Numbered out) :
    (t.readAll E).1.Numbered out := by
  unfold TlsSession.readAll
  split
  · exact h
  · exact h.readLoop E _ _

theorem Numbered.decrypt {t : TlsSession σ} {out : List Record} (h : t.Numbered out)
    (buffer : Bytes) (len : UInt32) : (t.decrypt E buffer len).1.Numbered out := by
  unfold TlsSession.decrypt
  split
  · exact h
  · split
    · exact h
    · have hp := (h.setSsl ‹σ›).progress E
      dsimp only
      split_ifs
      · exact hp.readAll E
      · exact hp

theorem Numbered.encrypt {t : TlsSession σ} {out : List Record} (h : t.Numbered out)
    (buffer : Bytes) (len : UInt32) :
    (t.encrypt E buffer len).1.Numbered (out ++ (t.encrypt E buffer len).2) := by
  unfold TlsSession.encrypt
  split
  · rw [List.append_nil]; exact h
  · dsimp only
    split_ifs
    · exact (h.produce _ _).flushWriteBio
    · rw [List.append_nil]; exact h.produce _ _
    · rw [List.append_nil]; exact h

/-- **The loop ends by itself**: more fuel reads nothing more. -/
theorem readLoop_add (t : TlsSession σ) (fuel more : ℕ) (plain : Bytes)
    (h : ∀ c, t.ssl = some c → E.buffered c < fuel) :
    t.readLoop E (fuel + more) plain = t.readLoop E fuel plain := by
  induction fuel generalizing t plain with
  | zero =>
    cases hs : t.ssl with
    | none => cases more <;> simp [readLoop, hs]
    | some c => exact absurd (h c hs) (Nat.not_lt_zero _)
  | succ fuel ih =>
    rw [Nat.succ_add_eq_add_succ, Nat.add_succ]
    unfold readLoop
    cases hs : t.ssl with
    | none => rfl
    | some c =>
      dsimp only
      cases hr : (E.read c).1 with
      | none => rfl
      | some b =>
        refine ih _ _ fun c' hc' => ?_
        have h1 := E.buffered_read c (hr ▸ rfl)
        have h2 := h c hs
        rw [← Option.some.inj hc']
        omega

end TlsSession

/-! ## A sample object -/

/-- A client that answers the server's flight with its Finished. Its state says whether the handshake
is done and what is still to be read. -/
def sampleSsl : Ssl (Bool × Bytes) where
  isInitFinished s := s.1
  doHandshake s := if s.2 = [] then (s, [⟨22, [1]⟩]) else ((true, []), [⟨22, [20]⟩])
  bioWrite s b := some (s.1, s.2 ++ b)
  read s :=
    match s.2 with
    | [] => (none, s, [])
    | b :: rest => (some [b], (s.1, rest), [])
  write s b := (true, s, [⟨23, b⟩])
  buffered s := s.2.length
  buffered_read s h := by
    match hs : s.2 with
    | [] => rw [hs] at h; cases h
    | b :: rest =>
      exact Nat.lt_succ_self _

end Network

end AnoMap
