import Mathlib.Data.List.Basic

/-!
# Composed writes on a stream socket

A composed write sends its buffer in one or more non-empty chunks. Several of them may be
outstanding on one socket, and then their chunks interleave.

* `start`, `accept`, `fail`, `close`: a write begins; the socket takes a chunk of one of the
  outstanding writes; a write fails; the socket is closed.
* `Serial`: at most one write is outstanding, and the bytes sent with what is left of it are the
  buffers started so far. Only `Serial.start` asks for something: no write may be outstanding.
-/

set_option autoImplicit false

/-- A stream socket; `started` and `sent` are what was asked of it and what it has put out. -/
structure StreamSocket where
  isOpen : Bool
  broken : Bool
  writing : List (List UInt8)
  started : List (List UInt8)
  sent : List UInt8
  deriving DecidableEq, Repr

namespace StreamSocket

/-- A connected socket. -/
def connected : StreamSocket := ⟨true, false, [], [], []⟩

/-- Begin to send `buf`. -/
def start (s : StreamSocket) (buf : List UInt8) : StreamSocket :=
  { s with writing := s.writing ++ [buf], started := s.started ++ [buf] }

/-- The socket can take `n` bytes of its `i`-th outstanding write. -/
def CanAccept (s : StreamSocket) (i n : ℕ) : Prop :=
  s.broken = false ∧ 0 < n ∧ n ≤ ((s.writing[i]?).getD []).length

instance (s : StreamSocket) (i n : ℕ) : Decidable (s.CanAccept i n) :=
  inferInstanceAs (Decidable (_ ∧ _))

/-- That chunk ends the write. -/
def Ends (s : StreamSocket) (i n : ℕ) : Prop := n = ((s.writing[i]?).getD []).length

instance (s : StreamSocket) (i n : ℕ) : Decidable (s.Ends i n) := inferInstanceAs (Decidable (_ = _))

/-- Take `n` bytes of the `i`-th outstanding write. -/
def accept (s : StreamSocket) (i n : ℕ) : StreamSocket :=
  let buf := (s.writing[i]?).getD []
  { s with
    writing := if s.Ends i n then s.writing.eraseIdx i else s.writing.set i (buf.drop n)
    sent := s.sent ++ buf.take n }

/-- The `i`-th outstanding write fails, and with it the connection. -/
def fail (s : StreamSocket) (i : ℕ) : StreamSocket :=
  { s with broken := true, writing := s.writing.eraseIdx i }

/-- Close the socket: the outstanding writes are aborted. -/
def close (s : StreamSocket) : StreamSocket := { s with isOpen := false, writing := [] }

/-- **Serial writes.** At most one is outstanding, and what was sent is whole buffers up to it. -/
structure Serial (s : StreamSocket) : Prop where
  one : s.writing.length ≤ 1
  closed : s.isOpen = false → s.writing = []
  sent_prefix : s.sent <+: s.started.flatten
  whole : s.isOpen = true → s.broken = false → s.sent ++ s.writing.flatten = s.started.flatten

theorem Serial.connected : Serial connected :=
  ⟨Nat.zero_le _, fun _ => rfl, List.prefix_rfl, fun _ _ => rfl⟩

theorem Serial.start {s : StreamSocket} (h : Serial s) (ho : s.isOpen = true) (hw : s.writing = [])
    (buf : List UInt8) : Serial (s.start buf) where
  one := by simp [StreamSocket.start, hw]
  closed := fun hc => by rw [StreamSocket.start, ho] at hc; cases hc
  sent_prefix := by
    simp only [StreamSocket.start, List.flatten_append]
    exact h.sent_prefix.trans (List.prefix_append _ _)
  whole := fun ho hb => by
    have := h.whole ho hb
    rw [hw, List.flatten_nil, List.append_nil] at this
    simp [StreamSocket.start, hw, this]

theorem Serial.accept {s : StreamSocket} (h : Serial s) {i n : ℕ} (ha : s.CanAccept i n) :
    Serial (s.accept i n) := by
  obtain ⟨hb, hn, hle⟩ := ha
  -- the only write that can take a byte is the one outstanding
  obtain ⟨buf, hw, hi⟩ : ∃ buf, s.writing = [buf] ∧ i = 0 := by
    have h1 := h.one
    match hw : s.writing with
    | [] => rw [hw] at hle; simp at hle; omega
    | [buf] =>
      refine ⟨buf, rfl, ?_⟩
      by_contra hi
      rw [hw, List.getElem?_eq_none (by simp; omega)] at hle
      simp at hle
      omega
    | _ :: _ :: _ => rw [hw] at h1; simp at h1
  subst hi
  have ho : s.isOpen = true := by
    by_contra hc
    rw [h.closed (Bool.eq_false_iff.mpr hc)] at hw
    cases hw
  have hwhole := h.whole ho hb
  rw [hw, List.flatten_singleton] at hwhole
  rw [hw] at hle
  simp only [List.getElem?_cons_zero, Option.getD_some] at hle
  unfold StreamSocket.accept Ends
  simp only [hw, List.getElem?_cons_zero, Option.getD_some, List.eraseIdx_cons_zero,
    List.set_cons_zero]
  refine ⟨?_, fun hc => ?_, ?_, fun _ _ => ?_⟩
  · split_ifs <;> simp
  · rw [ho] at hc; cases hc
  · rw [← hwhole]
    exact (List.prefix_append_right_inj _).mpr (List.take_prefix n buf)
  · rw [← hwhole, List.append_assoc]
    congr 1
    split_ifs with he
    · rw [List.flatten_nil, List.append_nil, List.take_of_length_le (Nat.le_of_eq he.symm)]
    · rw [List.flatten_singleton, List.take_append_drop]

theorem Serial.fail {s : StreamSocket} (h : Serial s) (i : ℕ) : Serial (s.fail i) where
  one := Nat.le_trans (List.length_eraseIdx_le _ _) h.one
  closed := fun hc => by rw [StreamSocket.fail, h.closed hc, List.eraseIdx_nil]
  sent_prefix := h.sent_prefix
  whole := fun _ hb => by cases hb

theorem Serial.close {s : StreamSocket} (h : Serial s) : Serial s.close where
  one := Nat.zero_le _
  closed := fun _ => rfl
  sent_prefix := h.sent_prefix
  whole := fun ho => by cases ho

end StreamSocket
