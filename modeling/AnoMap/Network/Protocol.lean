import Mathlib.Data.List.Basic
import Mathlib.Data.Nat.Bitwise

/-!
# The wire protocol

Message types, messages and the frames that carry them: a type byte, a 4-byte little-endian length
and the payload.

* `lengthOfBytes_lengthBytes`: the length field is read back as it was written.
-/

set_option autoImplicit false

namespace AnoMap

/-- `std::vector<uint8_t>`. -/
abbrev Bytes := List UInt8

namespace Network

inductive MessageType where
  | login | success | fail | device | available | ai | camera | assign | meta_ | image
  | tlsHandshake
  deriving DecidableEq, Repr

/-- The type byte. -/
def MessageType.code : MessageType → UInt8
  | login => 0x01
  | success => 0x02
  | fail => 0x03
  | device => 0x04
  | available => 0x05
  | ai => 0x06
  | camera => 0x07
  | assign => 0x08
  | meta_ => 0x09
  | image => 0x0a
  | tlsHandshake => 0x0b

structure Message where
  type : UInt8
  length : UInt32
  payload : Bytes
  deriving DecidableEq, Repr

/-- The bytes `memcpy` copies from a `uint32_t`. -/
def lengthBytes (len : UInt32) : Bytes :=
  [len.toUInt8, (len >>> 8).toUInt8, (len >>> 16).toUInt8, (len >>> 24).toUInt8]

/-- The `uint32_t` that `memcpy` writes from the first four bytes. -/
def lengthOfBytes (b : Bytes) : UInt32 :=
  (b.getD 0 0).toUInt32 ||| (b.getD 1 0).toUInt32 <<< 8 ||| (b.getD 2 0).toUInt32 <<< 16 |||
    (b.getD 3 0).toUInt32 <<< 24

theorem lengthOfBytes_lengthBytes (len : UInt32) : lengthOfBytes (lengthBytes len) = len := by
  apply UInt32.toNat_inj.mp
  apply Nat.eq_of_testBit_eq
  intro i
  have h : 32 ≤ i → len.toNat.testBit i = false := fun h =>
    Nat.testBit_lt_two_pow (Nat.lt_of_lt_of_le len.toNat_lt (Nat.pow_le_pow_right (by decide) h))
  simp only [lengthOfBytes, lengthBytes, List.getD_cons_zero, List.getD_cons_succ, UInt32.toNat_or,
    UInt32.toNat_shiftLeft, UInt8.toNat_toUInt32, UInt32.toNat_toUInt8, UInt32.toNat_shiftRight,
    Nat.testBit_lor, Nat.testBit_mod_two_pow, Nat.testBit_shiftLeft, Nat.testBit_shiftRight,
    UInt32.reduceToNat, Nat.reduceMod]
  -- bit `i` comes from the byte it lies in
  rcases Nat.lt_or_ge i 8 with h1 | h1
  · grind
  rcases Nat.lt_or_ge i 16 with h2 | h2
  · have : 8 + (i - 8) = i := by omega
    grind
  rcases Nat.lt_or_ge i 24 with h3 | h3
  · have : 16 + (i - 16) = i := by omega
    grind
  · have : 24 + (i - 24) = i := by omega
    grind

/-- The write buffer of a message: `5 + payload.size()` bytes, of which the length field and the
copied payload hold `static_cast<uint32_t>(payload.size())`. -/
def frame (type : UInt8) (payload : Bytes) : Bytes :=
  let len := UInt32.ofNat payload.length
  type :: lengthBytes len ++ payload.take len.toNat ++
    List.replicate (payload.length - len.toNat) 0

theorem frame_of_lt (type : UInt8) {payload : Bytes} (h : payload.length < 2 ^ 32) :
    frame type payload = type :: lengthBytes (UInt32.ofNat payload.length) ++ payload := by
  have hl : (UInt32.ofNat payload.length).toNat = payload.length := by
    rw [UInt32.toNat_ofNat']
    exact Nat.mod_eq_of_lt h
  simp only [frame, hl, List.take_length, Nat.sub_self, List.replicate_zero, List.append_nil]

end Network

end AnoMap
