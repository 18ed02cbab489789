import AnoMap.Network.Reassembly

/-!
# The UDP session

A `UdpSession`: its receive loop, the dispatch of a datagram and the reassembly behind it. The DTLS
session is a parameter. What a datagram sent with `sendRaw` leads to is left out: its handler only
logs.

* `handlePacket`, `onReceive`, `onWait`: the dispatch of a datagram, the handler of a receive and the
  handler of the reassembly timer.
* **`handlePacket_reassembly`**: a datagram leaves the reassembly alone or is one call of
  `handleImageFragment` with a non-empty piece.
-/

set_option autoImplicit false

namespace AnoMap

namespace Network

/-- The calls of a `MediaDTLS::Session` on its state. -/
structure Dtls (δ : Type) where
  isHandshakeDone : δ → Bool
  handshake : δ → Bytes → δ × Bytes
  decrypt : δ → Bytes → δ × Bytes

structure Endpoint where
  address : UInt32
  port : UInt16
  deriving DecidableEq, Repr

structure Datagram where
  sender : Endpoint
  bytes : Bytes
  deriving DecidableEq, Repr

/-- A `UdpSession`. Its socket is open as long as the object lives; `receiving` says whether a
receive is outstanding, `received` lists the handlers of ended ones, `none` an error. -/
structure UdpSession (δ : Type) where
  localPort : UInt16
  receiving : Bool
  received : List (Option Datagram)
  serverEndpoint : Endpoint
  dtlsSession : δ
  reassembly : Reassembly

namespace UdpSession

/-- What a handler does to the outside. -/
inductive Output where
  | callback (o : UdpOutput)
  | sendRaw (data : Bytes) (endpoint : Endpoint)
  deriving DecidableEq, Repr

variable {δ : Type} (D : Dtls δ)

/-- `sizeof(PacketHeader)` and `sizeof(ImageHeader)`, both packed. -/
def packetHeaderSize : ℕ := 5

def imageHeaderSize : ℕ := 8

/-- The constructor. -/
def new (localPort : UInt16) (dtls : δ) (onComplete : Bool) : UdpSession δ where
  localPort := localPort
  receiving := false
  received := []
  serverEndpoint := ⟨0, 0⟩
  dtlsSession := dtls
  reassembly := .init onComplete true

def setExpectedMeta (u : UdpSession δ) (meta_ : String) : UdpSession δ :=
  { u with reassembly := u.reassembly.setExpectedMeta meta_ }

/-- The session's endpoint is set and the `ClientHello` sent to it. -/
def setServerEndpoint (u : UdpSession δ) (ep : Endpoint) : UdpSession δ × List Output :=
  let r := D.handshake u.dtlsSession []
  ({ u with serverEndpoint := ep, dtlsSession := r.1 },
    if r.2.isEmpty then [] else [.sendRaw r.2 ep])

def doReceive (u : UdpSession δ) : UdpSession δ := { u with receiving := true }

def start (u : UdpSession δ) : UdpSession δ := u.doReceive

/-- `dtlsSession_->Handshake` on received bytes, its response sent as `wrap` makes it. -/
def handshake (u : UdpSession δ) (incoming : Bytes) (wrap : Bytes → Bytes) :
    UdpSession δ × List Output :=
  let r := D.handshake u.dtlsSession incoming
  ({ u with dtlsSession := r.1 },
    if r.2.isEmpty then [] else [.sendRaw (wrap r.2) u.serverEndpoint])

/-- `handlePacket` on the first `length` bytes of the receive buffer. -/
def handlePacket (u : UdpSession δ) (data : Bytes) : UdpSession δ × List Output :=
  let type := data.getD 0 0
  if data.length < imageHeaderSize then
    if type = MessageType.tlsHandshake.code then u.handshake D data id else (u, [])
  else if type = MessageType.tlsHandshake.code then
    u.handshake D (data.drop packetHeaderSize) (frame MessageType.tlsHandshake.code)
  else if type = MessageType.image.code then
    if D.isHandshakeDone u.dtlsSession then
      let r := D.decrypt u.dtlsSession (data.drop imageHeaderSize)
      if r.2.isEmpty then ({ u with dtlsSession := r.1 }, [])
      else
        let h := u.reassembly.handleImageFragment
          ⟨data.getD 5 0, data.getD 6 0, data.getD 7 0, r.2⟩
        ({ u with dtlsSession := r.1, reassembly := h.1 }, h.2.map .callback)
    else (u, [])
  else (u, [])

/-- `if (server_endpoint_.port() == 0) server_endpoint_ = sender_endpoint_`. -/
def learnEndpoint (u : UdpSession δ) (sender : Endpoint) : UdpSession δ :=
  if u.serverEndpoint.port = 0 then { u with serverEndpoint := sender } else u

/-- The handler of a receive. -/
def onReceive (u : UdpSession δ) (r : Option Datagram) : UdpSession δ × List Output :=
  match r with
  | none => (u, [])
  | some d =>
    if d.bytes.isEmpty then (u.doReceive, [])
    else
      let h := (u.learnEndpoint d.sender).handlePacket D d.bytes
      (h.1.doReceive, h.2)

/-- The handler of a wait armed for `frameNo`; `none`: it never returns. -/
def onWait (u : UdpSession δ) (frameNo : UInt8) : Option (UdpSession δ × List Output) :=
  (u.reassembly.onReassemblyWait frameNo).map fun h =>
    ({ u with reassembly := h.1 }, h.2.map .callback)

/-- **One datagram, at most one fragment.** -/
theorem handlePacket_reassembly (u : UdpSession δ) (data : Bytes) :
    (u.handlePacket D data).1.reassembly = u.reassembly ∨
      ∃ c : Fragment, c.data ≠ [] ∧
        (u.handlePacket D data).1.reassembly = (u.reassembly.handleImageFragment c).1 ∧
        (u.handlePacket D data).2 = (u.reassembly.handleImageFragment c).2.map .callback := by
  unfold handlePacket
  dsimp only
  split_ifs with hsmall hraw hhand himage hdone hempty
  · exact Or.inl rfl
  · exact Or.inl rfl
  · exact Or.inl rfl
  · exact Or.inl rfl
  · exact Or.inr ⟨_, fun h => hempty (by rw [List.isEmpty_iff]; exact h), rfl, rfl⟩
  · exact Or.inl rfl
  · exact Or.inl rfl

end UdpSession

end Network

end AnoMap
