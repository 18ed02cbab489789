import AnoMap.Lib.Machine
import AnoMap.Lib.StreamSocket
import AnoMap.Network.TlsSession

/-!
# The TCP session

A `TcpSession` with the handlers posted to its strand, its outstanding read and its socket. All
three callbacks are set, as they are in every session `NetworkService` makes.

* `sendMessage`, `handleTlsOutput`, `onHeader`, `onBody`, `onWritten`: the handlers that run on the
  strand.
* `drained`: the engine output that the next handler finds.
* `Event`: what can happen to a session: a call of `sendMessage` or `close`, the next handler of the
  strand, and what the network does. `step` ignores an event that is not possible.
-/

set_option autoImplicit false

namespace AnoMap

namespace Network

/-- The two reads of a session. -/
inductive ReadOp where
  | header | body
  deriving DecidableEq, Repr

/-- A handler on the strand; `none` is a read that failed. -/
inductive Handler where
  | sendMessage (msg : Message)
  | writeTls (records : List Record)
  | wrote (ok : Bool)
  | read (op : ReadOp) (data : Option Bytes)
  deriving DecidableEq, Repr

/-- A callback the session invokes. -/
inductive TcpOutput where
  | message (msg : Message)
  | connected
  | disconnected
  deriving DecidableEq, Repr

/-- `handed` lists the TLS records in the order in which they were given to the socket. -/
structure TcpSession (σ : Type) where
  socket : StreamSocket
  strand : List Handler
  reading : Option ReadOp
  currentMessage : Message
  disconnected : Bool
  handshakeCompleted : Bool
  tlsSession : Option (TlsSession σ)
  handed : List Record
  deriving DecidableEq, Repr

namespace TcpSession

variable {σ : Type} (E : Ssl σ)

def setSocket (s : TcpSession σ) (socket : StreamSocket) : TcpSession σ := { s with socket := socket }

def setTls (s : TcpSession σ) (tls : Option (TlsSession σ)) : TcpSession σ :=
  { s with tlsSession := tls }

def setMessage (s : TcpSession σ) (type : UInt8) (length : UInt32) (payload : Bytes) :
    TcpSession σ := { s with currentMessage := ⟨type, length, payload⟩ }

def post (s : TcpSession σ) (h : Handler) : TcpSession σ := { s with strand := s.strand ++ [h] }

/-- `async_write` of a buffer that carries `records`. On a closed socket it fails at once. -/
def asyncWrite (s : TcpSession σ) (buf : Bytes) (records : List Record) : TcpSession σ :=
  if s.socket.isOpen then
    { s with socket := s.socket.start buf, handed := s.handed ++ records }
  else s.post (.wrote false)

/-- `async_read` of the header or of the body. -/
def asyncRead (s : TcpSession σ) (op : ReadOp) : TcpSession σ :=
  if s.socket.isOpen then { s with reading := some op } else s.post (.read op none)

/-- The handlers of the operations that closing the socket aborts. -/
def aborted (s : TcpSession σ) : List Handler :=
  s.reading.toList.map (fun op => .read op none) ++ s.socket.writing.map fun _ => .wrote false

def close (s : TcpSession σ) : TcpSession σ :=
  { s with socket := s.socket.close, reading := none, strand := s.strand ++ s.aborted }

def handleDisconnect (s : TcpSession σ) : TcpSession σ × List TcpOutput :=
  if s.disconnected then (s, []) else (close { s with disconnected := true }, [.disconnected])

def readHeader (s : TcpSession σ) : TcpSession σ := s.asyncRead .header

def readBody (s : TcpSession σ) : TcpSession σ := s.asyncRead .body

/-- The TLS session after `Handshake()` and what it returns. -/
def tlsOutput (s : TcpSession σ) : Option (TlsSession σ) × List Record :=
  match s.tlsSession with
  | none => (none, [])
  | some t => (some (t.handshake E).1, (t.handshake E).2)

def handleTlsOutput (s : TcpSession σ) : TcpSession σ :=
  let r := s.tlsOutput E
  if (recordBytes r.2).isEmpty then s.setTls r.1 else (s.setTls r.1).post (.writeTls r.2)

/-- The handler posted by `handleTlsOutput`. -/
def writeTls (s : TcpSession σ) (response : List Record) : TcpSession σ :=
  s.asyncWrite (frame MessageType.tlsHandshake.code (recordBytes response)) response

/-- The handler posted by `sendMessage`. -/
def sendMessage (s : TcpSession σ) (msg : Message) : TcpSession σ :=
  match s.tlsSession with
  | none => s.asyncWrite (frame msg.type msg.payload) []
  | some t =>
    if 0 < msg.length then
      let r := t.encrypt E (msg.payload.take msg.length.toNat) msg.length
      (s.setTls (some r.1)).asyncWrite (frame msg.type (recordBytes r.2)) r.2
    else s.asyncWrite (frame msg.type msg.payload) []

/-- The handler of both writes. -/
def onWritten (s : TcpSession σ) (ok : Bool) : TcpSession σ × List TcpOutput :=
  if ok then (s, []) else s.handleDisconnect

/-- `std::vector::resize`. -/
def resize (b : Bytes) (n : ℕ) : Bytes := b.take n ++ List.replicate (n - b.length) 0

/-- The handler of `readHeader`. -/
def onHeader (s : TcpSession σ) (data : Option Bytes) : TcpSession σ × List TcpOutput :=
  match data with
  | none => s.handleDisconnect
  | some headerBuffer =>
    let type := headerBuffer.getD 0 0
    let length := lengthOfBytes (headerBuffer.drop 1)
    if 0 < length then
      let payload := resize s.currentMessage.payload length.toNat
      ((s.setMessage type length payload).readBody, [])
    else if s.tlsSession.isSome ∧ type = MessageType.tlsHandshake.code then
      (((s.setMessage type length []).handleTlsOutput E).readHeader, [])
    else ((s.setMessage type length []).readHeader, [.message ⟨type, length, []⟩])

/-- `messageHandler_` and `readHeader` at the end of the body's handler. -/
def dispatch (s : TcpSession σ) : TcpSession σ × List TcpOutput :=
  (s.readHeader, if 0 < s.currentMessage.length then [.message s.currentMessage] else [])

/-- The session after `decrypt` of the body. -/
def decryptBody (s : TcpSession σ) (t : TlsSession σ) (payload : Bytes) : TcpSession σ :=
  let r := t.decrypt E payload s.currentMessage.length
  (s.setTls (some r.1)).setMessage s.currentMessage.type (UInt32.ofNat r.2.length) r.2

/-- `connectedHandler_` once the handshake is done. -/
def completeHandshake (s : TcpSession σ) : TcpSession σ × List TcpOutput :=
  if s.tlsSession.any (·.isHandshakeDone E) ∧ ¬ s.handshakeCompleted then
    ({ s with handshakeCompleted := true }, [.connected])
  else (s, [])

/-- The handler of `readBody`. -/
def onBody (s : TcpSession σ) (data : Option Bytes) : TcpSession σ × List TcpOutput :=
  match data with
  | none => s.handleDisconnect
  | some payload =>
    let type := s.currentMessage.type
    let length := s.currentMessage.length
    match s.tlsSession with
    | none => (s.setMessage type length payload).dispatch
    | some t =>
      if 0 < length then
        let s := (s.decryptBody E t payload).handleTlsOutput E
        if type = MessageType.tlsHandshake.code then
          ((s.completeHandshake E).1.readHeader, (s.completeHandshake E).2)
        else s.dispatch
      else (s.setMessage type length payload).dispatch

/-- What `tlsOutput` is when the handler, as the next one, calls `handleTlsOutput`. -/
def drained (s : TcpSession σ) : Handler → Option (TlsSession σ) × List Record
  | .read .header (some headerBuffer) =>
    if 0 < lengthOfBytes (headerBuffer.drop 1) then (none, [])
    else if headerBuffer.getD 0 0 = MessageType.tlsHandshake.code then s.tlsOutput E
    else (none, [])
  | .read .body (some payload) =>
    match s.tlsSession with
    | none => (none, [])
    | some t =>
      if 0 < s.currentMessage.length then (s.decryptBody E t payload).tlsOutput E else (none, [])
  | _ => (none, [])

def runHandler (s : TcpSession σ) : Handler → TcpSession σ × List TcpOutput
  | .sendMessage msg => (s.sendMessage E msg, [])
  | .writeTls records => (s.writeTls records, [])
  | .wrote ok => s.onWritten ok
  | .read .header data => s.onHeader E data
  | .read .body data => s.onBody E data

/-- The session as constructed on a connected socket. -/
def new (tls : Option (TlsSession σ)) : TcpSession σ where
  socket := .connected
  strand := []
  reading := none
  currentMessage := ⟨0, 0, []⟩
  disconnected := false
  handshakeCompleted := false
  tlsSession := tls
  handed := []

def start (s : TcpSession σ) : TcpSession σ × List TcpOutput :=
  if s.tlsSession.isSome then ((s.handleTlsOutput E).readHeader, [])
  else (s.readHeader, [.connected])

/-! ## Runs -/

/-- What can happen to a session: a call from outside, the strand running its next handler, the
socket taking `n` bytes of its `i`-th outstanding write or failing it, the outstanding read ending
with its bytes or with an error. -/
inductive Event where
  | sendMessage (msg : Message)
  | close
  | run
  | accept (i n : ℕ)
  | writeFails (i : ℕ)
  | arrive (bytes : Bytes)
  | readFails
  deriving DecidableEq, Repr

/-- The number of bytes an outstanding read waits for. -/
def expects (s : TcpSession σ) : ReadOp → ℕ
  | .header => 5
  | .body => s.currentMessage.length.toNat

/-- The bytes of the outstanding read arrive, or it fails. -/
def endRead (s : TcpSession σ) (data : Option Bytes) : TcpSession σ :=
  match s.reading with
  | none => s
  | some op =>
    if data.all (·.length = s.expects op) then
      post { s with reading := none } (.read op data)
    else s

def acceptBytes (s : TcpSession σ) (i n : ℕ) : TcpSession σ :=
  if s.socket.CanAccept i n then
    let s' := s.setSocket (s.socket.accept i n)
    if s.socket.Ends i n then s'.post (.wrote true) else s'
  else s

def failWrite (s : TcpSession σ) (i : ℕ) : TcpSession σ :=
  if i < s.socket.writing.length then (s.setSocket (s.socket.fail i)).post (.wrote false) else s

/-- The strand runs its next handler. -/
def run (s : TcpSession σ) : TcpSession σ × List TcpOutput :=
  match s.strand with
  | [] => (s, [])
  | h :: hs => runHandler E { s with strand := hs } h

def step (s : TcpSession σ) : Event → TcpSession σ × List TcpOutput
  | .sendMessage msg => (s.post (.sendMessage msg), [])
  | .close => (s.close, [])
  | .run => s.run E
  | .accept i n => (s.acceptBytes i n, [])
  | .writeFails i => (s.failWrite i, [])
  | .arrive bytes => (s.endRead (some bytes), [])
  | .readFails => (s.endRead none, [])

/-- The state a run of a session starts in. -/
def init (tls : Option (TlsSession σ)) : TcpSession σ := ((new tls).start E).1

/-- A session over `sampleSsl`. -/
def sampleInit : TcpSession (Bool × Bytes) := init sampleSsl (some (.new (some (false, []))))

/-- The events of its handshake, with every write sent in one chunk. -/
def sampleHandshake : List Event :=
  [.run, .accept 0 11, .run, .arrive [0x0b, 1, 0, 0, 0], .run, .arrive [2], .run, .run,
    .accept 0 11, .run]

end TcpSession

end Network

end AnoMap
