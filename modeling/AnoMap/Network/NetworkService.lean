import AnoMap.Network.TcpSession
import AnoMap.Network.UdpSession

/-!
# The network service

A `NetworkService` from a call of `connect` to the end of `disconnect`: the handlers posted to its
strand, the connect operation, its TCP session and its UDP sessions. An `io_context` and what
hangs on it belong to one such period.

* `Task`, `runTask`: the handlers posted to the service's strand; `onConnect`: the handler of the
  connect operation.
* `ReadyHandler`, `runReady`: the handlers that are ready to run, on whatever strand.
* `Event`, `step`: what can happen; `step` ignores an event that is not possible.
* `Outstanding`: an asynchronous operation has not ended.
-/

set_option autoImplicit false

namespace AnoMap

namespace Network

/-! ## Messages -/

/-- The callbacks that take the body of a message. -/
inductive Callback where
  | onLoginResult | onLoginFail | onDeviceStatus | onAiResult | onCameraList | onAssign
  | onMetaResult | onImageMeta
  deriving DecidableEq, Repr

/-- The `switch` of `MessageProcessor::processMessage`. -/
def callbackOf (type : UInt8) : Option Callback :=
  ([(MessageType.success, Callback.onLoginResult), (.fail, .onLoginFail),
    (.device, .onDeviceStatus), (.available, .onDeviceStatus), (.ai, .onAiResult),
    (.camera, .onCameraList), (.assign, .onAssign), (.meta_, .onMetaResult),
    (.image, .onImageMeta)].find? fun e => e.1.code = type).map Prod.snd

/-- `MessageProcessor::processMessage`: the callback and the body it is invoked with. -/
def processMessage (msg : Message) : Option (Callback × Bytes) :=
  if msg.payload.isEmpty then none else (callbackOf msg.type).map fun c => (c, msg.payload)

/-- A `std::string` of bytes. -/
def stdString (b : Bytes) : String := String.ofList (b.map fun x => Char.ofNat x.toNat)

/-- The bytes of a `std::string`. -/
def stdBytes (s : String) : Bytes := s.toList.map fun c => UInt8.ofNat c.toNat

/-- `reply.dump()`. -/
def portJson (port : UInt16) : String := "\x7b\"port\":" ++ toString port.toNat ++ "\x7d"

/-! ## The state -/

/-- A handler on the service's strand. `connect` says whether the name resolves. -/
inductive Task where
  | connect (resolves : Bool)
  | connected
  | lost
  | process (msg : Message)
  | imageMeta (json : Bytes)
  | send (type : UInt8) (body : Bytes)
  | cleanup
  deriving DecidableEq, Repr

/-- What the service is built on: the TLS and DTLS objects, the ports that new UDP sockets get and
which of the application's callbacks are set. `newTls` is the session of a new connection, null when
there is no TLS context. -/
structure Env (σ δ : Type) where
  ssl : Ssl σ
  dtls : Dtls δ
  newTls : Option (TlsSession σ)
  newDtls : δ
  localPort : ℕ → UInt16
  isSet : Callback → Bool
  onConnected : Bool
  onImageData : Bool

/-- What the application is told. -/
inductive AppOutput where
  | onConnected
  | callback (c : Callback) (body : Bytes)
  | onImageData (image : Bytes) (meta_ : String)
  deriving DecidableEq, Repr

/-- `session` and `udpSession` are the members `session_` and `udpSession_`, the latter as an index
into `udps`, which lists every UDP session made; a session lives on in its own handlers. `sessions`
counts the sessions made. `halted`: no handler runs any more, because an exception left
`io_context::run` or a handler never returns. -/
structure NetworkService (σ δ : Type) where
  connected : Bool
  session : Bool
  processor : Bool
  udpSession : Option ℕ
  strand : List Task
  connecting : Bool
  connectDone : Option Bool
  tcp : Option (TcpSession σ)
  udps : List (UdpSession δ)
  sessions : ℕ
  halted : Bool

namespace NetworkService

variable {σ δ : Type} (E : Env σ δ)

/-- After `connect`; `connected_` may be left over from an earlier connection. -/
def init (connected resolves : Bool) : NetworkService σ δ where
  connected := connected
  session := false
  processor := true
  udpSession := none
  strand := [.connect resolves]
  connecting := false
  connectDone := none
  tcp := none
  udps := []
  sessions := 0
  halted := false

def post (s : NetworkService σ δ) (tasks : List Task) : NetworkService σ δ :=
  { s with strand := s.strand ++ tasks }

/-- What the callbacks of a TCP session post. -/
def taskOfTcp : TcpOutput → Task
  | .message msg => .process msg
  | .connected => .connected
  | .disconnected => .lost

/-- What the callbacks of a UDP session post. -/
def taskOfUdp : UdpSession.Output → Option Task
  | .callback (.sendControl json) => some (.send MessageType.image.code (stdBytes json))
  | .callback (.onComplete _ _) | .sendRaw _ _ => none

/-- What the callbacks of a UDP session tell the application. -/
def appOfUdp : UdpSession.Output → Option AppOutput
  | .callback (.onComplete image meta_) => some (.onImageData image meta_)
  | .callback (.sendControl _) | .sendRaw _ _ => none

/-- The TCP session goes on to `r.1` and invokes the callbacks `r.2`. -/
def setTcp (s : NetworkService σ δ) (r : TcpSession σ × List TcpOutput) : NetworkService σ δ :=
  post { s with tcp := some r.1 } (r.2.map taskOfTcp)

/-- The `i`-th UDP session goes on to `r.1` and invokes the callbacks `r.2`. -/
def setUdp (s : NetworkService σ δ) (i : ℕ) (r : UdpSession δ × List UdpSession.Output) :
    NetworkService σ δ × List AppOutput :=
  (post { s with udps := s.udps.set i r.1 } (r.2.filterMap taskOfUdp), r.2.filterMap appOfUdp)

/-! ## The handlers -/

/-- `if (!udpSession_)` of the IMAGE metadata handler. -/
def openUdp (s : NetworkService σ δ) : NetworkService σ δ :=
  match s.udpSession with
  | some _ => s
  | none =>
    { s with
      udpSession := some s.udps.length
      udps := s.udps ++
        [(UdpSession.new (E.localPort s.sessions) E.newDtls E.onImageData).start]
      sessions := s.sessions + 1 }

/-- `setExpectedMeta` and the reply with the bound port. -/
def replyPort (s : NetworkService σ δ) (json : Bytes) : NetworkService σ δ :=
  match s.udpSession.bind fun i => (s.udps[i]?).map fun u => (i, u) with
  | none => s
  | some (i, u) =>
    post { s with udps := s.udps.set i (u.setExpectedMeta (stdString json)) }
      [.send MessageType.image.code (stdBytes (portJson u.localPort))]

/-- The handler of IMAGE metadata. -/
def onImageMeta (s : NetworkService σ δ) (json : Bytes) : NetworkService σ δ × List AppOutput :=
  ((s.openUdp E).replyPort json, if E.isSet .onImageMeta then [.callback .onImageMeta json] else [])

/-- The handler of a received message. IMAGE metadata goes to the service's own callback, which
posts its handler. -/
def process (s : NetworkService σ δ) (msg : Message) : NetworkService σ δ × List AppOutput :=
  match if s.processor then processMessage msg else none with
  | none => (s, [])
  | some (.onImageMeta, body) => (s.post [.imageMeta body], [])
  | some (c, body) => (s, if E.isSet c then [.callback c body] else [])

/-- The handler posted by `send`. -/
def sendTask (s : NetworkService σ δ) (type : UInt8) (body : Bytes) : NetworkService σ δ :=
  if s.session ∧ s.connected then
    { s with tcp := s.tcp.map (·.post (.sendMessage ⟨type, UInt32.ofNat body.length, body⟩)) }
  else s

/-- The handler dispatched by `disconnect`. -/
def cleanup (s : NetworkService σ δ) : NetworkService σ δ :=
  { s with
    connected := false
    tcp := if s.session then s.tcp.map (·.close) else s.tcp
    session := false
    udpSession := none
    processor := false }

def runTask (s : NetworkService σ δ) : Task → NetworkService σ δ × List AppOutput
  | .connect resolves => (if resolves then { s with connecting := true } else { s with halted := true }, [])
  | .connected => ({ s with connected := true }, if E.onConnected then [.onConnected] else [])
  | .lost => ({ s with connected := false }, [])
  | .process msg => s.process E msg
  | .imageMeta json => s.onImageMeta E json
  | .send type body => (s.sendTask type body, [])
  | .cleanup => (s.cleanup, [])

/-- The handler of `async_connect`. -/
def onConnect (s : NetworkService σ δ) (ok : Bool) : NetworkService σ δ :=
  if ok then
    setTcp { s with session := true, sessions := s.sessions + 1 }
      ((TcpSession.new E.newTls).start E.ssl)
  else s

/-- A handler that is ready: the next one of a strand, that of the connect operation, that of a
UDP receive or that of an expired wait. -/
inductive ReadyHandler where
  | task
  | connect
  | tcp
  | receive (i : ℕ)
  | wait (i : ℕ)
  deriving DecidableEq, Repr

/-- The handler of the `i`-th UDP session's receive. -/
def runReceive (s : NetworkService σ δ) (i : ℕ) : NetworkService σ δ × List AppOutput :=
  match s.udps[i]? with
  | none => (s, [])
  | some u =>
    match u.received with
    | [] => (s, [])
    | r :: rs => s.setUdp i (({ u with received := rs } : UdpSession δ).onReceive E.dtls r)

/-- The expired wait is taken off the timer. -/
def popWait (u : UdpSession δ) : UdpSession δ :=
  { u with reassembly := { u.reassembly with
      reassemblyTimer := u.reassembly.reassemblyTimer.pop } }

/-- The handler of an expired wait of the `i`-th UDP session. -/
def runWait (s : NetworkService σ δ) (i : ℕ) : NetworkService σ δ × List AppOutput :=
  match s.udps[i]? with
  | none => (s, [])
  | some u =>
    match u.reassembly.reassemblyTimer.fired with
    | [] => (s, [])
    | frameNo :: _ =>
      match (popWait u).onWait frameNo with
      | none => ({ s with halted := true }, [])
      | some r => s.setUdp i r

def runReady (s : NetworkService σ δ) : ReadyHandler → NetworkService σ δ × List AppOutput
  | .task =>
    match s.strand with
    | [] => (s, [])
    | t :: ts => runTask E { s with strand := ts } t
  | .connect =>
    match s.connectDone with
    | none => (s, [])
    | some ok => (onConnect E { s with connectDone := none } ok, [])
  | .tcp =>
    match s.tcp with
    | none => (s, [])
    | some t => (s.setTcp (t.run E.ssl), [])
  | .receive i => s.runReceive E i
  | .wait i => s.runWait i

/-- The handler is ready. -/
def IsReady (s : NetworkService σ δ) : ReadyHandler → Prop
  | .task => s.strand ≠ []
  | .connect => s.connectDone ≠ none
  | .tcp => ∃ t ∈ s.tcp, t.strand ≠ []
  | .receive i => ∃ u ∈ s.udps[i]?, u.received ≠ []
  | .wait i => ∃ u ∈ s.udps[i]?, u.reassembly.reassemblyTimer.fired ≠ []

/-! ## Runs -/

/-- What the network and the clock do to a connection's socket. -/
inductive SocketEvent where
  | accept (i n : ℕ)
  | writeFails (i : ℕ)
  | arrive (bytes : Bytes)
  | readFails
  deriving DecidableEq, Repr

def SocketEvent.toEvent : SocketEvent → TcpSession.Event
  | accept i n => .accept i n
  | writeFails i => .writeFails i
  | arrive bytes => .arrive bytes
  | readFails => .readFails

/-- What can happen: the application calls `send` or `disconnect`, a ready handler runs, the connect
operation ends, the network acts on the connection, a datagram arrives or the receive fails, the
wait of a timer expires. -/
inductive Event where
  | send (type : UInt8) (body : Bytes)
  | disconnect
  | ready (h : ReadyHandler)
  | connectEnds (ok : Bool)
  | socket (e : SocketEvent)
  | datagram (i : ℕ) (r : Option Datagram)
  | expire (i : ℕ)
  deriving DecidableEq, Repr

/-- The outstanding receive of the `i`-th UDP session ends. -/
def endReceive (s : NetworkService σ δ) (i : ℕ) (r : Option Datagram) : NetworkService σ δ :=
  match s.udps[i]? with
  | none => s
  | some u =>
    if u.receiving then
      { s with udps := s.udps.set i { u with receiving := false, received := u.received ++ [r] } }
    else s

/-- The wait of the `i`-th UDP session's timer expires. -/
def expireWait (s : NetworkService σ δ) (i : ℕ) : NetworkService σ δ :=
  match s.udps[i]? with
  | none => s
  | some u =>
    { s with udps := s.udps.set i { u with reassembly := { u.reassembly with
        reassemblyTimer := u.reassembly.reassemblyTimer.expire } } }

def act (s : NetworkService σ δ) : Event → NetworkService σ δ × List AppOutput
  | .send type body => (s.post [.send type body], [])
  | .disconnect => (s.post [.cleanup], [])
  | .ready h => s.runReady E h
  | .connectEnds ok => (if s.connecting then { s with connecting := false, connectDone := some ok } else s, [])
  | .socket e =>
    match s.tcp with
    | none => (s, [])
    | some t => (s.setTcp (t.step E.ssl e.toEvent), [])
  | .datagram i r => (s.endReceive i r, [])
  | .expire i => (s.expireWait i, [])

def step (s : NetworkService σ δ) (e : Event) : NetworkService σ δ × List AppOutput :=
  if s.halted then (s, []) else s.act E e

/-- The state after a run from `connect` on. -/
def reach (connected resolves : Bool) (es : List Event) : NetworkService σ δ :=
  Machine.final (step E) (init connected resolves) es

/-- **An operation is outstanding**: a connect, a TCP read or write, a UDP receive or a timer's
wait. -/
def Outstanding (s : NetworkService σ δ) : Prop :=
  s.connecting = true ∨ (∃ t ∈ s.tcp, t.reading ≠ none ∨ t.socket.writing ≠ []) ∨
    ∃ u ∈ s.udps, u.receiving = true ∨ u.reassembly.reassemblyTimer.waiting ≠ none

/-! ## A sample service -/

/-- A service over `sampleSsl` whose UDP sessions do not encrypt. -/
def sampleEnv : Env (Bool × Bytes) Unit where
  ssl := sampleSsl
  dtls := ⟨fun _ => true, fun d _ => (d, []), fun d b => (d, b)⟩
  newTls := some (.new (some (false, [])))
  newDtls := ()
  localPort := fun _ => 50000
  isSet := fun _ => true
  onConnected := true
  onImageData := true

/-- A connection up to the end of its handshake. -/
def sampleConnected : List Event :=
  [.ready .task, .connectEnds true, .ready .connect, .ready .tcp, .socket (.accept 0 11),
    .ready .tcp, .socket (.arrive [0x0b, 1, 0, 0, 0]), .ready .tcp, .socket (.arrive [2]),
    .ready .tcp, .ready .tcp, .socket (.accept 0 11), .ready .tcp, .ready .task]

end NetworkService

end Network

end AnoMap
