import AnoMap.Lib.Json
import AnoMap.Lib.OrderedMap
import Mathlib.Data.String.Basic

/-!
# The network bridge

`NetworkBridge`: commands of the user interface become messages of the network service, and the
replies it hands back become signals. A text that is read stands beside what it parses to.

* `buildJson`: the body of a message.
* `sendLogin`, `sendSignup`, `connectToServer`, `disconnect`: the calls a command makes.
* `onConnected`, `onLoginResult`, `onLoginFail`: the signals a callback emits.
* `sendDevice`, `processPendingStates`, `timeout`: device commands, and the values that wait for the
  debounce timer. The devices are walked in the order of their addresses.
* `pending_sendDevice`: what a command leaves waiting.
-/

set_option autoImplicit false

namespace AnoMap

namespace Services

/-- A call of `INetworkService`, the callbacks of `connect` standing as the purpose they capture. -/
inductive ServiceCall where
  | connect (host port purpose : String)
  | disconnect
  | send (messageType : UInt8) (jsonBody : String)
  deriving DecidableEq, Repr

/-- The members with a value, as the text of an object. Nothing is escaped. -/
def buildJson (pairs : List (String × String)) : String :=
  "\x7b" ++ String.intercalate "," ((pairs.filter fun p => p.2 ≠ "").map fun p =>
    "\"" ++ p.1 ++ "\":\"" ++ p.2 ++ "\"") ++ "\x7d"

def connectToServer (host port purpose : String) : ServiceCall := .connect host port purpose

def disconnect : ServiceCall := .disconnect

def sendLogin (id pw : String) : ServiceCall := .send 0x01 (buildJson [("id", id), ("pw", pw)])

def sendSignup (id email pw : String) : ServiceCall :=
  .send 0x08 (buildJson [("action", "register"), ("id", id), ("email", email), ("pw", pw)])

def sendApprove (targetId : String) : ServiceCall :=
  .send 0x08 (buildJson [("action", "approve"), ("target_id", targetId)])

/-! ## Replies -/

/-- The signals of the bridge that the controllers are connected to. -/
inductive BridgeSignal where
  | connectedForLogin
  | connectedForSignup
  | loginSuccess (state username : String)
  | loginFailed (errorMessage : String)
  | signupSuccess (message : String)
  | signupFailed (errorMessage : String)
  deriving DecidableEq, Repr

/-- The body of a reply, with what it parses to. -/
structure ReplyBody where
  text : String
  doc : Json

/-- `QJsonValue::toBool(false)` of a member. -/
def toBool (doc : Json) (key : String) : Bool :=
  match doc.member? key with
  | some (.bool b) => b
  | _ => false

/-- `QJsonValue::toString()` of a member. -/
def toQString (doc : Json) (key : String) : String :=
  match doc.member? key with
  | some (.string s) => s
  | _ => ""

/-- The signal emitted when a connection opened for a purpose is made, if any. -/
def onConnected (purpose : String) : Option BridgeSignal :=
  if purpose = "login" then some .connectedForLogin
  else if purpose = "signup" then some .connectedForSignup
  else none

def onLoginResult (s : ReplyBody) : Option BridgeSignal :=
  if s.doc.isObject = false then none
  else if toBool s.doc "success" = true then
    some (.loginSuccess (toQString s.doc "state") (toQString s.doc "username"))
  else some (.loginFailed (toQString s.doc "message"))

/-- The message of a failure: the error, or else the message, or else the text. -/
def failMessage (s : ReplyBody) : String :=
  let msg := if (s.doc.member? "error").isSome then toQString s.doc "error"
    else toQString s.doc "message"
  if msg = "" then s.text else msg

def onLoginFail (purpose : String) (s : ReplyBody) : BridgeSignal :=
  let ctx := toQString s.doc "context"
  if ctx = "login" then .loginFailed (failMessage s)
  else if ctx = "signup" then .signupFailed (failMessage s)
  else if purpose = "login" then .loginFailed (failMessage s)
  else .signupFailed (failMessage s)

/-! ## Device commands -/

/-- The three values of a command, or those that wait for a device; empty ones are not given. -/
structure DeviceState where
  motor : String
  ir : String
  heater : String
  deriving DecidableEq, Repr

namespace DeviceState

def empty : DeviceState := ⟨"", "", ""⟩

/-- A movement, or a manual switch. -/
def isAction (cmd : DeviceState) : Prop :=
  (cmd.motor ≠ "" ∧ cmd.motor ≠ "auto" ∧ cmd.motor ≠ "unauto") ∨
    (cmd.ir = "on" ∨ cmd.ir = "off") ∨ (cmd.heater = "on" ∨ cmd.heater = "off")

instance (cmd : DeviceState) : Decidable cmd.isAction := by
  unfold isAction
  infer_instance

/-- A motor value that waits for the timer. -/
def keepsMotor (cmd : DeviceState) : Prop := cmd.motor = "auto" ∨ cmd.motor = "unauto"

instance (cmd : DeviceState) : Decidable cmd.keepsMotor := by
  unfold keepsMotor
  infer_instance

/-- The values that wait after a command. -/
def merge (st cmd : DeviceState) : DeviceState where
  motor := if cmd.keepsMotor then cmd.motor else st.motor
  ir := if cmd.ir ≠ "" then cmd.ir else st.ir
  heater := if cmd.heater ≠ "" then cmd.heater else st.heater

/-- The command changes what waits. -/
def updates (cmd : DeviceState) : Prop := cmd.keepsMotor ∨ cmd.ir ≠ "" ∨ cmd.heater ≠ ""

instance (cmd : DeviceState) : Decidable cmd.updates := by
  unfold updates
  infer_instance

end DeviceState

/-- A DEVICE message. -/
structure DeviceMessage where
  device : String
  state : DeviceState
  deriving DecidableEq, Repr

def DeviceMessage.send (m : DeviceMessage) : ServiceCall :=
  .send 0x04 (buildJson [("device", m.device), ("motor", m.state.motor), ("ir", m.state.ir),
    ("heater", m.state.heater)])

/-- `debounceTimer` says whether the timer is active. -/
structure NetworkBridge where
  pendingStates : OrderedMap String DeviceState
  debounceTimer : Bool

namespace NetworkBridge

def init : NetworkBridge := ⟨.empty, false⟩

/-- The values that wait for a device. -/
def pending (b : NetworkBridge) (deviceIp : String) : DeviceState :=
  b.pendingStates.getD deviceIp .empty

def sendDevice (b : NetworkBridge) (deviceIp : String) (cmd : DeviceState) :
    NetworkBridge × List DeviceMessage :=
  if deviceIp = "" then (b, [])
  else
    ({ pendingStates := b.pendingStates.set deviceIp ((b.pending deviceIp).merge cmd)
       debounceTimer := b.debounceTimer || decide cmd.updates },
      if cmd.isAction then [⟨deviceIp, cmd⟩] else [])

def processPendingStates (b : NetworkBridge) : NetworkBridge × List DeviceMessage :=
  ({ b with pendingStates := .empty },
    (b.pendingStates.entries.filter fun e => e.2 ≠ .empty).map fun e => ⟨e.1, e.2⟩)

/-- The debounce timer, a single shot one, expires. -/
def timeout (b : NetworkBridge) : NetworkBridge × List DeviceMessage :=
  if b.debounceTimer then processPendingStates { b with debounceTimer := false } else (b, [])

theorem pending_sendDevice (b : NetworkBridge) (deviceIp : String) (cmd : DeviceState) {ip : String}
    (h : ip ≠ "") : (b.sendDevice deviceIp cmd).1.pending ip =
      if ip = deviceIp then (b.pending ip).merge cmd else b.pending ip := by
  by_cases hempty : deviceIp = ""
  · rw [sendDevice, if_pos hempty, if_neg (hempty ▸ h)]
  · rw [sendDevice, if_neg hempty, pending, OrderedMap.getD_set]
    split_ifs with heq
    · rw [heq]
    · rfl

end NetworkBridge

end Services

end AnoMap
