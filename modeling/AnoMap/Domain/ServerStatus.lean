import AnoMap.Domain.Camera

/-!
# Server status

`ServerStatusStore`: the last status packet, and the last ones that carried server values.

* `updateFromJson`: the update; the clock reading of the packet is an argument.
* `snapshot_updateFromJson`, `history_length_le`: what an update hands on is what the store holds,
  and the history keeps its bound.
-/

set_option autoImplicit false

namespace AnoMap

namespace Domain

structure DeviceStatusData where
  ip : String
  cpu : Double
  memory : Double
  temp : Double
  uptime : ℤ
  pendingEvents : ℤ
  deriving DecidableEq, Repr

structure ServerStatusData where
  cpu : Double
  memory : Double
  temp : Double
  uptime : ℤ
  available : Bool
  timestamp : ℤ
  devices : List DeviceStatusData
  deriving DecidableEq, Repr

/-- `ServerStatusData{}`. -/
def ServerStatusData.default : ServerStatusData := ⟨0, 0, 0, 0, false, 0, []⟩

structure ServerStatusStore where
  status : ServerStatusData
  history : List ServerStatusData
  deriving DecidableEq

namespace ServerStatusStore

def maxHistory : ℕ := 10

def empty : ServerStatusStore := ⟨.default, []⟩

/-- One item of the `devices` array. -/
def readDevice (item : Json) : Except TypeError DeviceStatusData := do
  let ip ← item.value "ip" ""
  let cpu ← item.value "cpu" (0 : Double)
  let memory ← item.value "memory" (0 : Double)
  let temp ← item.value "temp" (0 : Double)
  let uptime ← item.value "uptime" (0 : ℤ)
  let pendingEvents ← item.value "pending_events" (0 : ℤ)
  return ⟨ip, cpu, memory, temp, uptime, pendingEvents⟩

/-- The `devices` member, when it is an array. -/
def readDevices (parsed : Json) : Except TypeError (List DeviceStatusData) :=
  match parsed.member? "devices" with
  | some (.array items) => items.mapM readDevice
  | _ => .ok []

/-- The `server` member, when it is an object. -/
def readServer (timestamp : ℤ) (parsed : Json) (s : ServerStatusData) :
    Except TypeError ServerStatusData :=
  match parsed.member? "server" with
  | some (.object members) => do
    let srv := Json.object members
    let cpu ← srv.value "cpu" (0 : Double)
    let memory ← srv.value "memory" (0 : Double)
    let temp ← srv.value "temp" (0 : Double)
    let uptime ← srv.value "uptime" (0 : ℤ)
    return { s with
      cpu := cpu
      memory := memory
      temp := temp
      uptime := uptime
      timestamp := timestamp
      available := true }
  | _ => .ok s

/-- The packet as read. -/
def read (timestamp : ℤ) (parsed : Json) : Except TypeError ServerStatusData := do
  let devices ← readDevices parsed
  readServer timestamp parsed { ServerStatusData.default with devices := devices }

/-- The store with a packet filed. -/
def store (s : ServerStatusStore) (data : ServerStatusData) : ServerStatusStore :=
  { status := data
    history :=
      if data.available then
        let history := s.history ++ [data]
        if maxHistory < history.length then history.drop 1 else history
      else s.history }

def updateFromJson (s : ServerStatusStore) (timestamp : ℤ) (parsed : Json) :
    ServerStatusStore × Outcome ServerStatusData :=
  if parsed.isObject = false then (s, .ok none)
  else
    match read timestamp parsed with
    | .error e => (s, .error e)
    | .ok data => (s.store data, .ok (some data))

def snapshot (s : ServerStatusStore) : ServerStatusData := s.status

/-- **Snapshots.** An update hands on what the store then holds. -/
theorem snapshot_updateFromJson {s : ServerStatusStore} {timestamp : ℤ} {parsed : Json}
    {data : ServerStatusData} (h : (s.updateFromJson timestamp parsed).2 = .ok (some data)) :
    (s.updateFromJson timestamp parsed).1.snapshot = data := by
  unfold updateFromJson at h ⊢
  split at h
  · cases h
  · next ho =>
    rw [if_neg ho]
    cases hr : read timestamp parsed with
    | error e => rw [hr] at h; cases h
    | ok data' =>
      rw [hr] at h
      exact Option.some.inj (Except.ok.inj h)

theorem updateFromJson_snd (s s' : ServerStatusStore) (timestamp : ℤ) (parsed : Json) :
    (s.updateFromJson timestamp parsed).2 = (s'.updateFromJson timestamp parsed).2 := by
  unfold updateFromJson
  split
  · rfl
  · cases read timestamp parsed <;> rfl

theorem length_store_le {s : ServerStatusStore} (data : ServerStatusData)
    (h : s.history.length ≤ maxHistory) : (s.store data).history.length ≤ maxHistory := by
  unfold store
  dsimp only
  split
  · split
    · rw [List.length_drop, List.length_append, List.length_singleton]
      omega
    · omega
  · exact h

theorem history_length_le {s : ServerStatusStore} (timestamp : ℤ) (parsed : Json)
    (h : s.history.length ≤ maxHistory) :
    (s.updateFromJson timestamp parsed).1.history.length ≤ maxHistory := by
  unfold updateFromJson
  split
  · exact h
  · split
    · exact h
    · exact length_store_le _ h

end ServerStatusStore

end Domain

end AnoMap
