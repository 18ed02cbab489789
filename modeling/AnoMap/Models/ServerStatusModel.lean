import AnoMap.Domain.ServerStatus

/-!
# The server status model

`ServerStatusModel`: the server values, the device list and the server history behind the
dashboard's top line.

* `onStoreUpdated`: the only operation; it emits `statusUpdated`, which is left out.
-/

set_option autoImplicit false

namespace AnoMap

namespace Models

open Domain

structure ServerStatus where
  cpu : Double
  memory : Double
  temp : Double
  uptime : ℤ
  available : Bool
  timestamp : ℤ
  deriving DecidableEq, Repr

/-- One entry of the server history. -/
structure HistoryItem where
  timestamp : ℤ
  cpu : Double
  memory : Double
  temp : Double
  uptime : ℤ
  deriving DecidableEq, Repr

structure ServerStatusModel where
  server : ServerStatus
  devices : List DeviceStatusData
  serverHistory : List HistoryItem
  deriving DecidableEq

namespace ServerStatusModel

def maxHistory : ℕ := 60

def empty : ServerStatusModel := ⟨⟨0, 0, 0, 0, false, 0⟩, [], []⟩

/-- The history with the server's values appended. -/
def appendHistory (history : List HistoryItem) (server : ServerStatus) : List HistoryItem :=
  let history := history ++
    [⟨server.timestamp, server.cpu, server.memory, server.temp, server.uptime⟩]
  if maxHistory < history.length then history.drop 1 else history

def onStoreUpdated (m : ServerStatusModel) (data : ServerStatusData) : ServerStatusModel :=
  let server : ServerStatus :=
    ⟨data.cpu, data.memory, data.temp, data.uptime, data.available, data.timestamp⟩
  { server := server
    devices := data.devices
    serverHistory :=
      if server.available then appendHistory m.serverHistory server else m.serverHistory }

end ServerStatusModel

end Models

end AnoMap
