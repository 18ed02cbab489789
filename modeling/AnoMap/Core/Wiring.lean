import AnoMap.Domain.Device
import AnoMap.Domain.ServerStatus
import AnoMap.Lib.Machine
import AnoMap.Models.DeviceModel
import AnoMap.Models.ServerStatusModel
import AnoMap.Services.VideoManager

/-!
# The wiring of the application

`Core`: the stores and models, the thread pool and the event queue of the GUI thread. A received
camera list or status packet is queued for the GUI thread, which submits a task per store to the
pool; a worker runs the store's update, and the callback posts the snapshot to the GUI thread,
which hands it to the model. The texts stand for what they parse to; the clock readings a status
packet is stamped with come with it. The other packets make no row and no worker and are left out.

* `Data`: the stores, the models and the video manager; `Data.runStore`, `Data.applySnapshot`: the
  two halves of `bindStoreToModel`.
* `process`: one packet after the other, each done at once.
* `Core.step`: one step of the network thread, of a worker or of the GUI thread.
-/

set_option autoImplicit false

namespace AnoMap

open Domain Models Services

/-- What the application is configured with. -/
structure Env where
  autoSplit : String → ℤ
  order : HashOrder CameraData
  fps : ℤ
  hardwareConcurrency : ℕ

/-- The number of workers of the pool. -/
def Env.threadCount (env : Env) : ℕ :=
  if env.hardwareConcurrency / 2 = 0 then 1 else env.hardwareConcurrency / 2

/-- Two workers, no automatic splits, hash tables walked in the order of insertion. -/
def Env.sample : Env := ⟨fun _ => 0, ⟨id, HashOrder.perm_id⟩, 30, 4⟩

/-- A camera list with one camera. -/
def sampleCamera (isOnline : Bool) : Json :=
  .array [.object [("ip", .string "10.0.0.1"), ("is_online", .bool isOnline)]]

inductive Packet where
  | camera (json : Json)
  | available (json : Json) (deviceClock serverClock : ℤ)

inductive StoreId where
  | camera | device | server
  deriving DecidableEq, Repr

/-- The tasks `bindStoreToModel` submits. -/
inductive Task where
  | camera (json : Json)
  | deviceCamera (json : Json)
  | deviceAvailable (json : Json) (clock : ℤ)
  | serverStatus (json : Json) (clock : ℤ)

namespace Task

/-- The store a task updates. -/
def store : Task → StoreId
  | .camera _ => .camera
  | .deviceCamera _ => .device
  | .deviceAvailable _ _ => .device
  | .serverStatus _ _ => .server

end Task

/-- The tasks of a packet, in the order they are submitted. -/
def Packet.tasks : Packet → List Task
  | .camera json => [.camera json, .deviceCamera json]
  | .available json deviceClock serverClock =>
    [.deviceAvailable json deviceClock, .serverStatus json serverClock]

/-- What a callback posts to the GUI thread. -/
inductive Snapshot where
  | cameras (data : List CameraData)
  | devices (data : List DeviceIntegrated)
  | server (data : ServerStatusData)

/-- The store a snapshot was taken of. -/
def Snapshot.store : Snapshot → StoreId
  | .cameras _ => .camera
  | .devices _ => .device
  | .server _ => .server

/-! ## Stores and models -/

structure Data where
  cameraStore : CameraStore
  deviceStore : DeviceStore
  serverStatusStore : ServerStatusStore
  cameraModel : CameraModel
  deviceModel : DeviceModel
  serverStatus : ServerStatusModel
  videoManager : VideoManager

namespace Data

def init : Data := ⟨.empty, .empty, .empty, .empty, .empty, .empty, .empty⟩

/-- The store's update of a task. -/
def runStore (d : Data) : Task → Data × Outcome Snapshot
  | .camera json =>
    let r := d.cameraStore.updateFromJson json
    ({ d with cameraStore := r.1 }, r.2.map (Option.map .cameras))
  | .deviceCamera json =>
    let r := d.deviceStore.updateFromCameraJson json
    ({ d with deviceStore := r.1 }, r.2.map (Option.map .devices))
  | .deviceAvailable json clock =>
    let r := d.deviceStore.updateFromAvailableJson clock json
    ({ d with deviceStore := r.1 }, r.2.map (Option.map .devices))
  | .serverStatus json clock =>
    let r := d.serverStatusStore.updateFromJson clock json
    ({ d with serverStatusStore := r.1 }, r.2.map (Option.map .server))

/-- The URL of a stream is the one the camera store holds. -/
def providers (env : Env) (d : Data) : Providers :=
  ⟨fun cameraId => (d.cameraStore.getCameraStruct cameraId).sourceUrl, env.fps⟩

/-- A snapshot reaches its model, and the signals of the model the video manager; with the ids of
the workers registered. -/
def applySnapshot (env : Env) (d : Data) : Snapshot → Data × List String
  | .cameras data =>
    let r := d.cameraModel.onStoreUpdated env.autoSplit env.order data
    let v := d.videoManager.onSignals (d.providers env) r.2
    ({ d with cameraModel := r.1, videoManager := v.1 }, v.2)
  | .devices data => ({ d with deviceModel := d.deviceModel.onStoreUpdated data }, [])
  | .server data => ({ d with serverStatus := d.serverStatus.onStoreUpdated data }, [])

/-- The slots connected to `logoutRequested`, in the order they were connected. -/
def logout (env : Env) (d : Data) : Data × List String :=
  let r := d.cameraModel.clearAll
  let v := d.videoManager.clearAll.onSignals (d.providers env) r.2
  ({ d with
      cameraModel := r.1
      videoManager := v.1
      deviceModel := d.deviceModel.clearAll }, v.2)

/-- A task from its update to the model. -/
def runTask (env : Env) (d : Data) (t : Task) : Data :=
  match d.runStore t with
  | (d, .ok (some snap)) => (d.applySnapshot env snap).1
  | (d, _) => d

/-- A packet, each of its tasks done at once. -/
def process (env : Env) (d : Data) (p : Packet) : Data := p.tasks.foldl (runTask env) d

def processAll (env : Env) (d : Data) (ps : List Packet) : Data := ps.foldl (process env) d

theorem map_eq_ok_some {δ : Type} {o : Outcome δ} {f : δ → Snapshot} {snap : Snapshot}
    (h : o.map (Option.map f) = .ok (some snap)) : ∃ x, o = .ok (some x) ∧ f x = snap := by
  cases o with
  | error e => cases h
  | ok r =>
    cases r with
    | none => cases Except.ok.inj h
    | some x => exact ⟨x, rfl, Option.some.inj (Except.ok.inj h)⟩

end Data

/-- No task of the packet throws. -/
def Packet.WellTyped (p : Packet) : Prop :=
  ∀ t ∈ p.tasks, ∀ d : Data, ∃ o, (d.runStore t).2 = .ok o

/-! ## Threads -/

/-- A worker at its task: before the store's update, or before its callback has posted. -/
inductive Running where
  | taken (t : Task)
  | posting (snap : Snapshot)

namespace Running

def store : Running → StoreId
  | .taken t => t.store
  | .posting snap => snap.store

/-- The store's update is still to come. -/
def isTaken : Running → Bool
  | .taken _ => true
  | .posting _ => false

end Running

inductive GuiEvent where
  | received (p : Packet)
  | update (snap : Snapshot)

/-- The running tasks stand in the order they were taken. -/
structure Core where
  connected : Bool
  gui : List GuiEvent
  queue : List Task
  running : List Running
  terminated : Bool
  data : Data

inductive Event where
  | connect
  | receive (p : Packet)
  | take
  | update (i : ℕ)
  | post (i : ℕ)
  | gui
  | logout

namespace Core

def init : Core := ⟨false, [], [], [], false, .init⟩

/-- The update of the task that runs as number `i`. An exception leaves the worker's loop and ends
the process. -/
def update (c : Core) (i : ℕ) : Core :=
  match c.running[i]? with
  | some (.taken t) =>
    match c.data.runStore t with
    | (data, .error _) => { c with data := data, terminated := true }
    | (data, .ok none) => { c with data := data, running := c.running.eraseIdx i }
    | (data, .ok (some snap)) =>
      { c with data := data, running := c.running.set i (.posting snap) }
  | _ => c

/-- The next event of the GUI thread. -/
def runGui (env : Env) (c : Core) : Core × List String :=
  match c.gui with
  | [] => (c, [])
  | .received p :: gui => ({ c with gui := gui, queue := c.queue ++ p.tasks }, [])
  | .update snap :: gui =>
    let r := c.data.applySnapshot env snap
    ({ c with gui := gui, data := r.1 }, r.2)

/-- One step, with the ids of the workers registered. -/
def step (env : Env) (c : Core) (e : Event) : Core × List String :=
  if c.terminated then (c, [])
  else
    match e with
    | .connect => ({ c with connected := true }, [])
    | .receive p => (if c.connected then { c with gui := c.gui ++ [.received p] } else c, [])
    | .take =>
      (match c.queue with
        | t :: queue =>
          if c.running.length < env.threadCount then
            { c with queue := queue, running := c.running ++ [.taken t] }
          else c
        | [] => c, [])
    | .update i => (c.update i, [])
    | .post i =>
      (match c.running[i]? with
        | some (.posting snap) =>
          { c with running := c.running.eraseIdx i, gui := c.gui ++ [.update snap] }
        | _ => c, [])
    | .gui => c.runGui env
    | .logout =>
      let r := c.data.logout env
      ({ c with connected := false, data := r.1 }, r.2)

/-- Nothing waits and nothing runs. -/
def Idle (c : Core) : Prop := c.gui = [] ∧ c.queue = [] ∧ c.running = []

end Core

end AnoMap
