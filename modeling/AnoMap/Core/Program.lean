import AnoMap.Core.Order
import AnoMap.Network.Dispatch

/-!
# From the connection to the models

`Program`: the network service on its thread, and on top of it the stores, the workers, the GUI
thread and the models. A camera list or status that the service tells of is queued for the GUI
thread. The clock readings a status is stamped with come with the step that tells of it.

* `step`: one step of any thread, with the packets that are queued.
* `networkRun`, `coreRun`: the share of a run that each of the two has; `network_final`,
  `core_final`: they run as they do alone.
* `told_reach`: the packets queued are what the service was told to tell.
* **`messages_reach_models`**: once all threads are idle after an ordered run, the models of devices
  and of the server are as the messages heard, one after the other, make them.
-/

set_option autoImplicit false

namespace AnoMap

open Network

variable {σ δ : Type}

structure Program (σ δ : Type) where
  network : NetworkService σ δ
  core : Core

/-- A packet without its clock readings. -/
def Packet.unstamped : Packet → Packet
  | .camera json => .camera json
  | .available json _ _ => .available json 0 0

namespace Program

inductive Event where
  | network (e : NetworkService.Event) (clocks : ℤ × ℤ)
  | take
  | update (i : ℕ)
  | post (i : ℕ)
  | gui

variable (E : Network.Env σ δ) (env : Env) (parse : Bytes → Json)

/-- What `NetworkBridge` queues for the stores. The other callbacks reach neither the store of the
devices nor that of the server. -/
def packetOf (clocks : ℤ × ℤ) : AppOutput → Option Packet
  | .callback .onCameraList body => some (.camera (parse body))
  | .callback .onDeviceStatus body => some (.available (parse body) clocks.1 clocks.2)
  | _ => none

/-- The packets that a step of the network thread queues. -/
def queued (c : Program σ δ) (e : NetworkService.Event) (clocks : ℤ × ℤ) : List Packet :=
  (c.network.step E e).2.filterMap (packetOf parse clocks)

def start (connected resolves : Bool) : Program σ δ :=
  ⟨.init connected resolves, .start⟩

def step (c : Program σ δ) : Event → Program σ δ × List Packet
  | .network e clocks =>
    let ps := c.queued E parse e clocks
    (⟨(c.network.step E e).1,
      ps.foldl (fun core p => (core.step env (.receive p)).1) c.core⟩, ps)
  | .take => ({ c with core := (c.core.step env .take).1 }, [])
  | .update i => ({ c with core := (c.core.step env (.update i)).1 }, [])
  | .post i => ({ c with core := (c.core.step env (.post i)).1 }, [])
  | .gui => ({ c with core := (c.core.step env .gui).1 }, [])

/-- The workers keep the order of the tasks of one store. -/
def Ordered (c : Program σ δ) : Event → Prop
  | .update i => c.core.Ordered (.update i)
  | .post i => c.core.Ordered (.post i)
  | _ => True

/-! ## The two halves -/

def Event.network? : Event → Option NetworkService.Event
  | .network e _ => some e
  | _ => none

def networkRun (es : List Event) : List NetworkService.Event := es.filterMap Event.network?

/-- The steps of the core in a step of the program. -/
def coreEvents (c : Program σ δ) : Event → List AnoMap.Event
  | .network e clocks => (c.queued E parse e clocks).map .receive
  | .take => [.take]
  | .update i => [.update i]
  | .post i => [.post i]
  | .gui => [.gui]

def coreRun (c : Program σ δ) (es : List Event) : List AnoMap.Event :=
  Machine.outputs (fun c e => ((c.step E env parse e).1, c.coreEvents E parse e)) c es

variable {E env parse} {c : Program σ δ}

theorem core_step (c : Program σ δ) (e : Event) : (c.step E env parse e).1.core =
    Machine.final (Core.step env) c.core (c.coreEvents E parse e) := by
  cases e with
  | network e clocks =>
    unfold coreEvents Machine.final
    rw [List.foldl_map]
    rfl
  | _ => rfl

theorem core_final (c : Program σ δ) (es : List Event) :
    (Machine.final (step E env parse) c es).core =
      Machine.final (Core.step env) c.core (c.coreRun E env parse es) :=
  Machine.final_runs (Core.step env) Program.core (coreEvents E parse) core_step c es

theorem along_receive (core : Core) (ps : List Packet) :
    Machine.Along (Core.step env) Core.Ordered core (ps.map .receive) := by
  induction ps generalizing core with
  | nil => trivial
  | cons p ps ih => exact ⟨trivial, ih _⟩

theorem along_ordered_iff (c : Program σ δ) (es : List Event) :
    Machine.Along (step E env parse) Ordered c es ↔
      Machine.Along (Core.step env) Core.Ordered c.core (c.coreRun E env parse es) := by
  refine Machine.along_runs (Core.step env) Program.core (coreEvents E parse) core_step
    (fun c e => ?_) c es
  cases e with
  | network e clocks => exact iff_of_true trivial (along_receive _ _)
  | update i => exact (and_iff_left trivial).symm
  | post i => exact (and_iff_left trivial).symm
  | take => exact iff_of_true trivial ⟨trivial, trivial⟩
  | gui => exact iff_of_true trivial ⟨trivial, trivial⟩

theorem received_coreEvents (c : Program σ δ) (e : Event) :
    Core.received (c.coreEvents E parse e) = (c.step E env parse e).2 ∧
      .logout ∉ c.coreEvents E parse e := by
  cases e with
  | network e clocks =>
    constructor
    · exact (List.filterMap_map ..).trans List.filterMap_some
    · intro h
      obtain ⟨p, -, hp⟩ := List.mem_map.mp h
      cases hp
  | _ => exact ⟨rfl, by simp [coreEvents]⟩

theorem received_coreRun (c : Program σ δ) (es : List Event) :
    Core.received (c.coreRun E env parse es) = Machine.outputs (step E env parse) c es ∧
      .logout ∉ c.coreRun E env parse es := by
  induction es generalizing c with
  | nil => exact ⟨rfl, List.not_mem_nil⟩
  | cons e es ih =>
    obtain ⟨hreceived, hlogout⟩ := ih (c.step E env parse e).1
    obtain ⟨hreceived', hlogout'⟩ := @received_coreEvents σ δ E env parse c e
    constructor
    · calc Core.received (c.coreRun E env parse (e :: es))
          = Core.received (c.coreEvents E parse e) ++
            Core.received ((c.step E env parse e).1.coreRun E env parse es) :=
              List.filterMap_append ..
        _ = Machine.outputs (step E env parse) c (e :: es) := by
          rw [hreceived, hreceived', Machine.outputs_cons]
    · exact fun h => (List.mem_append.mp h).elim hlogout' hlogout

/-! ## What is queued -/

/-- The packets of messages, without clock readings. -/
def packetsFor (E : Network.Env σ δ) (parse : Bytes → Json) (msgs : List Message) : List Packet :=
  (NetworkService.expected E NetworkService.plain msgs).filterMap (packetOf parse (0, 0))

theorem unstamped_packetOf (clocks : ℤ × ℤ) (o : AppOutput) :
    (packetOf parse clocks o).map Packet.unstamped = packetOf parse (0, 0) o := by
  cases o with
  | callback callback body => cases callback <;> rfl
  | _ => rfl

theorem filterMap_packetOf_plain (outs : List AppOutput) :
    (outs.filter NetworkService.plain).filterMap (packetOf parse (0, 0)) =
      outs.filterMap (packetOf parse (0, 0)) := by
  rw [List.filterMap_filter]
  refine List.filterMap_congr fun o _ => ?_
  cases o with
  | callback callback body => cases callback <;> rfl
  | _ => rfl

theorem unstamped_queued (c : Program σ δ) (e : NetworkService.Event) (clocks : ℤ × ℤ) :
    (c.queued E parse e clocks).map Packet.unstamped =
      (c.network.step E e).2.filterMap (packetOf parse (0, 0)) := by
  rw [queued, List.map_filterMap]
  exact List.filterMap_congr fun o _ => unstamped_packetOf clocks o

theorem networkRun_concat (es : List Event) (e : Event) :
    networkRun (es ++ [e]) = networkRun es ++ e.network?.toList := by
  rw [networkRun, List.filterMap_append, networkRun]
  cases e <;> rfl

theorem network_final (connected resolves : Bool) (es : List Event) :
    (Machine.final (step E env parse) (start connected resolves) es).network =
      NetworkService.reach E connected resolves (networkRun es) := by
  induction es using List.reverseRecOn with
  | nil => rfl
  | append_singleton es e ih =>
    rw [Machine.final_concat, networkRun_concat]
    cases e with
    | network e clocks =>
      exact (congrArg (fun s => (s.step E e).1) ih).trans (Machine.final_concat ..).symm
    | _ => exact ih.trans (congrArg _ (List.append_nil _).symm)

/-- The packets queued are those of what the application was told. -/
theorem told_reach (connected resolves : Bool) (es : List Event) :
    (Machine.outputs (step E env parse) (start connected resolves) es).map Packet.unstamped =
      (NetworkService.toldBy E connected resolves (networkRun es)).filterMap
        (packetOf parse (0, 0)) := by
  induction es using List.reverseRecOn with
  | nil => rfl
  | append_singleton es e ih =>
    rw [Machine.outputs_concat, List.map_append, ih, networkRun_concat]
    cases e with
    | network e clocks =>
      have hqueued := @unstamped_queued σ δ E parse
        (Machine.final (step E env parse) (start connected resolves) es) e clocks
      rw [network_final] at hqueued
      have htold : NetworkService.toldBy E connected resolves (networkRun es ++ [e]) =
          NetworkService.toldBy E connected resolves (networkRun es) ++
            ((NetworkService.reach E connected resolves (networkRun es)).step E e).2 :=
        Machine.outputs_concat ..
      refine (congrArg _ hqueued).trans ?_
      rw [← List.filterMap_append, ← htold]
      rfl
    | _ => exact (List.append_nil _).trans (congrArg _ (congrArg _ (List.append_nil _).symm))

/-- **From the connection to the models.** In any interleaving the packets queued are the camera
lists and statuses heard, each once and in order; after an ordered run, once all is idle, the models
are as these packets make them. -/
theorem messages_reach_models (connected resolves : Bool) (es : List Event) :
    let c := Machine.final (step E env parse) (start connected resolves) es
    let ps := Machine.outputs (step E env parse) (start connected resolves) es
    let msgs := NetworkService.heardBy E connected resolves (networkRun es)
    ps.map Packet.unstamped <+: packetsFor E parse msgs ∧
    (c.network.processor = true → c.network.strand = [] →
      ps.map Packet.unstamped = packetsFor E parse msgs) ∧
    (Machine.Along (step E env parse) Ordered (start connected resolves) es → c.core.Idle →
      c.core.data.deviceModel = (Data.init.processAll env ps).deviceModel ∧
      c.core.data.serverStatus = (Data.init.processAll env ps).serverStatus) := by
  intro c ps msgs
  have hbooks := NetworkService.books_reach E connected resolves (networkRun es)
  have htold : ps.map Packet.unstamped = _ := told_reach connected resolves es
  rw [← filterMap_packetOf_plain] at htold
  refine ⟨?_, fun hp hs => ?_, fun ho hi => ?_⟩
  · rw [htold]
    exact hbooks.plain.begins.filterMap _
  · have hnetwork : c.network = _ := network_final connected resolves es
    rw [hnetwork] at hp hs
    have hplain := hbooks.plain
    rw [hp] at hplain
    have hnone : (NetworkService.reach E connected resolves (networkRun es)).pending E
        NetworkService.plain = [] := by
      rw [NetworkService.pending, hs]
      exact ite_self _
    have heq := hplain.eq
    rw [hnone, List.append_nil] at heq
    rw [htold, heq]
    rfl
  · have hcore : c.core = _ := core_final (start connected resolves) es
    obtain ⟨hreceived, hlogout⟩ :=
      @received_coreRun σ δ E env parse (start connected resolves) es
    have hordered := (along_ordered_iff (start connected resolves) es).mp ho
    rw [hcore] at hi ⊢
    rw [show ps = _ from hreceived.symm]
    exact ⟨congrArg Prod.snd ((Lane.device env).pair_final_start hordered hlogout hi),
      congrArg Prod.snd ((Lane.server env).pair_final_start hordered hlogout hi)⟩

end Program

end AnoMap
