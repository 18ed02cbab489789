import AnoMap.Lib.Channel
import AnoMap.Services.NetworkBridge

/-!
# Device commands

Device commands reach the server on two paths: movements and switches at once, and what waits when
the debounce timer expires.

* `Ledger`, `step`: the bridge, with the number of the command that issued each value.
* `view`: one field of one device is a channel with a kept value (`simulates`).
* `NeverOvertakes`: no value is sent after one issued later, and with nothing waiting the last value
  sent is the last one issued.
* `command_of_mem_sentFor`: the number beside a value is that of the command that gave it.
* **`never_overtakes_iff`**: a run keeps the order if and only if, whenever the timer expires, no mode
  waits that a movement has overridden.
-/

set_option autoImplicit false

namespace AnoMap

namespace Services

/-- The fields of a command. -/
inductive Field where
  | motor
  | ir
  | heater
  deriving DecidableEq, Repr

namespace Field

def all : List Field := [motor, ir, heater]

def name : Field → String
  | motor => "motor"
  | ir => "ir"
  | heater => "heater"

/-- A value that waits for the timer, if it is not empty. -/
def Waits (F : Field) (v : String) : Prop := F = motor → v = "auto" ∨ v = "unauto"

instance (F : Field) : DecidablePred F.Waits := fun _ => by unfold Waits; infer_instance

end Field

def DeviceState.get (st : DeviceState) : Field → String
  | .motor => st.motor
  | .ir => st.ir
  | .heater => st.heater

/-- The command leaves its value of the field waiting. -/
def DeviceState.Leaves (cmd : DeviceState) (F : Field) : Prop := cmd.get F ≠ "" ∧ F.Waits (cmd.get F)

instance (cmd : DeviceState) (F : Field) : Decidable (cmd.Leaves F) := by
  unfold DeviceState.Leaves
  infer_instance

/-! ## The ledger -/

inductive BridgeEvent where
  | sendDevice (deviceIp : String) (cmd : DeviceState)
  | timeout

/-- A value passed to the network service, with the number of the command that issued it. -/
structure SentValue where
  device : String
  field : Field
  value : String
  call : ℕ
  deriving DecidableEq, Repr

/-- The values of a message. -/
def DeviceMessage.values (m : DeviceMessage) (call : Field → ℕ) : List SentValue :=
  (Field.all.filter fun F => m.state.get F ≠ "").map fun F => ⟨m.device, F, m.state.get F, call F⟩

/-- The bridge after some commands. `last`: the last value issued for a field of a device, with the
number of its command; `origin`: the number of the command that left the value that waits. -/
structure Ledger where
  bridge : NetworkBridge
  calls : ℕ
  last : String → Field → Option (ℕ × String)
  origin : String → Field → ℕ

namespace Ledger

def init : Ledger := ⟨.init, 0, fun _ _ => none, fun _ _ => 0⟩

def step (l : Ledger) : BridgeEvent → Ledger × List SentValue
  | .sendDevice ip cmd =>
    let r := l.bridge.sendDevice ip cmd
    ({ bridge := r.1
       calls := l.calls + 1
       last := fun d F =>
         if d = ip ∧ cmd.get F ≠ "" then some (l.calls, cmd.get F) else l.last d F
       origin := fun d F => if d = ip ∧ cmd.Leaves F then l.calls else l.origin d F },
      r.2.flatMap fun m => m.values fun _ => l.calls)
  | .timeout =>
    let r := l.bridge.timeout
    ({ l with bridge := r.1 }, r.2.flatMap fun m => m.values (l.origin m.device))

/-- The ledger after a run. -/
abbrev after (es : List BridgeEvent) : Ledger := Machine.final step init es

/-- The values of one field sent to one device. -/
def sentFor (d : String) (F : Field) (es : List BridgeEvent) : List SentValue :=
  (Machine.outputs step init es).filter fun s => s.device = d ∧ s.field = F

/-- **A stale command never overtakes a newer one.** The empty text addresses no device. -/
def NeverOvertakes (es : List BridgeEvent) : Prop :=
  ∀ d F, d ≠ "" → (sentFor d F es).Pairwise (fun a b => a.call ≤ b.call) ∧
    (((after es).bridge.pending d).get F = "" →
      (sentFor d F es).getLast?.map (fun s => (s.call, s.value)) = (after es).last d F)

/-- No mode waits for the device, or the last motor value issued for it is a mode. -/
def ModeStands (l : Ledger) (d : String) : Prop :=
  (l.bridge.pending d).motor ≠ "" → ∃ e, l.last d .motor = some e ∧ (e.2 = "auto" ∨ e.2 = "unauto")

end Ledger

/-! ## What a command leaves -/

theorem DeviceState.get_merge (st cmd : DeviceState) (F : Field) :
    (st.merge cmd).get F = if cmd.Leaves F then cmd.get F else st.get F := by
  cases F with
  | motor =>
    have hiff : cmd.Leaves .motor ↔ cmd.keepsMotor :=
      ⟨fun h => h.2 rfl, fun h => ⟨by rcases h with h | h <;> rw [get, h] <;> decide, fun _ => h⟩⟩
    show (if cmd.keepsMotor then _ else _) = _
    simp only [hiff]
    rfl
  | ir =>
    have hiff : cmd.Leaves .ir ↔ cmd.ir ≠ "" := and_iff_left nofun
    simp only [hiff]
    rfl
  | heater =>
    have hiff : cmd.Leaves .heater ↔ cmd.heater ≠ "" := and_iff_left nofun
    simp only [hiff]
    rfl

theorem DeviceState.updates_of_leaves {cmd : DeviceState} {F : Field} (h : cmd.Leaves F) :
    cmd.updates := by
  cases F with
  | motor => exact Or.inl (h.2 rfl)
  | ir => exact Or.inr (Or.inl h.1)
  | heater => exact Or.inr (Or.inr h.1)

theorem DeviceState.isAction_or_waits (cmd : DeviceState) {F : Field} (h : cmd.get F ≠ "") :
    cmd.isAction ∨ F.Waits (cmd.get F) := by
  by_cases hw : F.Waits (cmd.get F)
  · exact Or.inr hw
  · obtain ⟨rfl, hmode⟩ := Classical.not_imp.mp hw
    exact Or.inl (Or.inl ⟨h, not_or.mp hmode⟩)

@[simp] theorem DeviceState.get_empty (F : Field) : DeviceState.empty.get F = "" := by
  cases F <;> rfl

/-! ## One field as a channel -/

namespace Ledger

variable (d : String) (F : Field)

def view (l : Ledger) : Channel String where
  clock := l.calls
  last := l.last d F
  kept := if (l.bridge.pending d).get F = "" then none
    else some (l.origin d F, (l.bridge.pending d).get F)

/-- What an event is to the channel. -/
def use : BridgeEvent → Channel.Use String
  | .sendDevice ip cmd =>
    if d = ip ∧ cmd.get F ≠ "" then .issue (cmd.get F) (decide cmd.isAction) else .pass
  | .timeout => .flush

/-- What a value sent is to the channel. -/
def seen (s : SentValue) : Option (ℕ × String) :=
  if s.device = d ∧ s.field = F then some (s.call, s.value) else none

/-- The timer runs while a value of the field waits. -/
def Armed (l : Ledger) : Prop :=
  l.bridge.debounceTimer = false → (l.bridge.pending d).get F = ""

variable {d F}

theorem use_of_given {ip : String} {cmd : DeviceState} (h : d = ip ∧ cmd.get F ≠ "") :
    use d F (.sendDevice ip cmd) = .issue (cmd.get F) (decide cmd.isAction) := if_pos h

theorem use_of_not_given {ip : String} {cmd : DeviceState} (h : ¬ (d = ip ∧ cmd.get F ≠ "")) :
    use d F (.sendDevice ip cmd) = .pass := if_neg h

theorem use_notLost (e : BridgeEvent) : (use d F e).NotLost F.Waits := by
  cases e with
  | sendDevice ip cmd =>
    by_cases h : d = ip ∧ cmd.get F ≠ ""
    · rw [use_of_given h]
      exact (cmd.isAction_or_waits h.2).imp_left decide_eq_true
    · rw [use_of_not_given h]
      trivial
  | timeout => trivial

theorem seen_values (m : DeviceMessage) (call : Field → ℕ) :
    (m.values call).filterMap (seen d F) =
      if m.device = d ∧ m.state.get F ≠ "" then [(call F, m.state.get F)] else [] := by
  rw [DeviceMessage.values, List.filterMap_map, List.filterMap_filter]
  by_cases hd : m.device = d <;> by_cases hv : m.state.get F = "" <;> cases F <;>
    simp_all [Field.all, seen]

theorem get_pending_sendDevice (hd : d ≠ "") (l : Ledger) (ip : String) (cmd : DeviceState) :
    ((l.bridge.sendDevice ip cmd).1.pending d).get F =
      if d = ip ∧ cmd.Leaves F then cmd.get F else (l.bridge.pending d).get F := by
  rw [NetworkBridge.pending_sendDevice l.bridge ip cmd hd]
  by_cases hip : d = ip
  · rw [if_pos hip, DeviceState.get_merge]
    simp only [hip, true_and]
  · rw [if_neg hip, if_neg fun h => hip h.1]

theorem view_sendDevice (hd : d ≠ "") (l : Ledger) (ip : String) (cmd : DeviceState) :
    (l.step (.sendDevice ip cmd)).1.view d F =
      ((l.view d F).step F.Waits (use d F (.sendDevice ip cmd))).1 := by
  unfold view step
  dsimp only
  rw [get_pending_sendDevice hd]
  by_cases h : d = ip ∧ cmd.get F ≠ ""
  · rw [use_of_given h, if_pos h, Channel.step]
    by_cases hw : F.Waits (cmd.get F)
    · have hleaves : d = ip ∧ cmd.Leaves F := ⟨h.1, h.2, hw⟩
      rw [if_pos hleaves, if_pos hleaves, if_pos hw, if_neg h.2]
    · have hleaves : ¬ (d = ip ∧ cmd.Leaves F) := fun hl => hw hl.2.2
      rw [if_neg hleaves, if_neg hleaves, if_neg hw]
  · have hleaves : ¬ (d = ip ∧ cmd.Leaves F) := fun hl => h ⟨hl.1, hl.2.1⟩
    rw [use_of_not_given h, if_neg h, if_neg hleaves, if_neg hleaves, Channel.step]

theorem seen_sendDevice (hd : d ≠ "") (l : Ledger) (ip : String) (cmd : DeviceState) :
    (l.step (.sendDevice ip cmd)).2.filterMap (seen d F) =
      ((l.view d F).step F.Waits (use d F (.sendDevice ip cmd))).2 := by
  unfold step NetworkBridge.sendDevice
  dsimp only
  by_cases h : d = ip ∧ cmd.get F ≠ ""
  · rw [use_of_given h, if_neg (h.1 ▸ hd), Channel.step]
    by_cases ha : cmd.isAction
    · rw [if_pos ha, decide_eq_true ha, List.flatMap_singleton, seen_values,
        if_pos ⟨h.1.symm, h.2⟩]
      rfl
    · rw [if_neg ha, decide_eq_false ha]
      rfl
  · rw [use_of_not_given h, Channel.step]
    split_ifs with hip ha
    · rfl
    · rw [List.flatMap_singleton, seen_values, if_neg fun hs => h ⟨hs.1.symm, hs.2⟩]
    · rfl

/-- The entries of the other devices, and the empty ones, have nothing to send for the field. -/
theorem flatMap_entries {x : String × DeviceState → ℕ × String} (l : List (String × DeviceState)) :
    (l.filter fun e => e.2 ≠ .empty).flatMap
        (fun e => if e.1 = d ∧ e.2.get F ≠ "" then [x e] else []) =
      (l.filter fun e => e.1 = d).flatMap fun e => if e.2.get F ≠ "" then [x e] else [] := by
  induction l with
  | nil => rfl
  | cons e l ih =>
    by_cases hd : e.1 = d
    · by_cases he : e.2 = .empty
      · have hget : e.2.get F = "" := by rw [he, DeviceState.get_empty]
        rw [List.filter_cons_of_neg (by simpa using he), ih,
          List.filter_cons_of_pos (by simpa using hd), List.flatMap_cons, if_neg (not_not.mpr hget)]
        rfl
      · rw [List.filter_cons_of_pos (by simpa using he), List.flatMap_cons, ih,
          List.filter_cons_of_pos (by simpa using hd), List.flatMap_cons]
        simp only [hd, true_and]
    · have hdrop : ((e :: l).filter fun e => e.1 = d) = l.filter fun e => e.1 = d :=
        List.filter_cons_of_neg (by simpa using hd)
      rw [hdrop, ← ih, List.filter_cons]
      split_ifs
      · rw [List.flatMap_cons, if_neg fun h => hd h.1]
        rfl
      · rfl

/-- **A flush** sends what waits for the field. -/
theorem seen_entries (m : OrderedMap String DeviceState) (call : String → Field → ℕ) :
    (((m.entries.filter fun e => e.2 ≠ .empty).map fun e => (⟨e.1, e.2⟩ : DeviceMessage)).flatMap
        fun msg => msg.values (call msg.device)).filterMap (seen d F) =
      if (m.getD d .empty).get F = "" then [] else [(call d F, (m.getD d .empty).get F)] := by
  have hfield : ∀ e : String × DeviceState,
      ((⟨e.1, e.2⟩ : DeviceMessage).values (call e.1)).filterMap (seen d F) =
        if e.1 = d ∧ e.2.get F ≠ "" then [(call e.1 F, e.2.get F)] else [] :=
    fun e => seen_values _ _
  rw [List.filterMap_flatMap, List.flatMap_map]
  simp only [hfield]
  rw [flatMap_entries, OrderedMap.filter_entries, OrderedMap.getD]
  cases m.get? d with
  | none => simp
  | some st =>
    show List.flatMap _ [(d, st)] = _
    rw [List.flatMap_singleton, Option.getD_some, ite_not]

theorem view_timeout (l : Ledger) (ha : Armed d F l) : (l.step .timeout).1.view d F =
    ((l.view d F).step F.Waits .flush).1 ∧
      (l.step .timeout).2.filterMap (seen d F) = ((l.view d F).step F.Waits .flush).2 := by
  unfold step NetworkBridge.timeout
  cases ht : l.bridge.debounceTimer with
  | false =>
    have hkept : (l.view d F).kept = none := if_pos (ha ht)
    rw [Channel.step, hkept]
    refine ⟨?_, rfl⟩
    rw [← hkept]
    rfl
  | true =>
    refine ⟨?_, (seen_entries l.bridge.pendingStates l.origin).trans ?_⟩
    · unfold view Channel.step
      dsimp only
      congr 1
      exact if_pos (DeviceState.get_empty F)
    · show (if (l.bridge.pending d).get F = "" then _ else _) = Option.toList (if _ then _ else _)
      split_ifs <;> rfl

theorem Armed.step (hd : d ≠ "") {l : Ledger} (h : Armed d F l) (e : BridgeEvent) :
    Armed d F (l.step e).1 := by
  cases e with
  | timeout =>
    show (NetworkBridge.timeout l.bridge).1.debounceTimer = false →
      ((NetworkBridge.timeout l.bridge).1.pending d).get F = ""
    cases ht : l.bridge.debounceTimer with
    | false =>
      rw [NetworkBridge.timeout, if_neg (by rw [ht]; decide)]
      exact h
    | true =>
      rw [NetworkBridge.timeout, if_pos ht]
      exact fun _ => DeviceState.get_empty F
  | sendDevice ip cmd =>
    show (l.bridge.sendDevice ip cmd).1.debounceTimer = false →
      ((l.bridge.sendDevice ip cmd).1.pending d).get F = ""
    rw [get_pending_sendDevice hd]
    by_cases hip : ip = ""
    · rw [NetworkBridge.sendDevice, if_pos hip, if_neg fun hl => hd (hl.1.trans hip)]
      exact h
    · rw [NetworkBridge.sendDevice, if_neg hip]
      intro htimer
      obtain ⟨ht, hup⟩ := Bool.or_eq_false_iff.mp htimer
      rw [if_neg fun hl => of_decide_eq_false hup (DeviceState.updates_of_leaves hl.2)]
      exact h ht

/-- The ledger is seen as the channel. -/
def Seen (d : String) (F : Field) (l : Ledger) (c : Channel String) : Prop :=
  l.view d F = c ∧ Armed d F l

theorem Seen.step (hd : d ≠ "") (l : Ledger) (c : Channel String) (e : BridgeEvent)
    (h : Seen d F l c) : Seen d F (l.step e).1 (c.step F.Waits (use d F e)).1 ∧
      (l.step e).2.filterMap (seen d F) = (c.step F.Waits (use d F e)).2 := by
  obtain ⟨rfl, ha⟩ := h
  cases e with
  | sendDevice ip cmd =>
    exact ⟨⟨view_sendDevice hd l ip cmd, ha.step hd _⟩, seen_sendDevice hd l ip cmd⟩
  | timeout =>
    obtain ⟨hview, hseen⟩ := view_timeout l ha
    exact ⟨⟨hview, ha.step hd _⟩, hseen⟩

theorem seen_init : Seen d F init Channel.init :=
  ⟨congrArg (Channel.mk 0 none) (if_pos (DeviceState.get_empty F)),
    fun _ => DeviceState.get_empty F⟩

/-- **One field of one device is a channel**, which sends what the bridge sends for it. -/
theorem simulates (hd : d ≠ "") (es : List BridgeEvent) :
    (after es).view d F = Channel.after F.Waits (es.map (use d F)) ∧
      (Machine.outputs step init es).filterMap (seen d F) =
        Channel.sent F.Waits (es.map (use d F)) := by
  obtain ⟨hseen, hsent⟩ := Machine.simulation (Channel.step F.Waits) (use d F) (seen d F)
    (Seen.step hd) seen_init es
  exact ⟨hseen.1, hsent⟩

theorem map_sentFor (es : List BridgeEvent) : (sentFor d F es).map (fun s => (s.call, s.value)) =
    (Machine.outputs step init es).filterMap (seen d F) := by
  rw [sentFor]
  induction Machine.outputs step init es with
  | nil => rfl
  | cons s l ih =>
    rw [List.filter_cons, List.filterMap_cons, seen]
    by_cases hs : s.device = d ∧ s.field = F
    · rw [if_pos (decide_eq_true hs), if_pos hs, List.map_cons, ih]
    · rw [if_neg (by simpa using hs), if_neg hs, ih]

/-- The commands of a run, in order: the ones a ledger counts. -/
def commands (es : List BridgeEvent) : List (String × DeviceState) :=
  es.filterMap fun
    | .sendDevice ip cmd => some (ip, cmd)
    | .timeout => none

theorem filter_map_use (es : List BridgeEvent) : (es.map (use d F)).filter Channel.Use.ticks =
    (commands es).map fun c => use d F (.sendDevice c.1 c.2) := by
  induction es with
  | nil => rfl
  | cons e es ih =>
    cases e with
    | timeout => exact ih
    | sendDevice ip cmd =>
      have hticks : (use d F (.sendDevice ip cmd)).ticks = true := by
        unfold use
        dsimp only
        split_ifs <;> rfl
      rw [List.map_cons, List.filter_cons_of_pos hticks, ih]
      rfl

/-- **The number beside a value** sent is that of the command that gave it. -/
theorem command_of_mem_sentFor (hd : d ≠ "") {es : List BridgeEvent} {s : SentValue}
    (hs : s ∈ sentFor d F es) :
    ∃ cmd, (commands es)[s.call]? = some (d, cmd) ∧ cmd.get F = s.value := by
  have hsent : (s.call, s.value) ∈ Channel.sent F.Waits (es.map (use d F)) := by
    rw [← (simulates hd es).2, ← map_sentFor]
    exact List.mem_map_of_mem hs
  obtain ⟨direct, hissue⟩ := Channel.issued_of_mem_sent hsent
  rw [filter_map_use, List.getElem?_map, Option.map_eq_some_iff] at hissue
  obtain ⟨⟨ip, cmd⟩, hcmd, huse⟩ := hissue
  by_cases h : d = ip ∧ cmd.get F ≠ ""
  · rw [use_of_given h] at huse
    exact ⟨cmd, h.1 ▸ hcmd, (Channel.Use.issue.inj huse).1⟩
  · rw [use_of_not_given h] at huse
    cases huse

/-! ## The theorem -/

theorem notLost_map (es : List BridgeEvent) : ∀ u ∈ es.map (use d F), u.NotLost F.Waits := by
  rintro u hu
  obtain ⟨e, -, rfl⟩ := List.mem_map.mp hu
  exact use_notLost e

/-- **One field**: its values keep their order if and only if every flush of its channel is fresh. -/
theorem keepsOrder_iff (hd : d ≠ "") (es : List BridgeEvent) :
    ((sentFor d F es).Pairwise (fun a b => a.call ≤ b.call) ∧
      (((after es).bridge.pending d).get F = "" →
        (sentFor d F es).getLast?.map (fun s => (s.call, s.value)) = (after es).last d F)) ↔
      Machine.Along (Channel.step F.Waits) (Channel.Fresh F.Waits) Channel.init
        (es.map (use d F)) := by
  obtain ⟨hview, hsent⟩ := simulates (F := F) hd es
  have hpair : (sentFor d F es).Pairwise (fun a b => a.call ≤ b.call) ↔
      (Channel.sent F.Waits (es.map (use d F))).Pairwise fun a b => a.1 ≤ b.1 := by
    rw [← hsent, ← map_sentFor, List.pairwise_map]
  rw [hpair, Channel.pairwise_outputs_iff (notLost_map es)]
  refine and_iff_left_of_imp fun hfresh hempty => ?_
  have hkept : (Channel.after F.Waits (es.map (use d F))).kept = none := by
    rw [← hview]
    exact if_pos hempty
  rw [← List.getLast?_map, map_sentFor, hsent,
    Channel.getLast?_outputs (notLost_map es) hfresh hkept, ← hview]
  rfl

theorem fresh_motor_iff (l : Ledger) (c : Channel String) (e : BridgeEvent)
    (h : Seen d .motor l c) :
    (e = .timeout → l.ModeStands d) ↔ Channel.Fresh Field.motor.Waits c (use d .motor e) := by
  obtain ⟨rfl, -⟩ := h
  cases e with
  | sendDevice ip cmd =>
    refine ⟨fun _ => ?_, fun _ => nofun⟩
    unfold use
    dsimp only
    split_ifs <;> trivial
  | timeout =>
    have hkept : (l.view d .motor).kept ≠ none ↔ (l.bridge.pending d).motor ≠ "" := by
      show (if (l.bridge.pending d).motor = "" then none else some _) ≠ none ↔ _
      split_ifs with h <;> simp [h]
    refine ⟨fun h hk => ?_, fun h _ hk => ?_⟩
    · obtain ⟨e, he, hmode⟩ := h rfl (hkept.mp hk)
      exact ⟨e, he, fun _ => hmode⟩
    · obtain ⟨e, he, hmode⟩ := h (hkept.mpr hk)
      exact ⟨e, he, hmode rfl⟩

/-- **Never overtakes, exactly.** No stale value is sent after a newer one if and only if, whenever
the timer expires, no mode waits that a movement has overridden. -/
theorem never_overtakes_iff (es : List BridgeEvent) :
    NeverOvertakes es ↔ ∀ pre post, es = pre ++ .timeout :: post →
      ∀ d, d ≠ "" → (after pre).ModeStands d := by
  have hmotor : ∀ d, d ≠ "" → (Machine.Along (Channel.step Field.motor.Waits)
      (Channel.Fresh Field.motor.Waits) Channel.init (es.map (use d .motor)) ↔
        ∀ pre post, es = pre ++ .timeout :: post → (after pre).ModeStands d) := by
    intro d hd
    rw [← Machine.along_simulation (Channel.step Field.motor.Waits) (use d .motor)
      (fun l c e h => (Seen.step hd l c e h).1) fresh_motor_iff seen_init es, Machine.along_iff]
    exact ⟨fun h pre post hcut => h pre .timeout post hcut rfl,
      fun h pre e post hcut he => h pre post (he ▸ hcut)⟩
  constructor
  · intro h pre post hcut d hd
    exact (hmotor d hd).mp ((keepsOrder_iff hd es).mp (h d .motor hd)) pre post hcut
  · intro h d F hd
    refine (keepsOrder_iff hd es).mpr ?_
    cases F with
    | motor => exact (hmotor d hd).mpr fun pre post hcut => h pre post hcut d hd
    | ir => exact Channel.along_fresh (fun _ => nofun) _
    | heater => exact Channel.along_fresh (fun _ => nofun) _

/-- **Overtaken.** The mode of the first command is sent again after the movement of the second. -/
theorem never_overtakes_fails : ¬ NeverOvertakes
    [.sendDevice "10.0.0.5" ⟨"auto", "", ""⟩, .sendDevice "10.0.0.5" ⟨"left", "", ""⟩, .timeout] :=
  fun h => absurd (h "10.0.0.5" .motor (by decide)).1 (by decide +kernel)

end Ledger

end Services

end AnoMap
