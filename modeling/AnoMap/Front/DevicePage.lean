import AnoMap.Services.Debounce
import AnoMap.Services.Requests

/-!
# The page of a device

The page has a switch for the light, one for the heater and one for the motor's automatic mode, and
four arrows that move the motor. All go to the device of the camera that is selected, over the
bridge, which sends at once or keeps for a while. No device says how it is set: the switches are all
there is to see.

* `NetworkBridge.Tells`: what was told last and what waits are what was given last (`tells_reach`).
* `step`: the page, with the calls of the bridge as what it puts out.
* **`toggled_is_told`**: the device that a switch was toggled for last is told what it was set to,
  whatever becomes of the page. While the page is shown, the switch shows that, unless it is the one
  of the automatic mode, set, and an arrow was pressed since: an arrow takes the switch back, and
  nothing tells the device.
-/

set_option autoImplicit false

namespace AnoMap

namespace Services

/-! ## What the devices are told -/

/-- The messages as the values they give. -/
def sentValues (outs : List DeviceMessage) : List (String × DeviceState) :=
  outs.map fun m => (m.device, m.state)

theorem sentValues_append (outs outs' : List DeviceMessage) :
    sentValues (outs ++ outs') = sentValues outs ++ sentValues outs' := List.map_append

theorem lastGiven_append (xs ys : List (String × DeviceState)) (d : String) (F : Field) :
    lastGiven (xs ++ ys) d F = (lastGiven ys d F).or (lastGiven xs d F) := by
  rw [lastGiven, List.reverse_append, List.find?_append, Option.map_or]
  rfl

theorem lastGiven_eq_none {calls : List (String × DeviceState)} {d : String} {F : Field}
    (h : ∀ c ∈ calls, c.1 = d → ¬ c.2.Leaves F) : lastGiven calls d F = none := by
  rw [lastGiven, Option.map_eq_none_iff, List.find?_eq_none]
  intro c hc
  rw [decide_eq_true_eq]
  exact fun hl => h c (List.mem_reverse.mp hc) hl.1 hl.2

theorem lastGiven_of_same {calls : List (String × DeviceState)} {d : String} {F : Field}
    {st : DeviceState} (h : ∀ c ∈ calls, c.1 = d → c.2 = st) (hc : (d, st) ∈ calls)
    (hl : st.Leaves F) : lastGiven calls d F = some (st.get F) := by
  unfold lastGiven
  cases hf : calls.reverse.find? fun c => c.1 = d ∧ c.2.Leaves F with
  | none =>
    have := List.find?_eq_none.mp hf (d, st) (List.mem_reverse.mpr hc)
    rw [decide_eq_true_eq] at this
    exact absurd ⟨rfl, hl⟩ this
  | some c =>
    have hd := List.find?_some hf
    rw [decide_eq_true_eq] at hd
    rw [Option.map_some, h c (List.mem_reverse.mp (List.mem_of_find?_eq_some hf)) hd.1]

theorem waits_of_lastGiven {calls : List (String × DeviceState)} {d : String} {F : Field}
    {v : String} (h : lastGiven calls d F = some v) : F.Waits v := by
  obtain ⟨c, hc, rfl⟩ := Option.map_eq_some_iff.mp h
  have hleaves := List.find?_some hc
  rw [decide_eq_true_eq] at hleaves
  exact hleaves.2.2

namespace NetworkBridge

theorem mem_sendDevice {b : NetworkBridge} {ip : String} {cmd : DeviceState}
    {c : String × DeviceState} (h : c ∈ sentValues (b.sendDevice ip cmd).2) : c = (ip, cmd) := by
  obtain ⟨m, hm, rfl⟩ := List.mem_map.mp h
  rw [eq_of_mem_sendDevice hm]

/-- The commands among the calls. -/
def commands (es : List BridgeEvent) : List (String × DeviceState) :=
  es.flatMap fun e =>
    match e with
    | .sendDevice ip cmd => [(ip, cmd)]
    | .timeout => []

theorem commands_append (es es' : List BridgeEvent) :
    commands (es ++ es') = commands es ++ commands es' := List.flatMap_append

theorem commands_timeout : commands [.timeout] = [] := rfl

/-- What was given last waits, or was told last. -/
def Tells (calls : List (String × DeviceState)) (outs : List DeviceMessage) (b : NetworkBridge) :
    Prop :=
  ∀ d, d ≠ "" → ∀ F, lastGiven calls d F =
    if (b.pending d).get F = "" then lastGiven (sentValues outs) d F
    else some ((b.pending d).get F)

theorem tells_init : Tells [] [] init := by
  intro d _ F
  exact (if_pos (DeviceState.get_empty F)).symm

theorem Tells.sendDevice {calls : List (String × DeviceState)} {outs : List DeviceMessage}
    {b : NetworkBridge} (h : Tells calls outs b) (ip : String) (cmd : DeviceState) :
    Tells (calls ++ [(ip, cmd)]) (outs ++ (b.sendDevice ip cmd).2) (b.sendDevice ip cmd).1 := by
  intro d hd F
  rw [b.pending_sendDevice ip cmd hd, lastGiven_concat, sentValues_append, lastGiven_append]
  by_cases hl : d = ip ∧ cmd.Leaves F
  · rw [if_pos hl, if_pos hl.1, DeviceState.get_merge, if_pos hl.2, if_neg hl.2.1]
  · have hsent : lastGiven (sentValues (b.sendDevice ip cmd).2) d F = none := by
      refine lastGiven_eq_none fun c hc hcd hleaves => hl ?_
      rw [mem_sendDevice hc] at hcd hleaves
      exact ⟨hcd.symm, hleaves⟩
    have hpending : (if d = ip then (b.pending d).merge cmd else b.pending d).get F =
        (b.pending d).get F := by
      split_ifs with hd
      · rw [DeviceState.get_merge, if_neg fun hleaves => hl ⟨hd, hleaves⟩]
      · rfl
    rw [if_neg hl, hsent, Option.none_or, hpending]
    exact h d hd F

theorem Tells.timeout {calls : List (String × DeviceState)} {outs : List DeviceMessage}
    {b : NetworkBridge} (h : Tells calls outs b) : Tells calls (outs ++ b.timeout.2) b.timeout.1 := by
  intro d hd F
  cases ht : b.debounceTimer with
  | false =>
    have hidle : b.timeout = (b, []) := by
      rw [NetworkBridge.timeout, ht]
      exact if_neg Bool.false_ne_true
    rw [hidle, List.append_nil]
    exact h d hd F
  | true =>
    have hsame : ∀ c ∈ sentValues b.timeout.2, c.1 = d → c.2 = b.pending d := by
      intro c hc hcd
      obtain ⟨m, hm, rfl⟩ := List.mem_map.mp hc
      rw [← hcd]
      exact ((mem_timeout_iff ht m).mp hm).2
    have hnone : (b.timeout.1.pending d).get F = "" := by
      rw [timeout_eq ht]
      exact DeviceState.get_empty F
    rw [if_pos hnone, sentValues_append, lastGiven_append]
    by_cases hp : (b.pending d).get F = ""
    · have hsent : lastGiven (sentValues b.timeout.2) d F = none :=
        lastGiven_eq_none fun c hc hcd hl => hl.1 (by rw [hsame c hc hcd, hp])
      rw [hsent, Option.none_or, h d hd F, if_pos hp]
    · have hgiven := h d hd F
      rw [if_neg hp] at hgiven
      have hmem : (d, b.pending d) ∈ sentValues b.timeout.2 :=
        List.mem_map.mpr ⟨⟨d, b.pending d⟩, (mem_timeout_iff ht _).mpr ⟨⟨F, hp⟩, rfl⟩, rfl⟩
      have hsent := lastGiven_of_same hsame hmem ⟨hp, waits_of_lastGiven hgiven⟩
      rw [hsent, hgiven, Option.some_or]

theorem tells_reach (es : List BridgeEvent) :
    Tells (commands es) (Machine.outputs step init es) (reach es) := by
  induction es using List.reverseRecOn with
  | nil => exact tells_init
  | append_singleton es e ih =>
    unfold reach at ih ⊢
    rw [commands_append, Machine.final_concat, Machine.outputs_concat]
    cases e with
    | sendDevice ip cmd => exact ih.sendDevice ip cmd
    | timeout =>
      rw [commands_timeout, List.append_nil]
      exact ih.timeout

end NetworkBridge

end Services

namespace Front

open Services

/-! ## The page -/

inductive Direction where
  | w | a | s | d
  deriving DecidableEq

def Direction.text : Direction → String
  | .w => "w"
  | .a => "a"
  | .s => "s"
  | .d => "d"

/-- A command that gives one field. -/
def valueFor (F : Services.Field) (v : String) : DeviceState :=
  match F with
  | .motor => ⟨v, "", ""⟩
  | .ir => ⟨"", v, ""⟩
  | .heater => ⟨"", "", v⟩

/-- What a switch gives. -/
def switchText (F : Services.Field) (checked : Bool) : String :=
  match F with
  | .motor => if checked then "auto" else "unauto"
  | .ir | .heater => if checked then "on" else "off"

structure DevicePage where
  selectedIp : String
  lightSwitch : Bool
  helperSwitch : Bool
  autoSwitch : Bool
  deriving DecidableEq

namespace DevicePage

def init : DevicePage := ⟨"", false, false, false⟩

/-- The switch for a field. -/
def checked (p : DevicePage) : Services.Field → Bool
  | .motor => p.autoSwitch
  | .ir => p.lightSwitch
  | .heater => p.helperSwitch

def setChecked (p : DevicePage) (b : Bool) : Services.Field → DevicePage
  | .motor => { p with autoSwitch := b }
  | .ir => { p with lightSwitch := b }
  | .heater => { p with helperSwitch := b }

/-- `cameraSelected`: with the device of the camera, `""` for none. `opened`: the page is shown anew.
`timeout`: of the bridge. -/
inductive Event where
  | cameraSelected (ip : String)
  | deactivating
  | opened
  | toggled (F : Services.Field)
  | pressed (dir : Direction)
  | timeout
  deriving DecidableEq

def onToggled (p : DevicePage) (F : Services.Field) : DevicePage × List BridgeEvent :=
  (p.setChecked (!p.checked F) F,
    [.sendDevice p.selectedIp (valueFor F (switchText F (!p.checked F)))])

/-- The switch is set, which is not the user's toggling: `onToggled` does not run. -/
def onPressed (p : DevicePage) (dir : Direction) : DevicePage × List BridgeEvent :=
  (if p.autoSwitch then p.setChecked false .motor else p,
    [.sendDevice p.selectedIp (valueFor .motor dir.text)])

/-- The switches and the arrows are there for a selected device only. -/
def step (p : DevicePage) : Event → DevicePage × List BridgeEvent
  | .cameraSelected ip => ({ p with selectedIp := ip }, [])
  | .deactivating => ({ p with selectedIp := "" }, [])
  | .opened => (init, [])
  | .toggled F => if p.selectedIp = "" then (p, []) else p.onToggled F
  | .pressed dir => if p.selectedIp = "" then (p, []) else p.onPressed dir
  | .timeout => (p, [.timeout])

/-- The page after a run. -/
def reach (es : List Event) : DevicePage := Machine.final step init es

/-- The run of the bridge under a run of the page. -/
def calls (es : List Event) : List BridgeEvent := Machine.outputs step init es

theorem reach_append (es es' : List Event) :
    reach (es ++ es') = Machine.final step (reach es) es' := Machine.final_append step init es es'

theorem calls_append (es es' : List Event) :
    calls (es ++ es') = calls es ++ Machine.outputs step (reach es) es' :=
  Machine.outputs_append step init es es'

/-- What the messages of a run gave a device last. -/
def told (es : List Event) (d : String) (F : Services.Field) : Option String :=
  lastGiven (sentValues (Machine.outputs NetworkBridge.step .init (calls es))) d F

/-- A movement is among the calls. -/
def Moved (cs : List BridgeEvent) : Prop :=
  ∃ d dir, BridgeEvent.sendDevice d (valueFor .motor (Direction.text dir)) ∈ cs

theorem moved_append (cs cs' : List BridgeEvent) : Moved (cs ++ cs') ↔ Moved cs ∨ Moved cs' := by
  unfold Moved
  simp only [List.mem_append, exists_or]

@[simp] theorem checked_setChecked (p : DevicePage) (b : Bool) (F G : Services.Field) :
    (p.setChecked b G).checked F = if G = F then b else p.checked F := by
  cases F <;> cases G <;> rfl

/-! ## What is given -/

variable {p : DevicePage} {F : Services.Field} {es : List Event}

theorem leaves_valueFor {G : Services.Field} {v : String} :
    (valueFor F v).Leaves G ↔ F = G ∧ v ≠ "" ∧ F.Waits v := by
  by_cases h : F = G
  · subst h
    have hget : (valueFor F v).get F = v := by cases F <;> rfl
    rw [DeviceState.Leaves, hget]
    exact (and_iff_right rfl).symm
  · have hget : (valueFor F v).get G = "" := by
      cases F <;> cases G <;> first | rfl | exact absurd rfl h
    exact iff_of_false (fun hl => hl.1 hget) fun hh => h hh.1

theorem switchText_waits (F : Services.Field) (b : Bool) :
    switchText F b ≠ "" ∧ F.Waits (switchText F b) := by
  cases F <;> cases b <;> decide

theorem not_leaves_direction (dir : Direction) (F : Services.Field) :
    ¬ (valueFor .motor dir.text).Leaves F := by
  rw [leaves_valueFor]
  rintro ⟨-, -, hw⟩
  cases dir <;> exact absurd hw (by decide)

theorem not_leaves_of_mem_step {e : Event} (he : e ≠ .toggled F) {c : String × DeviceState}
    (hc : c ∈ NetworkBridge.commands (p.step e).2) : ¬ c.2.Leaves F := by
  cases e with
  | cameraSelected | deactivating | opened | timeout => cases hc
  | toggled G =>
    rw [step] at hc
    split_ifs at hc
    · cases hc
    · rw [List.mem_singleton.mp hc, leaves_valueFor]
      exact fun hl => he (congrArg _ hl.1)
  | pressed dir =>
    rw [step] at hc
    split_ifs at hc
    · cases hc
    · rw [List.mem_singleton.mp hc]
      exact not_leaves_direction dir F

/-- Only its switch gives a field a value that stays. -/
theorem not_leaves_of_mem_outputs (hes : ∀ e ∈ es, e ≠ .toggled F) (p : DevicePage)
    {c : String × DeviceState}
    (hc : c ∈ NetworkBridge.commands (Machine.outputs step p es)) : ¬ c.2.Leaves F := by
  induction es generalizing p with
  | nil => cases hc
  | cons e es ih =>
    rw [Machine.outputs_cons, NetworkBridge.commands_append, List.mem_append] at hc
    obtain ⟨he, hes⟩ := List.forall_mem_cons.mp hes
    exact hc.elim (not_leaves_of_mem_step he) (ih hes _)

/-! ## What is shown -/

theorem not_moved_nil : ¬ Moved [] := by
  rintro ⟨d, dir, h⟩
  cases h

theorem not_moved_onToggled (p : DevicePage) (hF : F ≠ .motor) : ¬ Moved (p.onToggled F).2 := by
  rintro ⟨d, dir, h⟩
  have hcmd := (BridgeEvent.sendDevice.inj (List.mem_singleton.mp h)).2
  cases F with
  | motor => exact hF rfl
  | ir | heater =>
    have hmotor : dir.text = "" := congrArg DeviceState.motor hcmd
    cases dir <;> exact absurd hmotor (by decide)

/-- **A switch that is left alone** shows what it did, but an arrow takes back the one of the
automatic mode. -/
theorem checked_step {e : Event} (ho : e ≠ .opened) (ht : e ≠ .toggled F) :
    (p.step e).1.checked F = true ↔
      p.checked F = true ∧ ¬ (F = .motor ∧ Moved (p.step e).2) := by
  cases e with
  | cameraSelected ip =>
    have hsame : (p.step (.cameraSelected ip)).1.checked F = p.checked F := by cases F <;> rfl
    rw [hsame]
    exact (and_iff_left fun hm => not_moved_nil hm.2).symm
  | deactivating =>
    have hsame : (p.step .deactivating).1.checked F = p.checked F := by cases F <;> rfl
    rw [hsame]
    exact (and_iff_left fun hm => not_moved_nil hm.2).symm
  | opened => exact absurd rfl ho
  | toggled G =>
    have hG : G ≠ F := fun hG => ht (congrArg _ hG)
    rw [step]
    split_ifs
    · exact (and_iff_left fun hm => not_moved_nil hm.2).symm
    · rw [show (p.onToggled G).1.checked F = p.checked F from by
        rw [onToggled, checked_setChecked, if_neg hG]]
      exact (and_iff_left fun hm => not_moved_onToggled p (fun hm' => hG (hm'.trans hm.1.symm))
        hm.2).symm
  | pressed dir =>
    rw [step]
    split_ifs
    · exact (and_iff_left fun hm => not_moved_nil hm.2).symm
    · have hmoved : Moved (p.onPressed dir).2 := ⟨_, dir, List.mem_singleton_self _⟩
      rw [onPressed, apply_ite (checked · F), checked_setChecked]
      by_cases hF : F = .motor
      · subst hF
        refine iff_of_false ?_ fun h => h.2 ⟨rfl, hmoved⟩
        rw [if_pos rfl]
        split_ifs with ha
        · exact id
        · exact ha
      · rw [if_neg (Ne.symm hF), ite_self]
        exact (and_iff_left fun hm => hF hm.1).symm
  | timeout =>
    refine (and_iff_left ?_).symm
    rintro ⟨-, d, dir, h⟩
    cases List.mem_singleton.mp h

theorem checked_final (hes : ∀ e ∈ es, e ≠ .opened ∧ e ≠ .toggled F) (p : DevicePage) :
    (Machine.final step p es).checked F = true ↔
      p.checked F = true ∧ ¬ (F = .motor ∧ Moved (Machine.outputs step p es)) := by
  induction es generalizing p with
  | nil => exact (and_iff_left fun hm => not_moved_nil hm.2).symm
  | cons e es ih =>
    obtain ⟨he, hes⟩ := List.forall_mem_cons.mp hes
    rw [Machine.final_cons, Machine.outputs_cons, ih hes, checked_step he.1 he.2, moved_append,
      and_or_left, not_or, and_assoc]

/-- **A toggled switch.** Once nothing waits, the device was told last what the switch was set to.
On the same page the switch shows it, unless the motor was made automatic and moved since. -/
theorem toggled_is_told (es₀ es : List Event) (F : Services.Field)
    (hd : (reach es₀).selectedIp ≠ "") (hes : ∀ e ∈ es, e ≠ .toggled F)
    (hquiet : (NetworkBridge.reach (calls (es₀ ++ .toggled F :: es))).pending
      (reach es₀).selectedIp = .empty) :
    let set := !(reach es₀).checked F
    told (es₀ ++ .toggled F :: es) (reach es₀).selectedIp F = some (switchText F set) ∧
    ((∀ e ∈ es, e ≠ .opened) → ((reach (es₀ ++ .toggled F :: es)).checked F = set ↔
      ¬ (F = .motor ∧ set = true ∧
        Moved (Machine.outputs step ((reach es₀).onToggled F).1 es)))) := by
  intro set
  have htoggled : (reach es₀).step (.toggled F) = (reach es₀).onToggled F := if_neg hd
  constructor
  · have hsince : lastGiven (NetworkBridge.commands (Machine.outputs step
        ((reach es₀).onToggled F).1 es)) (reach es₀).selectedIp F = none :=
      lastGiven_eq_none fun c hc _ => not_leaves_of_mem_outputs hes _ hc
    have hcommand : NetworkBridge.commands ((reach es₀).onToggled F).2 =
        [((reach es₀).selectedIp, valueFor F (switchText F set))] := rfl
    have htells := NetworkBridge.tells_reach (calls (es₀ ++ .toggled F :: es)) _ hd F
    rw [hquiet, if_pos (DeviceState.get_empty F)] at htells
    rw [told, ← htells, calls_append, Machine.outputs_cons, htoggled,
      NetworkBridge.commands_append, NetworkBridge.commands_append, ← List.append_assoc,
      lastGiven_append, hsince, Option.none_or, hcommand, lastGiven_concat,
      if_pos ⟨rfl, leaves_valueFor.mpr ⟨rfl, switchText_waits F set⟩⟩]
    cases F <;> rfl
  · intro hopened
    have hfinal : reach (es₀ ++ .toggled F :: es) =
        Machine.final step ((reach es₀).onToggled F).1 es := by
      rw [reach_append, Machine.final_cons, htoggled]
    have hset : ((reach es₀).onToggled F).1.checked F = set := by
      rw [onToggled, checked_setChecked, if_pos rfl]
    have hchecked := checked_final (fun e he => ⟨hopened e he, hes e he⟩)
      ((reach es₀).onToggled F).1
    rw [← hfinal, hset] at hchecked
    cases hs : set with
    | false =>
      rw [hs] at hchecked
      refine iff_of_true ?_ fun h => Bool.false_ne_true h.2.1
      exact Bool.eq_false_iff.mpr fun h => Bool.false_ne_true (hchecked.mp h).1
    | true =>
      rw [hs] at hchecked
      simpa using hchecked

/-- The motor is made automatic, then moved: the device stays automatic, the switch goes off. -/
theorem toggled_is_told_moved :
    told [.cameraSelected "10.0.0.1", .toggled .motor, .timeout, .pressed .w] "10.0.0.1" .motor =
      some "auto" ∧
    ((reach [.cameraSelected "10.0.0.1", .toggled .motor, .timeout, .pressed .w]).checked .motor =
      true ↔ ¬ (Services.Field.motor = .motor ∧ true = true ∧
        Moved [.timeout, .sendDevice "10.0.0.1" (valueFor .motor "w")])) := by
  obtain ⟨htold, hshown⟩ := toggled_is_told [.cameraSelected "10.0.0.1"] [.timeout, .pressed .w]
    .motor (by decide) (by decide) (by decide +kernel)
  exact ⟨htold, hshown (by decide)⟩

end DevicePage

end Front

end AnoMap
