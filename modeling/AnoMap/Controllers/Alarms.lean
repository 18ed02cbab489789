import AnoMap.Lib.Json
import AnoMap.Lib.Ledger
import AnoMap.Lib.Machine

/-!
# Alarms

`AlarmDispatcher` and `AlarmController`: the alarms among the AI texts, and the queue of those that
are shown. The id of an entry is the reading of the clock when its alarm came.

* `dispatch`: the alarm of a text; `exists_dispatch_iff`: which texts bring one.
* `onAlarm`, `dismiss`, `clearAll`: the calls of the controller.
* `AlarmFeed`: the queue beside a ledger of the alarms that arrived; `Identified`: what the queue owes
  them.
* `FreshReading`: an alarm is not given an id that is in use.
* **`alarm_identity_iff`**: the queue is what remains of the alarms, and an id stands for one of
  them, throughout a run if and only if every reading is fresh.
-/

set_option autoImplicit false

namespace AnoMap

namespace Domain

structure AlarmEvent where
  title : String
  detail : String
  severity : ℤ
  deriving DecidableEq, Repr

namespace AlarmDispatcher

/-- The job of `dispatch`: the event its callback is called with, if any. -/
def dispatch (parsed : Json) : Except TypeError (Option AlarmEvent) := do
  if parsed.isObject = false then return none
  let type ← parsed.value "type" ""
  if type ≠ "alarm" then return none
  let title ← parsed.value "title" "AI Alert"
  let detail ← parsed.value "detail" "Anomaly detected"
  let severity ← parsed.value "severity" (1 : ℤ)
  return some ⟨title, detail, severity⟩

theorem exists_dispatch_iff (parsed : Json) : (∃ ev, dispatch parsed = .ok (some ev)) ↔
    parsed.value "type" "" = .ok "alarm" ∧ parsed.Fits String "title" ∧
      parsed.Fits String "detail" ∧ parsed.Fits ℤ "severity" := by
  by_cases ho : parsed.isObject = true
  · have hread : ∀ (α : Type) [FromJson α] (key : String) (default : α),
        (∃ a, parsed.value key default = .ok a) ↔ parsed.Fits α key := fun α _ key default =>
      Json.exists_value_iff.trans (and_iff_right ho)
    rw [← hread String "title" "AI Alert", ← hread String "detail" "Anomaly detected",
      ← hread ℤ "severity" 1]
    unfold dispatch
    rw [if_neg (by rw [ho]; decide)]
    simp only [Json.bind_eq_ok]
    constructor
    · rintro ⟨ev, type, htype, h⟩
      split_ifs at h with ht
      · cases h
      · obtain ⟨title, htitle, detail, hdetail, severity, hseverity, -⟩ := by
          simpa only [Json.bind_eq_ok] using h
        exact ⟨not_not.mp ht ▸ htype, ⟨title, htitle⟩, ⟨detail, hdetail⟩, severity, hseverity⟩
    · rintro ⟨htype, ⟨title, htitle⟩, ⟨detail, hdetail⟩, severity, hseverity⟩
      refine ⟨⟨title, detail, severity⟩, "alarm", htype, ?_⟩
      rw [if_neg (not_not.mpr rfl), htitle, hdetail, hseverity]
      rfl
  · have hno : dispatch parsed = .ok none := by
      unfold dispatch
      rw [if_pos (Bool.eq_false_of_not_eq_true ho)]
      rfl
    refine iff_of_false (fun ⟨ev, h⟩ => ?_) fun h => ?_
    · cases hno.symm.trans h
    · exact ho (Json.exists_value_iff.mp ⟨_, h.1⟩).1

end AlarmDispatcher

end Domain

namespace Controllers

open Domain

structure AlarmEntry where
  id : ℤ
  title : String
  detail : String
  severity : ℤ
  deriving DecidableEq, Repr

/-- `alarms` is both the member `alarms_` and the list `alarms()` shows, which has the same values in
the same order. -/
structure AlarmController where
  alarms : List AlarmEntry
  deriving DecidableEq

inductive AlarmSignal where
  | alarmsChanged
  deriving DecidableEq, Repr

/-- A call of the controller, an alarm with the reading of the clock. -/
inductive AlarmCall where
  | onAlarm (ev : AlarmEvent) (now : ℤ)
  | dismiss (id : ℤ)
  | clearAll

namespace AlarmController

def kMaxAlarms : ℕ := 20

def dismiss (s : AlarmController) (id : ℤ) : AlarmController × List AlarmSignal :=
  match s.alarms.findIdx? fun e => e.id = id with
  | some it => (⟨s.alarms.eraseIdx it⟩, [.alarmsChanged])
  | none => (s, [])

def clearAll (s : AlarmController) : AlarmController × List AlarmSignal :=
  if s.alarms.isEmpty then (s, []) else (⟨[]⟩, [.alarmsChanged])

/-- The entry of an alarm. -/
def entryOf (ev : AlarmEvent) (now : ℤ) : AlarmEntry := ⟨now, ev.title, ev.detail, ev.severity⟩

def onAlarm (s : AlarmController) (ev : AlarmEvent) (now : ℤ) :
    AlarmController × List AlarmSignal :=
  let alarms := if kMaxAlarms ≤ s.alarms.length then s.alarms.tail else s.alarms
  (⟨alarms ++ [entryOf ev now]⟩, [.alarmsChanged])

def step (s : AlarmController) : AlarmCall → AlarmController × List AlarmSignal
  | .onAlarm ev now => s.onAlarm ev now
  | .dismiss id => s.dismiss id
  | .clearAll => s.clearAll

theorem alarms_dismiss (s : AlarmController) (id : ℤ) :
    (s.dismiss id).1.alarms = s.alarms.eraseP fun e => e.id = id := by
  rw [List.eraseP_eq_eraseIdx, dismiss]
  cases s.alarms.findIdx? fun e => e.id = id <;> rfl

theorem alarms_clearAll (s : AlarmController) : s.clearAll.1.alarms = [] := by
  unfold clearAll
  split_ifs with h
  · exact List.isEmpty_iff.mp h
  · rfl

theorem alarms_onAlarm (s : AlarmController) (ev : AlarmEvent) (now : ℤ) :
    (s.onAlarm ev now).1.alarms = Ledger.room kMaxAlarms s.alarms ++ [entryOf ev now] := rfl

end AlarmController

/-! ## The alarms that arrived -/

/-- The controller, and the alarms that arrived beside it. -/
structure AlarmFeed where
  controller : AlarmController
  ledger : Ledger AlarmEntry

namespace AlarmFeed

open AlarmController

def init : AlarmFeed := ⟨⟨[]⟩, .empty⟩

/-- What a call means for the alarms that arrived. -/
def record (l : Ledger AlarmEntry) : AlarmCall → Ledger AlarmEntry
  | .onAlarm ev now => l.arrive kMaxAlarms (entryOf ev now)
  | .dismiss id => l.withdraw AlarmEntry.id id
  | .clearAll => l.clear

def step (s : AlarmFeed) (call : AlarmCall) : AlarmFeed × List AlarmSignal :=
  (⟨(s.controller.step call).1, record s.ledger call⟩, (s.controller.step call).2)

abbrev reach (calls : List AlarmCall) : AlarmFeed := Machine.final step init calls

/-- The queue is bounded, its ids are distinct, it is what remains of the alarms that arrived, in
that order, and to dismiss the id of one of them is to withdraw that alarm and no other. -/
structure Identified (s : AlarmFeed) : Prop where
  bounded : s.controller.alarms.length ≤ kMaxAlarms
  distinct : (s.controller.alarms.map AlarmEntry.id).Nodup
  remains : s.controller.alarms = s.ledger.contents
  dismissed : ∀ e ∈ s.ledger.remaining,
    (s.controller.dismiss e.2.id).1.alarms = (s.ledger.without e.1).contents

/-- **Alarm identity**, at all times. -/
def AlarmIdentity (calls : List AlarmCall) : Prop := ∀ pre, pre <+: calls → (reach pre).Identified

/-- **The condition.** The reading is not the id of an alarm that remains, the oldest one left out
when it gives way. -/
def FreshReading (s : AlarmFeed) : AlarmCall → Prop
  | .onAlarm _ now => now ∉ (Ledger.room kMaxAlarms s.ledger.contents).map AlarmEntry.id
  | _ => True

instance (s : AlarmFeed) (call : AlarmCall) : Decidable (s.FreshReading call) := by
  cases call <;> unfold FreshReading <;> infer_instance

/-! ## The theorem -/

/-- The invariant: all of it but the dismissals, which follow. -/
structure Sound (s : AlarmFeed) : Prop where
  bounded : s.controller.alarms.length ≤ kMaxAlarms
  distinct : (s.controller.alarms.map AlarmEntry.id).Nodup
  remains : s.controller.alarms = s.ledger.contents

variable {s : AlarmFeed}

theorem Sound.identified (h : s.Sound) : s.Identified := by
  refine ⟨h.bounded, h.distinct, h.remains, fun e he => ?_⟩
  have hkeys : (s.ledger.contents.map AlarmEntry.id).Nodup := h.remains ▸ h.distinct
  rw [alarms_dismiss, h.remains]
  exact Ledger.eraseP_contents_of_mem hkeys he

theorem Identified.sound (h : s.Identified) : s.Sound := ⟨h.bounded, h.distinct, h.remains⟩

theorem sound_init : init.Sound := ⟨Nat.zero_le _, List.nodup_nil, rfl⟩

theorem Sound.distinct_onAlarm_iff (h : s.Sound) (ev : AlarmEvent) (now : ℤ) :
    ((s.controller.onAlarm ev now).1.alarms.map AlarmEntry.id).Nodup ↔
      s.FreshReading (.onAlarm ev now) := by
  have hroom : ((Ledger.room kMaxAlarms s.controller.alarms).map AlarmEntry.id).Nodup :=
    h.distinct.sublist ((Ledger.room_sublist _ _).map _)
  rw [alarms_onAlarm, List.map_append, List.map_singleton, List.nodup_append_comm,
    List.singleton_append, List.nodup_cons, and_iff_left hroom, h.remains]
  rfl

theorem Sound.step (h : s.Sound) {call : AlarmCall} (hf : s.FreshReading call) :
    (s.step call).1.Sound := by
  cases call with
  | onAlarm ev now =>
    have hcontents : (s.controller.onAlarm ev now).1.alarms =
        (s.ledger.arrive kMaxAlarms (entryOf ev now)).contents := by
      rw [alarms_onAlarm, Ledger.contents_arrive, h.remains]
    refine ⟨?_, (h.distinct_onAlarm_iff ev now).mpr hf, hcontents⟩
    show (s.controller.onAlarm ev now).1.alarms.length ≤ kMaxAlarms
    rw [hcontents]
    exact Ledger.length_contents_arrive (by decide) (h.remains ▸ h.bounded) _
  | dismiss id =>
    have hsub : (s.controller.dismiss id).1.alarms.Sublist s.controller.alarms := by
      rw [alarms_dismiss]
      exact List.eraseP_sublist
    refine ⟨hsub.length_le.trans h.bounded, h.distinct.sublist (hsub.map _), ?_⟩
    show (s.controller.dismiss id).1.alarms = (s.ledger.withdraw AlarmEntry.id id).contents
    have hkeys : (s.ledger.contents.map AlarmEntry.id).Nodup := h.remains ▸ h.distinct
    rw [alarms_dismiss, h.remains]
    exact Ledger.eraseP_contents hkeys id
  | clearAll =>
    have hnil : (s.controller.clearAll).1.alarms = [] := alarms_clearAll s.controller
    refine ⟨?_, ?_, hnil.trans s.ledger.contents_clear.symm⟩
    · show (s.controller.clearAll).1.alarms.length ≤ kMaxAlarms
      rw [hnil]
      exact Nat.zero_le _
    · show ((s.controller.clearAll).1.alarms.map AlarmEntry.id).Nodup
      rw [hnil]
      exact List.nodup_nil

/-- **Alarm identity, exactly.** An id stands for one of the alarms that remain, throughout a run,
if and only if no alarm is given the id of one that remains. -/
theorem alarm_identity_iff (calls : List AlarmCall) :
    AlarmIdentity calls ↔ Machine.Along step FreshReading init calls := by
  constructor
  · intro h
    refine (Machine.along_iff step init calls).mpr fun pre call post hcut => ?_
    have hbefore := (h pre ⟨call :: post, hcut.symm⟩).sound
    have hafter := h (pre ++ [call]) ⟨post, by rw [hcut, List.append_assoc]; rfl⟩
    rw [reach, Machine.final_concat] at hafter
    cases call with
    | onAlarm ev now => exact (hbefore.distinct_onAlarm_iff ev now).mp hafter.distinct
    | dismiss id => trivial
    | clearAll => trivial
  · intro h pre hpre
    exact (Machine.invariant_along step sound_init (fun s call hf hs => hs.step hf) h pre
      hpre).identified

/-- An alarm without a title. -/
def sampleText (severity : ℤ) : Json :=
  .object [("type", .string "alarm"), ("severity", .integer severity)]

/-- **Two alarms in a millisecond** have one id, and to dismiss the second is to lose the first. -/
theorem alarm_identity_fails :
    ∃ first second, AlarmDispatcher.dispatch (sampleText 1) = .ok (some first) ∧
      AlarmDispatcher.dispatch (sampleText 2) = .ok (some second) ∧
      ¬ AlarmIdentity [.onAlarm first 1000, .onAlarm second 1000] ∧
      (reach [.onAlarm first 1000, .onAlarm second 1000, .dismiss 1000]).controller.alarms =
        [entryOf second 1000] := by
  refine ⟨⟨"AI Alert", "Anomaly detected", 1⟩, ⟨"AI Alert", "Anomaly detected", 2⟩, rfl, rfl, ?_,
    rfl⟩
  intro h
  have htwo := (h _ List.prefix_rfl).distinct
  exact absurd htwo (by decide +kernel)

end AlarmFeed

end Controllers

end AnoMap
