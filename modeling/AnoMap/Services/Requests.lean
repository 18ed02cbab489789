import AnoMap.Lib.JsonText
import AnoMap.Services.NetworkBridge
import Mathlib.Data.List.Nodup

/-!
# Requests

The body of a request is a JSON text put together by hand, and what the server reads in it.

* `Carries`: a body is a JSON object whose members are the fields with a value, each with its value.
* `toList_buildJson`: the body, field by field.
* `members_of_unescaped`, `unescaped_of_members`: the members the fields are read as.
* `carries_buildJson_iff`: fields under distinct plain keys are carried if and only if no value needs
  an escape.
* **`requests_exact_iff`**: so it is for the requests of the bridge.
-/

set_option autoImplicit false

namespace AnoMap

namespace Services

open Json (Unescaped)

/-- The key of a field: letters, digits and underscores. -/
def PlainIdentifier (key : String) : Prop := ∀ c ∈ key.toList, c.isAlphanum = true ∨ c = '_'

/-- The value can stand in a JSON string as it is. -/
def Safe (v : String) : Prop := ∀ c ∈ v.toList, Unescaped c

instance (v : String) : Decidable (Safe v) := List.decidableBAll Unescaped v.toList

/-- The fields with a value. -/
def fields (pairs : List (String × String)) : List (String × String) :=
  pairs.filter fun p => p.2 ≠ ""

def asMember (p : String × String) : String × Json := (p.1, .string p.2)

/-- **The body carries the fields**: it is a JSON object with these members, in any order. -/
def Carries (body : String) (pairs : List (String × String)) : Prop :=
  ∃ members, Json.IsText body (.object members) ∧ members.Perm ((fields pairs).map asMember)

/-- The call sends a message that carries the fields. -/
def Sends (call : ServiceCall) (messageType : UInt8) (pairs : List (String × String)) : Prop :=
  ∃ body, call = .send messageType body ∧ Carries body pairs

theorem PlainIdentifier.safe {key : String} (h : PlainIdentifier key) : Safe key := by
  intro c hc
  refine ⟨?_, ?_, ?_⟩
  · rcases h c hc with halnum | rfl
    · delta Char.isAlphanum Char.isAlpha Char.isUpper Char.isLower Char.isDigit at halnum
      simp only [Bool.or_eq_true, Bool.and_eq_true, decide_eq_true_eq] at halnum
      rcases halnum with (⟨hlow, -⟩ | ⟨hlow, -⟩) | ⟨hlow, -⟩ <;>
        exact le_trans (by decide) (UInt32.le_iff_toNat_le.mp hlow)
    · decide
  · rintro rfl
    exact absurd (h _ hc) (by decide)
  · rintro rfl
    exact absurd (h _ hc) (by decide)

/-! ## The body, field by field -/

/-- The text of a field, in front of what follows. -/
def fieldText (p : String × String) (tail : List Char) : List Char :=
  '"' :: (p.1.toList ++ '"' :: ':' :: '"' :: (p.2.toList ++ '"' :: tail))

/-- What follows a field, up to the end of the object. -/
def moreText : List (String × String) → List Char
  | [] => ['}']
  | p :: ps => ',' :: fieldText p (moreText ps)

/-- What follows the start of the object. -/
def fieldsText : List (String × String) → List Char
  | [] => ['}']
  | p :: ps => fieldText p (moreText ps)

theorem toList_buildJson (pairs : List (String × String)) :
    (buildJson pairs).toList = '{' :: fieldsText (fields pairs) := by
  have htext : ∀ ps : List (String × String),
      [','].intercalate (ps.map fun p => fieldText p []) ++ ['}'] = fieldsText ps := by
    intro ps
    induction ps with
    | nil => rfl
    | cons p ps ih =>
      cases ps with
      | nil => simp [fieldsText, moreText, fieldText]
      | cons q ps =>
        rw [List.map_cons] at ih ⊢
        rw [List.map_cons, List.intercalate_cons_cons, List.append_assoc, List.append_assoc, ih]
        simp [fieldsText, moreText, fieldText]
  rw [← htext, buildJson]
  simp [String.toList_append, fields, fieldText, Function.comp_def]

/-! ## The members of the body -/

theorem members_of_unescaped {ps : List (String × String)} (hne : ps ≠ [])
    (hsafe : ∀ p ∈ ps, Safe p.1 ∧ Safe p.2) :
    Json.Members (fieldsText ps) (ps.map asMember) ['}'] := by
  induction ps with
  | nil => exact absurd rfl hne
  | cons p ps ih =>
    rw [List.forall_mem_cons] at hsafe
    have hkey := Json.str_of_unescaped hsafe.1.1
    have hvalue := fun rest => Json.Parses.string (Json.str_of_unescaped hsafe.1.2 rest)
    cases ps with
    | nil => exact .one (hkey _) (Json.ws_nil _) (Json.ws_nil _) (hvalue _)
    | cons q ps =>
      exact .cons (hkey _) (Json.ws_nil _) (Json.ws_nil _) (hvalue _) (Json.ws_nil _)
        (Json.ws_nil _) (ih (List.cons_ne_nil _ _) hsafe.2)

/-- How the text of a field is read: as its key, and as its value only if nothing in it needs an
escape. -/
theorem read_field {p : String × String} {next a b c d : List Char} {key : String} {value : Json}
    (hplain : Safe p.1) (h₁ : Json.Str (fieldText p next) key a) (h₂ : Json.Ws a (':' :: b))
    (h₃ : Json.Ws b c) (h₄ : Json.Parses c value d) :
    key = p.1 ∧ (value = .string p.2 → Safe p.2 ∧ d = next) := by
  obtain ⟨rfl, rfl⟩ := Json.eq_of_str hplain h₁
  obtain ⟨-, rfl⟩ := List.cons.inj (h₂.eq rfl)
  obtain rfl := h₃.eq rfl
  obtain ⟨s, rfl, u, w, htext, hchars, rfl⟩ := Json.parses_quote h₄
  refine ⟨rfl, fun hvalue => ?_⟩
  obtain rfl : w = p.2.toList := by rw [← Json.string.inj hvalue, String.toList_ofList]
  obtain ⟨rfl, hsafe⟩ := Json.eq_of_chars hchars (List.cons.inj htext).2.symm
  exact ⟨hsafe, rfl⟩

/-- If what the texts of some fields are read as is among the fields, no value needs an escape. -/
theorem unescaped_of_members {all ps : List (String × String)} {members : List (String × Json)}
    {rest tail : List Char} (hkeys : ∀ p ∈ all, ∀ q ∈ all, p.1 = q.1 → p = q)
    (hplain : ∀ p ∈ all, Safe p.1) (hps : ∀ p ∈ ps, p ∈ all)
    (hmembers : ∀ m ∈ members, m ∈ all.map asMember)
    (h : Json.Members (fieldsText ps) members rest) (hrest : Json.Ws rest ('}' :: tail)) :
    ∀ p ∈ ps, Safe p.2 := by
  induction ps generalizing members with
  | nil => exact fun p hp => absurd hp List.not_mem_nil
  | cons p ps ih =>
    rw [List.forall_mem_cons] at hps ⊢
    -- a member under the key of `p` that is a field is `p`
    have hvalue : ∀ {v : Json}, (p.1, v) ∈ all.map asMember → v = .string p.2 := by
      intro v hmem
      obtain ⟨q, hq, hqv⟩ := List.mem_map.mp hmem
      obtain ⟨hkey, rfl⟩ := Prod.mk.inj hqv
      rw [hkeys q hq p hps.1 hkey]
    cases h with
    | one h₁ h₂ h₃ h₄ =>
      obtain ⟨rfl, hread⟩ := read_field (hplain p hps.1) h₁ h₂ h₃ h₄
      obtain ⟨hsafe, rfl⟩ := hread (hvalue (hmembers _ List.mem_cons_self))
      refine ⟨hsafe, ?_⟩
      cases ps with
      | nil => exact fun q hq => absurd hq List.not_mem_nil
      | cons q ps => cases hrest.eq rfl
    | cons h₁ h₂ h₃ h₄ h₅ h₆ h₇ =>
      rw [List.forall_mem_cons] at hmembers
      obtain ⟨rfl, hread⟩ := read_field (hplain p hps.1) h₁ h₂ h₃ h₄
      obtain ⟨hsafe, rfl⟩ := hread (hvalue hmembers.1)
      refine ⟨hsafe, ?_⟩
      cases ps with
      | nil => exact fun q hq => absurd hq List.not_mem_nil
      | cons q ps =>
        obtain ⟨-, rfl⟩ := List.cons.inj (h₅.eq rfl)
        obtain rfl := h₆.eq rfl
        exact ih hps.2 hmembers.2 h₇

/-- **Fields under distinct plain keys are carried if and only if no value needs an escape.** -/
theorem carries_buildJson_iff {pairs : List (String × String)}
    (hkeys : (pairs.map Prod.fst).Nodup) (hplain : ∀ p ∈ pairs, PlainIdentifier p.1) :
    Carries (buildJson pairs) pairs ↔ ∀ p ∈ pairs, Safe p.2 := by
  -- an empty value needs no escape
  have hfields : (∀ p ∈ pairs, Safe p.2) ↔ ∀ p ∈ fields pairs, Safe p.2 := by
    refine ⟨fun h p hp => h p (List.mem_of_mem_filter hp), fun h p hp => ?_⟩
    by_cases hempty : p.2 = ""
    · rw [hempty]
      exact fun c hc => absurd hc List.not_mem_nil
    · exact h p (List.mem_filter.mpr ⟨hp, decide_eq_true hempty⟩)
  have hplain' : ∀ p ∈ fields pairs, Safe p.1 := fun p hp =>
    (hplain p (List.mem_of_mem_filter hp)).safe
  rw [hfields]
  simp only [Carries, Json.IsText, toList_buildJson]
  constructor
  · rintro ⟨members, ⟨a, b, h₁, h₂, h₃⟩, hperm⟩
    obtain rfl := h₁.eq rfl
    rcases Json.parses_object h₂ with ⟨rfl, -⟩ | ⟨c, d, h₄, h₅, h₆⟩
    · rw [List.map_eq_nil_iff.mp hperm.symm.eq_nil]
      exact fun p hp => absurd hp List.not_mem_nil
    · have hc : fields pairs ≠ [] → c = fieldsText (fields pairs) := by
        intro hne
        obtain ⟨p, ps, hps⟩ := List.exists_cons_of_ne_nil hne
        rw [hps] at h₄ ⊢
        exact h₄.eq rfl
      intro p hp
      obtain rfl := hc (List.ne_nil_of_mem hp)
      exact unescaped_of_members
        (fun p hp q hq => List.inj_on_of_nodup_map hkeys (List.mem_of_mem_filter hp)
          (List.mem_of_mem_filter hq))
        hplain' (fun p hp => hp) (fun m hm => hperm.mem_iff.mp hm) h₅ h₆ p hp
  · intro hsafe
    refine ⟨(fields pairs).map asMember, ⟨_, [], Json.ws_nil _, ?_, Json.ws_nil _⟩, List.Perm.rfl⟩
    by_cases hne : fields pairs = []
    · rw [hne]
      exact .emptyObject (Json.ws_nil _)
    · exact .object (Json.ws_nil _)
        (members_of_unescaped hne fun p hp => ⟨hplain' p hp, hsafe p hp⟩) (Json.ws_nil _)

theorem sends_buildJson_iff {messageType : UInt8} {pairs : List (String × String)}
    (hkeys : (pairs.map Prod.fst).Nodup) (hplain : ∀ p ∈ pairs, PlainIdentifier p.1) :
    Sends (.send messageType (buildJson pairs)) messageType pairs ↔ ∀ p ∈ pairs, Safe p.2 := by
  rw [← carries_buildJson_iff hkeys hplain]
  constructor
  · rintro ⟨body, heq, h⟩
    cases heq
    exact h
  · exact fun h => ⟨_, rfl, h⟩

/-! ## The requests -/

theorem sends_login_iff (id pw : String) :
    Sends (sendLogin id pw) 0x01 [("id", id), ("pw", pw)] ↔ Safe id ∧ Safe pw := by
  rw [sendLogin, sends_buildJson_iff (by simp) (by simp [PlainIdentifier])]
  simp

theorem sends_signup_iff (id email pw : String) :
    Sends (sendSignup id email pw) 0x08
      [("action", "register"), ("id", id), ("email", email), ("pw", pw)] ↔
        Safe id ∧ Safe email ∧ Safe pw := by
  have haction : Safe "register" := by decide
  rw [sendSignup, sends_buildJson_iff (by simp) (by simp [PlainIdentifier])]
  simp [haction]

theorem sends_approve_iff (targetId : String) :
    Sends (sendApprove targetId) 0x08 [("action", "approve"), ("target_id", targetId)] ↔
      Safe targetId := by
  have haction : Safe "approve" := by decide
  rw [sendApprove, sends_buildJson_iff (by simp) (by simp [PlainIdentifier])]
  simp [haction]

theorem sends_device_iff (m : DeviceMessage) :
    Sends m.send 0x04 [("device", m.device), ("motor", m.state.motor), ("ir", m.state.ir),
      ("heater", m.state.heater)] ↔
        Safe m.device ∧ Safe m.state.motor ∧ Safe m.state.ir ∧ Safe m.state.heater := by
  rw [DeviceMessage.send, sends_buildJson_iff (by simp) (by simp [PlainIdentifier])]
  simp

theorem eq_of_mem_sendDevice {b : NetworkBridge} {deviceIp : String} {cmd : DeviceState}
    {m : DeviceMessage} (h : m ∈ (b.sendDevice deviceIp cmd).2) : m = ⟨deviceIp, cmd⟩ := by
  rw [NetworkBridge.sendDevice] at h
  by_cases hempty : deviceIp = ""
  · rw [if_pos hempty] at h
    cases h
  · rw [if_neg hempty] at h
    by_cases haction : cmd.isAction
    · rw [if_pos haction] at h
      exact List.mem_singleton.mp h
    · rw [if_neg haction] at h
      cases h

/-- **Requests carry exactly their fields** if and only if no value needs an escape. -/
theorem requests_exact_iff (pairs : List (String × String)) (id email pw targetId deviceIp : String)
    (cmd : DeviceState) (b : NetworkBridge) :
    ((pairs.map Prod.fst).Nodup → (∀ p ∈ pairs, PlainIdentifier p.1) →
      (Carries (buildJson pairs) pairs ↔ ∀ p ∈ pairs, Safe p.2)) ∧
    (Sends (sendLogin id pw) 0x01 [("id", id), ("pw", pw)] ↔ Safe id ∧ Safe pw) ∧
    (Sends (sendSignup id email pw) 0x08
      [("action", "register"), ("id", id), ("email", email), ("pw", pw)] ↔
        Safe id ∧ Safe email ∧ Safe pw) ∧
    (Sends (sendApprove targetId) 0x08 [("action", "approve"), ("target_id", targetId)] ↔
      Safe targetId) ∧
    (∀ m ∈ (b.sendDevice deviceIp cmd).2,
      (Sends m.send 0x04 [("device", deviceIp), ("motor", cmd.motor), ("ir", cmd.ir),
        ("heater", cmd.heater)] ↔
          Safe deviceIp ∧ Safe cmd.motor ∧ Safe cmd.ir ∧ Safe cmd.heater)) ∧
    (∀ m ∈ b.timeout.2,
      (Sends m.send 0x04 [("device", m.device), ("motor", m.state.motor), ("ir", m.state.ir),
        ("heater", m.state.heater)] ↔
          Safe m.device ∧ Safe m.state.motor ∧ Safe m.state.ir ∧ Safe m.state.heater)) := by
  refine ⟨carries_buildJson_iff, sends_login_iff _ _, sends_signup_iff _ _ _, sends_approve_iff _,
    fun m hm => ?_, fun m _ => sends_device_iff m⟩
  obtain rfl := eq_of_mem_sendDevice hm
  exact sends_device_iff _

/-- A user id with quotes in it: the message names an administrator, in a member of its own. -/
theorem requests_exact_fails :
    ¬ Sends (sendLogin "a\",\"admin\":\"1" "p") 0x01
      [("id", "a\",\"admin\":\"1"), ("pw", "p")] ∧
    Sends (sendLogin "a\",\"admin\":\"1" "p") 0x01 [("id", "a"), ("admin", "1"), ("pw", "p")] := by
  refine ⟨fun h => absurd (((sends_login_iff _ _).mp h).1) (by decide), ?_⟩
  have hbody : sendLogin "a\",\"admin\":\"1" "p" =
      .send 0x01 (buildJson [("id", "a"), ("admin", "1"), ("pw", "p")]) := by decide +kernel
  rw [hbody, sends_buildJson_iff (by simp) (by simp [PlainIdentifier])]
  simp [show Safe "a" by decide, show Safe "1" by decide, show Safe "p" by decide]

end Services

end AnoMap
