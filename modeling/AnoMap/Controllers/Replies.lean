import AnoMap.Controllers.Auth
import AnoMap.Lib.Machine

/-!
# Replies

The login and the signup controller on one bridge: the connection they share, the requests the
server has not answered, and the calls posted to the thread of the user interface.

* `Client`, `step`: commands of the user, what happens to the connection, replies and posted calls.
  The server answers the requests of a connection in order.
* `Settled`: a reply settles the request it answers; `StateFromLogin`: a state comes from a SUCCESS
  that answers a LOGIN.
* `Routed`: a SUCCESS answers a LOGIN, and a FAIL names the kind of its request, or the connection
  was opened for that kind.
* **`settled_iff`**: every reply of a run settles its request if and only if every one is routed.
* `routed_of_loginOnly`: a client that only logs in has every reply routed.
-/

set_option autoImplicit false

namespace AnoMap

namespace Controllers

open Services

/-- The controller that makes a request. -/
inductive Side where
  | login
  | signup
  deriving DecidableEq, Repr

/-- A connection, with the requests made on it that are not answered yet. -/
structure Link where
  purpose : String
  connected : Bool
  unanswered : List Side

/-- A call posted to the thread of the user interface. A reply stands beside what it answers. -/
inductive Posted where
  | connected (purpose : String)
  | success (body : ReplyBody) (answers : Side)
  | fail (purpose : String) (body : ReplyBody) (answers : Side)

/-- The signal of the bridge that a posted call emits, if any. -/
def Posted.signal? : Posted → Option BridgeSignal
  | .connected purpose => onConnected purpose
  | .success body _ => onLoginResult body
  | .fail purpose body _ => some (onLoginFail purpose body)

/-- The request that a posted call answers, if it brings a reply. -/
def Posted.answers? : Posted → Option Side
  | .connected _ => none
  | .success _ side | .fail _ _ side => some side

/-- A FAIL names the kind of its request, or it names neither and the connection was opened for that
kind. -/
def FailFits (purpose : String) (body : ReplyBody) : Side → Prop
  | .login => toQString body.doc "context" = "login" ∨
    toQString body.doc "context" ≠ "signup" ∧ purpose = "login"
  | .signup => toQString body.doc "context" = "signup" ∨
    toQString body.doc "context" ≠ "login" ∧ purpose ≠ "login"

/-- A SUCCESS is an object that answers a LOGIN; a FAIL fits its request. -/
def Posted.Routed : Posted → Prop
  | .connected _ => True
  | .success body side => body.doc.isObject = true ∧ side = .login
  | .fail purpose body side => FailFits purpose body side

/-- The request of a message: LOGIN, or the one ASSIGN message of the controllers, to register. -/
def requestOf (messageType : UInt8) : Option Side :=
  if messageType = 0x01 then some .login
  else if messageType = 0x08 then some .signup
  else none

namespace Link

/-- A request on a connection that is not made is dropped. -/
def request (side : Side) (k : Link) : Link :=
  if k.connected then { k with unanswered := k.unanswered ++ [side] } else k

/-- A call of the service. -/
def perform (link : Option Link) : ServiceCall → Option Link
  | .connect _ _ purpose => some ⟨purpose, false, []⟩
  | .disconnect => none
  | .send messageType _ =>
    match requestOf messageType with
    | none => link
    | some side => link.map (request side)

/-- What a reply posts: a message without a body is not processed. -/
def callback (k : Link) (success : Bool) (body : ReplyBody) (answers : Side) : List Posted :=
  if body.text = "" then []
  else if success then [.success body answers]
  else [.fail k.purpose body answers]

end Link

structure Client where
  login : LoginController
  signup : SignupController
  link : Option Link
  posted : List Posted

/-- `connected`, `lost`: the connection is made, or breaks. `reply`: the server answers a request,
by SUCCESS or else by FAIL. `gui`: the first posted call is run. -/
inductive ClientEvent where
  | login (id password : String)
  | signup (id email password : String)
  | logout
  | connected
  | lost
  | reply (success : Bool) (body : ReplyBody)
  | gui

def callsOf (os : List AuthOutput) : List BridgeCall :=
  os.filterMap fun
    | .call c => some c
    | .signal _ => none

def signalsOf (os : List AuthOutput) : List AuthSignal :=
  os.filterMap fun
    | .signal s => some s
    | .call _ => none

namespace Client

def init (host port : String) : Client := ⟨.init host port, .init host port, none, []⟩

def auth (c : Client) : Side → AuthController
  | .login => c.login.toAuthController
  | .signup => c.signup.toAuthController

/-- `NetworkBridge::isConnected`. -/
def isConnected (c : Client) : Bool := c.link.any Link.connected

/-- The connection after the calls of the bridge. -/
def linkAfter (c : Client) (calls : List BridgeCall) : Option Link :=
  (calls.map BridgeCall.toService).foldl Link.perform c.link

/-- An operation of the login controller. -/
def runLogin (c : Client) (r : LoginController × List AuthOutput) :
    Client × List (Side × AuthSignal) :=
  ({ c with login := r.1, link := c.linkAfter (callsOf r.2) },
    (signalsOf r.2).map fun s => (.login, s))

/-- An operation of the signup controller. -/
def runSignup (c : Client) (r : SignupController × List AuthOutput) :
    Client × List (Side × AuthSignal) :=
  ({ c with signup := r.1, link := c.linkAfter (callsOf r.2) },
    (signalsOf r.2).map fun s => (.signup, s))

/-- The slot that a signal of the bridge is connected to. -/
def dispatch (c : Client) : BridgeSignal → Client × List (Side × AuthSignal)
  | .connectedForLogin => c.runLogin c.login.onConnected
  | .connectedForSignup => c.runSignup c.signup.onConnected
  | .loginSuccess state username => c.runLogin (c.login.handleLoginSuccess state username)
  | .loginFailed error => c.runLogin (c.login.handleLoginFailed error)
  | .signupSuccess message => c.runSignup (c.signup.handleSignupSuccess message)
  | .signupFailed error => c.runSignup (c.signup.handleSignupFailed error)

/-- A posted call is run. -/
def run (c : Client) (p : Posted) : Client × List (Side × AuthSignal) :=
  match p.signal? with
  | none => (c, [])
  | some s => c.dispatch s

def step (c : Client) : ClientEvent → Client × List (Side × AuthSignal)
  | .login id password => c.runLogin (c.login.login c.isConnected id password)
  | .signup id email password => c.runSignup (c.signup.signup c.isConnected id email password)
  | .logout => c.runLogin c.login.logout
  | .connected =>
    match c.link with
    | none => (c, [])
    | some k =>
      if k.connected then (c, [])
      else ({ c with
        link := some { k with connected := true }
        posted := c.posted ++ [.connected k.purpose] }, [])
  | .lost => ({ c with link := none }, [])
  | .reply success body =>
    match c.link with
    | none => (c, [])
    | some k =>
      match k.unanswered with
      | [] => (c, [])
      | side :: rest => ({ c with
        link := some { k with unanswered := rest }
        posted := c.posted ++ k.callback success body side }, [])
  | .gui =>
    match c.posted with
    | [] => (c, [])
    | p :: ps => run { c with posted := ps } p

/-! ## The statement -/

/-- The success signal of a controller, or `isErrorChanged` with an error standing. -/
def Raises (side : Side) (r : Client × List (Side × AuthSignal)) : Prop :=
  (side, .loginSuccess) ∈ r.2 ∨ (∃ message, (side, .signupSuccess message) ∈ r.2) ∨
    (side, .isErrorChanged) ∈ r.2 ∧ (r.1.auth side).isError = true

/-- The controller that did not make the request is the same, and emits nothing. -/
def OtherKept (c : Client) (r : Client × List (Side × AuthSignal)) : Side → Prop
  | .login => r.1.signup = c.signup ∧ ∀ s, (.signup, s) ∉ r.2
  | .signup => r.1.login = c.login ∧ ∀ s, (.login, s) ∉ r.2

/-- What a reply to a request of `side` is to do. -/
structure Settles (side : Side) (c : Client) (r : Client × List (Side × AuthSignal)) : Prop where
  isLoading : (r.1.auth side).isLoading = false
  raises : Raises side r
  otherKept : OtherKept c r side

/-- **Replies settle the request they answer.** A reply that arrives is handed to the bridge, and
when it is run there it settles its request. -/
def Settled (c : Client) : ClientEvent → Prop
  | .reply success body => ∀ k side rest, c.link = some k → k.unanswered = side :: rest →
      ∃ p, p.answers? = some side ∧ (c.step (.reply success body)).1.posted = c.posted ++ [p]
  | .gui => ∀ p ps side, c.posted = p :: ps → p.answers? = some side →
      Settles side c (c.step .gui)
  | _ => True

/-- **A state comes from a login.** The login controller gets a state that is not empty only from a
SUCCESS that answers a LOGIN. -/
def StateFromLogin (c : Client) (e : ClientEvent) : Prop :=
  (c.step e).1.login.state = c.login.state ∨ (c.step e).1.login.state = "" ∨
    e = .gui ∧ ∃ body ps, c.posted = .success body .login :: ps

def Routed (c : Client) : ClientEvent → Prop
  | .reply _ body => (∃ k, c.link = some k ∧ k.unanswered ≠ []) → body.text ≠ ""
  | .gui => ∀ p ps, c.posted = p :: ps → p.Routed
  | _ => True

/-! ## One reply -/

theorem mem_signalsOf {os : List AuthOutput} {s : AuthSignal} :
    s ∈ signalsOf os ↔ .signal s ∈ os := by
  rw [signalsOf, List.mem_filterMap]
  constructor
  · rintro ⟨o, ho, hs⟩
    cases o with
    | signal t => rwa [← Option.some.inj hs]
    | call _ => cases hs
  · exact fun h => ⟨_, h, rfl⟩

theorem mem_runLogin {c : Client} {r : LoginController × List AuthOutput} {side : Side}
    {s : AuthSignal} : (side, s) ∈ (c.runLogin r).2 ↔ side = .login ∧ .signal s ∈ r.2 := by
  rw [runLogin, List.mem_map]
  constructor
  · rintro ⟨t, ht, he⟩
    cases he
    exact ⟨rfl, mem_signalsOf.mp ht⟩
  · rintro ⟨rfl, h⟩
    exact ⟨s, mem_signalsOf.mpr h, rfl⟩

theorem mem_runSignup {c : Client} {r : SignupController × List AuthOutput} {side : Side}
    {s : AuthSignal} : (side, s) ∈ (c.runSignup r).2 ↔ side = .signup ∧ .signal s ∈ r.2 := by
  rw [runSignup, List.mem_map]
  constructor
  · rintro ⟨t, ht, he⟩
    cases he
    exact ⟨rfl, mem_signalsOf.mp ht⟩
  · rintro ⟨rfl, h⟩
    exact ⟨s, mem_signalsOf.mpr h, rfl⟩

/-- The controller whose reply a signal of the bridge is. -/
def target : BridgeSignal → Option Side
  | .connectedForLogin | .connectedForSignup => none
  | .loginSuccess _ _ | .loginFailed _ => some .login
  | .signupSuccess _ | .signupFailed _ => some .signup

/-- **A reply signal** settles a request of the controller it goes to. -/
theorem settles_dispatch (c : Client) {s : BridgeSignal} {side : Side} (h : target s = some side) :
    Settles side c (c.dispatch s) := by
  cases s with
  | connectedForLogin => cases h
  | connectedForSignup => cases h
  | loginSuccess state username =>
    cases h
    refine ⟨AuthController.setLoading_isLoading _ _, Or.inl (mem_runLogin.mpr ⟨rfl, ?_⟩), rfl,
      fun s hs => ?_⟩
    · exact List.mem_append_right _ (by simp)
    · cases (mem_runLogin.mp hs).1
  | loginFailed error =>
    cases h
    refine ⟨AuthController.setLoading_isLoading _ _,
      Or.inr (Or.inr ⟨mem_runLogin.mpr ⟨rfl, ?_⟩, rfl⟩), rfl, fun s hs => ?_⟩
    · exact List.mem_append_right _ List.mem_cons_self
    · cases (mem_runLogin.mp hs).1
  | signupSuccess message =>
    cases h
    refine ⟨AuthController.setLoading_isLoading _ _,
      Or.inr (Or.inl ⟨message, mem_runSignup.mpr ⟨rfl, ?_⟩⟩), rfl, fun s hs => ?_⟩
    · exact List.mem_append_right _ (by simp)
    · cases (mem_runSignup.mp hs).1
  | signupFailed error =>
    cases h
    refine ⟨AuthController.setLoading_isLoading _ _,
      Or.inr (Or.inr ⟨mem_runSignup.mpr ⟨rfl, ?_⟩, rfl⟩), rfl, fun s hs => ?_⟩
    · exact List.mem_append_right _ List.mem_cons_self
    · cases (mem_runSignup.mp hs).1

theorem Raises.mem {side : Side} {r : Client × List (Side × AuthSignal)} (h : Raises side r) :
    ∃ s, (side, s) ∈ r.2 := by
  rcases h with h | ⟨message, h⟩ | ⟨h, -⟩
  · exact ⟨_, h⟩
  · exact ⟨_, h⟩
  · exact ⟨_, h⟩

theorem side_of_mem_dispatch {c : Client} {s : BridgeSignal} {side t : Side}
    (h : target s = some t) {a : AuthSignal} (ha : (side, a) ∈ (c.dispatch s).2) : side = t := by
  cases s <;> cases h
  · exact (mem_runLogin.mp ha).1
  · exact (mem_runLogin.mp ha).1
  · exact (mem_runSignup.mp ha).1
  · exact (mem_runSignup.mp ha).1

theorem settles_dispatch_iff (c : Client) {s : BridgeSignal} {side t : Side}
    (h : target s = some t) : Settles side c (c.dispatch s) ↔ side = t := by
  refine ⟨fun hs => ?_, fun hside => settles_dispatch c (hside ▸ h)⟩
  obtain ⟨a, ha⟩ := hs.raises.mem
  exact side_of_mem_dispatch h ha

theorem target_onLoginResult {body : ReplyBody} (h : body.doc.isObject = true) :
    ∃ s, onLoginResult body = some s ∧ target s = some .login := by
  unfold onLoginResult
  rw [if_neg (by rw [h]; decide)]
  split_ifs
  · exact ⟨_, rfl, rfl⟩
  · exact ⟨_, rfl, rfl⟩

/-- A FAIL goes to the one controller it fits. -/
theorem target_onLoginFail (purpose : String) (body : ReplyBody) :
    ∃ t, target (onLoginFail purpose body) = some t ∧
      ∀ side, FailFits purpose body side ↔ side = t := by
  unfold onLoginFail
  dsimp only
  split_ifs with hlogin hsignup hpurpose
  · refine ⟨.login, rfl, fun side => ?_⟩
    cases side <;> simp [FailFits, hlogin]
  · refine ⟨.signup, rfl, fun side => ?_⟩
    cases side <;> simp [FailFits, hsignup]
  · refine ⟨.login, rfl, fun side => ?_⟩
    cases side <;> simp [FailFits, hsignup, hpurpose]
  · refine ⟨.signup, rfl, fun side => ?_⟩
    cases side <;> simp [FailFits, hlogin, hpurpose]

/-- **One reply** settles the request it answers if and only if it is routed. -/
theorem settles_run_iff (c : Client) {p : Posted} {side : Side} (h : p.answers? = some side) :
    Settles side c (c.run p) ↔ p.Routed := by
  cases p with
  | connected purpose => cases h
  | success body answers =>
    obtain rfl := Option.some.inj h
    unfold run Posted.Routed Posted.signal?
    dsimp only
    cases hobj : body.doc.isObject with
    | false =>
      rw [onLoginResult, if_pos hobj]
      refine ⟨fun hs => ?_, fun hr => absurd hr.1 (by decide)⟩
      obtain ⟨a, ha⟩ := hs.raises.mem
      exact absurd ha List.not_mem_nil
    | true =>
      obtain ⟨s, hs, ht⟩ := target_onLoginResult hobj
      rw [hs]
      exact (settles_dispatch_iff c ht).trans (and_iff_right rfl).symm
  | fail purpose body answers =>
    obtain rfl := Option.some.inj h
    obtain ⟨t, ht, hfits⟩ := target_onLoginFail purpose body
    exact (settles_dispatch_iff c ht).trans (hfits answers).symm

/-! ## The theorem -/

theorem posted_reply {c : Client} {k : Link} {side : Side} {rest : List Side}
    (hlink : c.link = some k) (hun : k.unanswered = side :: rest) (success : Bool)
    (body : ReplyBody) : (c.step (.reply success body)).1.posted =
      c.posted ++ k.callback success body side := by
  unfold step
  dsimp only
  rw [hlink]
  dsimp only
  rw [hun]

theorem settled_reply_iff (c : Client) (success : Bool) (body : ReplyBody) :
    Settled c (.reply success body) ↔ Routed c (.reply success body) := by
  constructor
  · rintro h ⟨k, hlink, hun⟩ htext
    obtain ⟨side, rest, hcons⟩ := List.exists_cons_of_ne_nil hun
    obtain ⟨p, -, hp⟩ := h k side rest hlink hcons
    rw [posted_reply hlink hcons, Link.callback, if_pos htext] at hp
    exact absurd (List.append_cancel_left hp) (by simp)
  · intro h k side rest hlink hcons
    have htext := h ⟨k, hlink, by rw [hcons]; nofun⟩
    rw [posted_reply hlink hcons, Link.callback, if_neg htext]
    cases success
    · exact ⟨_, rfl, rfl⟩
    · exact ⟨_, rfl, rfl⟩

theorem settled_gui_iff (c : Client) : Settled c .gui ↔ Routed c .gui := by
  unfold Settled Routed step
  dsimp only
  cases hp : c.posted with
  | nil => exact ⟨fun _ => nofun, fun _ => nofun⟩
  | cons p ps =>
    have hsettles : ∀ side, Settles side c (run { c with posted := ps } p) ↔
        Settles side { c with posted := ps } (run { c with posted := ps } p) := by
      intro side
      cases side <;> exact ⟨fun h => ⟨h.1, h.2, h.3⟩, fun h => ⟨h.1, h.2, h.3⟩⟩
    constructor
    · rintro h q qs ⟨⟩
      cases hans : p.answers? with
      | none =>
        cases p with
        | connected purpose => trivial
        | success body side => cases hans
        | fail purpose body side => cases hans
      | some side => exact (settles_run_iff _ hans).mp ((hsettles side).mp (h p ps side rfl hans))
    · rintro h q qs side ⟨⟩ hans
      exact (hsettles side).mpr ((settles_run_iff _ hans).mpr (h p ps rfl))

theorem dispatch_state (c : Client) {s : BridgeSignal}
    (h : ∀ state username, s ≠ .loginSuccess state username) :
    (c.dispatch s).1.login.state = c.login.state := by
  cases s with
  | loginSuccess state username => exact absurd rfl (h state username)
  | connectedForLogin => exact c.login.onConnected_state
  | loginFailed _ | connectedForSignup | signupSuccess _ | signupFailed _ => rfl

theorem run_state (c : Client) {p : Posted} (h : ∀ body side, p ≠ .success body side) :
    (c.run p).1.login.state = c.login.state := by
  cases p with
  | success body side => exact absurd rfl (h body side)
  | connected purpose =>
    unfold run Posted.signal? onConnected
    dsimp only
    split_ifs
    · exact c.login.onConnected_state
    · rfl
    · rfl
  | fail purpose body side =>
    refine dispatch_state c fun state username he => ?_
    unfold onLoginFail at he
    dsimp only at he
    split_ifs at he

theorem stateFromLogin_of_routed {c : Client} {e : ClientEvent} (h : Routed c e) :
    StateFromLogin c e := by
  cases e with
  | login id password => exact Or.inl (c.login.login_state _ id password)
  | signup id email password => exact Or.inl rfl
  | logout => exact Or.inr (Or.inl rfl)
  | lost => exact Or.inl rfl
  | connected =>
    left
    unfold step
    cases c.link with
    | none => rfl
    | some k =>
      dsimp only
      split_ifs <;> rfl
  | reply success body =>
    left
    unfold step
    cases c.link with
    | none => rfl
    | some k =>
      dsimp only
      cases k.unanswered <;> rfl
  | gui =>
    unfold StateFromLogin step
    cases hp : c.posted with
    | nil => exact Or.inl rfl
    | cons p ps =>
      by_cases hs : ∃ body side, p = .success body side
      · obtain ⟨body, side, rfl⟩ := hs
        obtain ⟨-, rfl⟩ := h _ ps hp
        exact Or.inr (Or.inr ⟨rfl, body, ps, rfl⟩)
      · exact Or.inl (run_state { c with posted := ps } fun body side he => hs ⟨body, side, he⟩)

theorem settled_step_iff (c : Client) (e : ClientEvent) :
    Settled c e ∧ StateFromLogin c e ↔ Routed c e := by
  have hiff : Settled c e ↔ Routed c e := by
    cases e with
    | reply success body => exact settled_reply_iff c success body
    | gui => exact settled_gui_iff c
    | _ => exact Iff.rfl
  exact ⟨fun h => hiff.mp h.1, fun h => ⟨hiff.mpr h, stateFromLogin_of_routed h⟩⟩

/-- **Settled, exactly.** In a run every reply settles the request it answers, and a state comes
from a login alone, if and only if every reply is routed. -/
theorem settled_iff (host port : String) (es : List ClientEvent) :
    Machine.Along step (fun c e => Settled c e ∧ StateFromLogin c e) (init host port) es ↔
      Machine.Along step Routed (init host port) es := by
  rw [funext₂ fun c e => propext (settled_step_iff c e)]

/-- **A SUCCESS for a signup** is handled as one for a login. -/
theorem settled_fails : ¬ Machine.Along step (fun c e => Settled c e ∧ StateFromLogin c e)
    (init "10.0.0.1" "5000") [.signup "a" "a@b" "p", .connected, .gui, .reply true
      ⟨"\x7b\"success\":true,\"state\":\"admin\"\x7d",
        .object [("success", .bool true), ("state", .string "admin")]⟩, .gui] := by
  rintro ⟨-, -, -, -, h, -⟩
  have hs := (h.1 _ _ .signup rfl rfl).isLoading
  exact absurd hs (by decide +kernel)

/-! ## A client that only logs in -/

/-- A call that the login controller makes. -/
def LoginCall : BridgeCall → Prop
  | .connectToServer _ _ purpose => purpose = "login"
  | .disconnect | .sendLogin _ _ => True
  | .sendSignup _ _ _ => False

/-- The connection was opened for a login, and has no other requests. -/
def LoginLink (link : Option Link) : Prop :=
  ∀ k, link = some k → k.purpose = "login" ∧ ∀ side ∈ k.unanswered, side = .login

/-- A posted call that is about a login alone. -/
def ForLogin : Posted → Prop
  | .connected purpose => purpose = "login"
  | .success body side => body.doc.isObject = true ∧ side = .login
  | .fail purpose body side => FailFits purpose body .login ∧ side = .login

/-- No signup, and replies with a body: an object for SUCCESS, no signup named for FAIL. -/
def LoginOnly : ClientEvent → Prop
  | .signup _ _ _ => False
  | .reply success body => body.text ≠ "" ∧
    if success then body.doc.isObject = true else toQString body.doc "context" ≠ "signup"
  | _ => True

/-- Nothing about the client is of a signup. -/
structure LoginClient (c : Client) : Prop where
  link : LoginLink c.link
  posted : ∀ p ∈ c.posted, ForLogin p

theorem mem_callsOf {os : List AuthOutput} {call : BridgeCall} :
    call ∈ callsOf os ↔ .call call ∈ os := by
  rw [callsOf, List.mem_filterMap]
  constructor
  · rintro ⟨o, ho, hs⟩
    cases o with
    | signal _ => cases hs
    | call d => rwa [← Option.some.inj hs]
  · exact fun h => ⟨_, h, rfl⟩

theorem LoginLink.perform {link : Option Link} (h : LoginLink link) {call : BridgeCall}
    (hc : LoginCall call) : LoginLink (Link.perform link call.toService) := by
  cases call with
  | connectToServer host port purpose =>
    rintro k ⟨⟩
    exact ⟨hc, fun _ hs => absurd hs List.not_mem_nil⟩
  | disconnect => exact nofun
  | sendLogin id pw =>
    intro k hk
    obtain ⟨k, hlink, rfl⟩ := Option.map_eq_some_iff.mp hk
    obtain ⟨hp, hun⟩ := h k hlink
    unfold Link.request
    split_ifs
    · refine ⟨hp, fun side hs => ?_⟩
      rcases List.mem_append.mp hs with hs | hs
      · exact hun side hs
      · exact List.mem_singleton.mp hs
    · exact ⟨hp, hun⟩
  | sendSignup id email pw => exact hc.elim

theorem LoginLink.foldl {link : Option Link} (h : LoginLink link) {calls : List BridgeCall}
    (hc : ∀ call ∈ calls, LoginCall call) :
    LoginLink ((calls.map BridgeCall.toService).foldl Link.perform link) := by
  induction calls generalizing link with
  | nil => exact h
  | cons call calls ih =>
    exact ih (h.perform (hc call List.mem_cons_self)) fun d hd => hc d (List.mem_cons_of_mem _ hd)

theorem LoginClient.runLogin {c : Client} (h : LoginClient c)
    {r : LoginController × List AuthOutput} (hr : ∀ call, .call call ∈ r.2 → LoginCall call) :
    LoginClient (c.runLogin r).1 :=
  ⟨h.link.foldl fun call hc => hr call (mem_callsOf.mp hc), h.posted⟩

theorem loginCall_onConnected (c : LoginController) {call : BridgeCall}
    (h : .call call ∈ c.onConnected.2) : LoginCall call := by
  unfold LoginController.onConnected at h
  split_ifs at h
  · exact absurd h List.not_mem_nil
  · cases List.mem_singleton.mp h
    trivial

theorem loginCall_login (c : LoginController) (connected : Bool) (id password : String)
    {call : BridgeCall} (h : .call call ∈ (c.login connected id password).2) : LoginCall call := by
  by_cases hempty : id = "" ∨ password = ""
  · rw [LoginController.login, if_pos hempty] at h
    simp [AuthController.setError] at h
  · rw [LoginController.login, if_neg hempty] at h
    rcases List.mem_append.mp h with h | h
    · rcases List.mem_append.mp h with h | h
      · simp [AuthController.clearError] at h
      · cases AuthController.mem_setLoading h
    · cases connected with
      | true => exact loginCall_onConnected _ h
      | false =>
        cases List.mem_singleton.mp h
        rfl

theorem loginCall_logout (c : LoginController) {call : BridgeCall}
    (h : .call call ∈ c.logout.2) : LoginCall call := by
  have hload : .call call ∉ (c.setLoading false).2 := fun h => by
    cases AuthController.mem_setLoading h
  simp only [LoginController.logout, AuthController.clearError, List.mem_append, List.mem_cons,
    List.not_mem_nil, AuthOutput.call.injEq, reduceCtorEq, or_false, hload] at h
  rw [h]
  trivial

theorem LoginClient.dispatch {c : Client} (h : LoginClient c) {s : BridgeSignal}
    (ht : target s = some .login) : LoginClient (c.dispatch s).1 := by
  have hload : ∀ call, .call call ∉ (c.login.setLoading false).2 := fun call h => by
    cases AuthController.mem_setLoading h
  cases s with
  | loginSuccess state username =>
    refine h.runLogin fun call hc => ?_
    simp [LoginController.handleLoginSuccess, hload] at hc
  | loginFailed error =>
    refine h.runLogin fun call hc => ?_
    simp only [LoginController.handleLoginFailed, AuthController.setError, List.mem_append,
      List.mem_cons, List.not_mem_nil, AuthOutput.call.injEq, reduceCtorEq, or_false, hload,
      false_or] at hc
    rw [hc]
    trivial
  | connectedForLogin | connectedForSignup | signupSuccess _ | signupFailed _ => cases ht

theorem LoginClient.run {c : Client} (h : LoginClient c) {p : Posted} (hp : ForLogin p) :
    LoginClient (c.run p).1 := by
  cases p with
  | connected purpose =>
    cases hp
    exact h.runLogin fun call hc => loginCall_onConnected c.login hc
  | success body side =>
    obtain ⟨s, hs, ht⟩ := target_onLoginResult hp.1
    unfold Client.run Posted.signal?
    dsimp only
    rw [hs]
    exact h.dispatch ht
  | fail purpose body side =>
    obtain ⟨t, ht, hfits⟩ := target_onLoginFail purpose body
    exact h.dispatch (ht.trans (congrArg some ((hfits .login).mp hp.1).symm))

theorem forLogin_callback {k : Link} (hk : k.purpose = "login") {success : Bool} {body : ReplyBody}
    (he : LoginOnly (.reply success body)) :
    ∀ p ∈ k.callback success body .login, ForLogin p := by
  intro p hp
  rw [Link.callback, if_neg he.1] at hp
  cases success with
  | true =>
    cases List.mem_singleton.mp hp
    exact ⟨he.2, rfl⟩
  | false =>
    cases List.mem_singleton.mp hp
    exact ⟨Or.inr ⟨he.2, hk⟩, rfl⟩

theorem LoginClient.connected {c : Client} (h : LoginClient c) :
    LoginClient (c.step .connected).1 := by
  unfold Client.step
  cases hlink : c.link with
  | none => exact h
  | some k =>
    obtain ⟨hp, hun⟩ := h.link k hlink
    dsimp only
    split_ifs
    · exact h
    · refine ⟨?_, fun p hm => ?_⟩
      · rintro j ⟨⟩
        exact ⟨hp, hun⟩
      · rcases List.mem_append.mp hm with hm | hm
        · exact h.posted p hm
        · cases List.mem_singleton.mp hm
          exact hp

theorem LoginClient.reply {c : Client} (h : LoginClient c) {success : Bool} {body : ReplyBody}
    (he : LoginOnly (.reply success body)) : LoginClient (c.step (.reply success body)).1 := by
  unfold Client.step
  cases hlink : c.link with
  | none => exact h
  | some k =>
    obtain ⟨hp, hun⟩ := h.link k hlink
    dsimp only
    cases hcons : k.unanswered with
    | nil => exact h
    | cons side rest =>
      obtain rfl := hun side (hcons ▸ List.mem_cons_self)
      refine ⟨?_, fun p hm => ?_⟩
      · rintro j ⟨⟩
        exact ⟨hp, fun side hs => hun side (hcons ▸ List.mem_cons_of_mem _ hs)⟩
      · exact (List.mem_append.mp hm).elim (h.posted p) (forLogin_callback hp he p)

/-- **Step.** What is only about logins stays so. -/
theorem LoginClient.step {c : Client} (h : LoginClient c) {e : ClientEvent} (he : LoginOnly e) :
    LoginClient (c.step e).1 := by
  cases e with
  | login id password => exact h.runLogin fun call hc => loginCall_login c.login _ id password hc
  | signup id email password => exact he.elim
  | logout => exact h.runLogin fun call hc => loginCall_logout c.login hc
  | lost => exact ⟨nofun, h.posted⟩
  | connected => exact h.connected
  | reply success body => exact h.reply he
  | gui =>
    unfold Client.step
    cases hposted : c.posted with
    | nil => exact h
    | cons p ps =>
      have hrest : LoginClient { c with posted := ps } :=
        ⟨h.link, fun q hq => h.posted q (hposted ▸ List.mem_cons_of_mem _ hq)⟩
      exact hrest.run (h.posted p (hposted ▸ List.mem_cons_self))

theorem LoginClient.routed {c : Client} (h : LoginClient c) {e : ClientEvent} (he : LoginOnly e) :
    Routed c e := by
  cases e with
  | reply success body => exact fun _ => he.1
  | gui =>
    intro p ps hp
    have hlogin := h.posted p (hp ▸ List.mem_cons_self)
    cases p with
    | connected purpose => trivial
    | success body side => exact hlogin
    | fail purpose body side =>
      obtain ⟨hfits, rfl⟩ := hlogin
      exact hfits
  | _ => trivial

theorem loginClient_init (host port : String) : LoginClient (init host port) where
  link _ h := nomatch h
  posted _ h := absurd h List.not_mem_nil

/-- **Only logins.** A run without a signup, whose replies have a body that names none, routes every
reply. -/
theorem routed_of_loginOnly (host port : String) {es : List ClientEvent}
    (hes : ∀ e ∈ es, LoginOnly e) : Machine.Along step Routed (init host port) es := by
  refine (Machine.along_iff step (init host port) es).mpr fun pre e post hcut => ?_
  have hmem : ∀ d, d ∈ pre ∨ d = e → LoginOnly d := by
    rintro d (hd | rfl)
    · exact hes d (hcut ▸ List.mem_append_left _ hd)
    · exact hes d (hcut ▸ List.mem_append_right _ List.mem_cons_self)
  exact (Machine.invariant step LoginClient LoginOnly (loginClient_init host port)
    (fun c d hd h => h.step hd) pre fun d hd => hmem d (Or.inl hd)).routed (hmem e (Or.inr rfl))

end Client

end Controllers

end AnoMap
