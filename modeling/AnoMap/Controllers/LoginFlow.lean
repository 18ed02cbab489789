import AnoMap.Controllers.Replies

/-!
# The login flow

The client from an attempt to connect to its end: the name is resolved, the server accepts, the
handshake is done. An exception that leaves the network thread ends the program. `disconnect` waits
for the network thread, and what happens meanwhile stands before the command in a run. Only a
command that has found no connection cannot stand after one: the attempt that it replaces may be
connected late.

* `Stage`, `Flow`, `step`: how far an attempt is, and the program with it.
* `Quiet`: no attempt, no unanswered request on a live connection, no posted call.
* `NoStuck`: in every quiet state the program runs and no controller is loading.
* `Ends`, `Frees`: the events that end the last thing outstanding, and whom an event frees.
* **`no_stuck_login_iff`**: no state of a run is stuck if and only if every step is tidy.
-/

set_option autoImplicit false

namespace AnoMap

namespace Controllers

open Services

/-- How far the attempt to connect is. `opened`: the server has accepted. -/
inductive Stage where
  | resolving
  | connecting
  | opened
  deriving DecidableEq, Repr

/-- The stage is that of the client's link, and of no account without one. -/
inductive Flow where
  | running (client : Client) (stage : Stage)
  | terminated

/-- `resolve`: the name is resolved, or not. `connect`: the server accepts, or refuses. `late`: the
attempt that the command replaces is connected while the command waits for it. -/
inductive FlowEvent where
  | login (id password : String) (late : Bool)
  | signup (id email password : String) (late : Bool)
  | logout
  | resolve (ok : Bool)
  | connect (accepted : Bool)
  | handshake
  | lost
  | reply (success : Bool) (body : ReplyBody)
  | gui

def BridgeCall.connects : BridgeCall → Bool
  | .connectToServer _ _ _ => true
  | .disconnect | .sendLogin _ _ | .sendSignup _ _ _ => false

namespace Client

/-- An attempt to connect is under way. -/
def attempts (c : Client) : Bool := c.link.any fun k => !k.connected

end Client

namespace Flow

def init (host port : String) : Flow := .running (.init host port) .resolving

/-- `resolver.resolve` throws, and nothing on the network thread catches it. -/
def throws (c : Client) (stage : Stage) : FlowEvent → Bool
  | .resolve ok => c.attempts && stage == .resolving && !ok
  | _ => false

/-- A command that begins a new attempt. -/
def connects (c : Client) : FlowEvent → Bool
  | .login id password _ =>
    (callsOf (c.login.login c.isConnected id password).2).any BridgeCall.connects
  | .signup id email password _ =>
    (callsOf (c.signup.signup c.isConnected id email password).2).any BridgeCall.connects
  | _ => false

def nextStage (c : Client) (stage : Stage) : FlowEvent → Stage
  | .resolve _ => if c.attempts ∧ stage = .resolving then .connecting else stage
  | .connect accepted => if c.attempts ∧ stage = .connecting ∧ accepted then .opened else stage
  | e => if connects c e then .resolving else stage

/-- What an attempt that is connected late posts. -/
def latePosts (c : Client) (e : FlowEvent) : List Posted :=
  match e with
  | .login _ _ true | .signup _ _ _ true =>
    if connects c e then c.link.toList.map fun k => .connected k.purpose else []
  | _ => []

/-- What the controllers and the bridge have of an event. Of a refusal they hear nothing, as of a
connection that breaks. -/
def seen (c : Client) (stage : Stage) : FlowEvent → Option ClientEvent
  | .login id password _ => some (.login id password)
  | .signup id email password _ => some (.signup id email password)
  | .logout => some .logout
  | .resolve _ => none
  | .connect accepted =>
    if c.attempts ∧ stage = .connecting ∧ accepted = false then some .lost else none
  | .handshake => if stage = .opened then some .connected else none
  | .lost => if stage = .opened then some .lost else none
  | .reply success body => some (.reply success body)
  | .gui => some .gui

def step : Flow → FlowEvent → Flow × List (Side × AuthSignal)
  | .terminated, _ => (.terminated, [])
  | .running c stage, e =>
    if throws c stage e then (.terminated, [])
    else
      match seen c stage e with
      | none => (.running c (nextStage c stage e), [])
      | some d =>
        let r := c.step d
        (.running { r.1 with posted := r.1.posted ++ latePosts c e } (nextStage c stage e), r.2)

end Flow

/-! ## The statement -/

/-- No attempt to connect, and no request unanswered. -/
def LinkQuiet (link : Option Link) : Prop :=
  ∀ k, link = some k → k.connected = true ∧ k.unanswered = []

structure Client.Quiet (c : Client) : Prop where
  link : LinkQuiet c.link
  posted : c.posted = []

def Client.Idle (c : Client) : Prop := ∀ side, (c.auth side).isLoading = false

namespace Flow

/-- Nothing is outstanding any more. -/
def Quiet : Flow → Prop
  | .running c _ => c.Quiet
  | .terminated => True

/-- No controller is loading, and no exception has left the network thread. -/
def Idle : Flow → Prop
  | .running c _ => c.Idle
  | .terminated => False

/-- **No stuck login.** Every quiet state of the run is idle. -/
def NoStuck (host port : String) (es : List FlowEvent) : Prop :=
  ∀ pre, pre <+: es →
    (Machine.final step (init host port) pre).Quiet → (Machine.final step (init host port) pre).Idle

end Flow

namespace Client

/-- With a signal, or none, as the last posted call, nothing is outstanding. -/
def SignalEnds (c : Client) : Option BridgeSignal → Prop
  | none | some (.loginSuccess _ _) => LinkQuiet c.link
  | some .connectedForLogin => LinkQuiet c.link ∧ (c.login.pendingId = "" ∨ c.link = none)
  | some .connectedForSignup => LinkQuiet c.link ∧ (c.signup.pendingId = "" ∨ c.link = none)
  | some (.loginFailed _) | some (.signupSuccess _) | some (.signupFailed _) => True

/-- The event ends the last thing outstanding: the link is given up or lost, a reply that is not
processed answers the last request, or the last posted call is run. -/
def Ends (c : Client) : ClientEvent → Prop
  | .logout | .lost => c.posted = []
  | .reply _ body => body.text = "" ∧ c.posted = [] ∧
      ∃ k side, c.link = some k ∧ k.connected = true ∧ k.unanswered = [side]
  | .gui => ∃ p, c.posted = [p] ∧ c.SignalEnds p.signal?
  | .login _ _ | .signup _ _ _ | .connected => False

/-- The event takes the controller out of loading. -/
def Frees (c : Client) : ClientEvent → Side → Prop
  | .logout, side => side = .login
  | .gui, side => ∃ p ∈ c.posted.head?, ∃ s ∈ p.signal?, target s = some side
  | _, _ => False

/-- An event that ends the last thing outstanding frees every controller that is loading. -/
def Tidy (c : Client) (d : ClientEvent) : Prop :=
  c.Ends d → ∀ side, (c.auth side).isLoading = true → c.Frees d side

end Client

/-- Resolving the name does not fail, and what the client has of the event is tidy. -/
def Flow.Tidy : Flow → FlowEvent → Prop
  | .running c stage, e => throws c stage e = false ∧ ∀ d ∈ seen c stage e, c.Tidy d
  | .terminated, _ => True

/-! ## Calls of the controllers -/

@[simp] theorem callsOf_nil : callsOf [] = [] := rfl

@[simp] theorem callsOf_signal_cons (s : AuthSignal) (os : List AuthOutput) :
    callsOf (.signal s :: os) = callsOf os := rfl

@[simp] theorem callsOf_call_cons (call : BridgeCall) (os : List AuthOutput) :
    callsOf (.call call :: os) = call :: callsOf os := rfl

@[simp] theorem callsOf_append (os ps : List AuthOutput) :
    callsOf (os ++ ps) = callsOf os ++ callsOf ps := List.filterMap_append

@[simp] theorem callsOf_setLoading (c : AuthController) (v : Bool) :
    callsOf (c.setLoading v).2 = [] :=
  List.filterMap_eq_nil_iff.mpr fun o ho => by rw [AuthController.mem_setLoading ho]

@[simp] theorem callsOf_clearError (c : AuthController) : callsOf c.clearError.2 = [] := rfl

@[simp] theorem callsOf_setError (c : AuthController) (msg : String) :
    callsOf (c.setError msg).2 = [] := rfl

theorem callsOf_login (c : LoginController) (connected : Bool) {id password : String}
    (h : ¬ (id = "" ∨ password = "")) : callsOf (c.login connected id password).2 =
      if connected then [.sendLogin id password] else [.connectToServer c.host c.port "login"] := by
  have hid : id ≠ "" := fun hid => h (Or.inl hid)
  rw [LoginController.login, if_neg h]
  cases connected <;> simp [LoginController.onConnected, hid, AuthController.clearError]

theorem callsOf_signup (c : SignupController) (connected : Bool) {id email password : String}
    (h : ¬ (id = "" ∨ email = "" ∨ password = "")) :
    callsOf (c.signup connected id email password).2 =
      if connected then [.sendSignup id email password]
      else [.connectToServer c.host c.port "signup"] := by
  have hid : id ≠ "" := fun hid => h (Or.inl hid)
  rw [SignupController.signup, if_neg h]
  cases connected <;> simp [SignupController.onConnected, hid, AuthController.clearError]

theorem callsOf_logout (c : LoginController) : callsOf c.logout.2 = [.disconnect] := by
  simp [LoginController.logout]

theorem callsOf_handleLoginSuccess (c : LoginController) (state username : String) :
    callsOf (c.handleLoginSuccess state username).2 = [] := by
  simp [LoginController.handleLoginSuccess]

theorem callsOf_handleLoginFailed (c : LoginController) (error : String) :
    callsOf (c.handleLoginFailed error).2 = [.disconnect] := by
  simp [LoginController.handleLoginFailed]

theorem callsOf_handleSignupSuccess (c : SignupController) (message : String) :
    callsOf (c.handleSignupSuccess message).2 = [.disconnect] := by
  simp [SignupController.handleSignupSuccess]

theorem callsOf_handleSignupFailed (c : SignupController) (error : String) :
    callsOf (c.handleSignupFailed error).2 = [.disconnect] := by
  simp [SignupController.handleSignupFailed]

theorem callsOf_onConnected_login (c : LoginController) : callsOf c.onConnected.2 =
    if c.pendingId = "" then [] else [.sendLogin c.pendingId c.pendingPassword] := by
  unfold LoginController.onConnected
  split_ifs <;> rfl

theorem callsOf_onConnected_signup (c : SignupController) : callsOf c.onConnected.2 =
    if c.pendingId = "" then []
    else [.sendSignup c.pendingId c.pendingEmail c.pendingPassword] := by
  unfold SignupController.onConnected
  split_ifs <;> rfl

/-! ## The link -/

theorem linkQuiet_none : LinkQuiet none := nofun

theorem linkQuiet_request_iff (link : Option Link) (side : Side) :
    LinkQuiet (link.map (Link.request side)) ↔ link = none := by
  cases link with
  | none => exact iff_of_true linkQuiet_none rfl
  | some k =>
    refine iff_of_false (fun h => ?_) nofun
    obtain ⟨hconnected, hun⟩ := h _ rfl
    unfold Link.request at hconnected hun
    split_ifs at hconnected hun with hk
    · exact absurd hun (by simp)
    · exact hk hconnected

theorem linkQuiet_pending_iff (link : Option Link) (side : Side) {pendingId : String}
    (h : pendingId ≠ "") : LinkQuiet (link.map (Link.request side)) ↔
      LinkQuiet link ∧ (pendingId = "" ∨ link = none) := by
  rw [linkQuiet_request_iff]
  constructor
  · intro hnone
    exact ⟨hnone ▸ linkQuiet_none, Or.inr hnone⟩
  · exact fun hq => hq.2.resolve_left h

theorem not_linkQuiet_of_not_connected {k : Link} (h : k.connected = false) :
    ¬ LinkQuiet (some k) := fun hq => by
  rw [(hq k rfl).1] at h
  cases h

namespace Client

theorem not_linkQuiet_command {c : Client} {send connect : BridgeCall} {side : Side}
    (hsend : ∀ link, Link.perform link send.toService = link.map (Link.request side))
    (hconnect : ∀ link, ∃ k, Link.perform link connect.toService = some k ∧ k.connected = false) :
    ¬ LinkQuiet (c.linkAfter (if c.isConnected then [send] else [connect])) := by
  cases hc : c.isConnected with
  | true =>
    intro h
    have hnone : c.link = none := (linkQuiet_request_iff c.link side).mp (hsend c.link ▸ h)
    rw [isConnected, hnone] at hc
    cases hc
  | false =>
    obtain ⟨k, hk, hconnected⟩ := hconnect c.link
    intro h
    exact not_linkQuiet_of_not_connected hconnected (hk ▸ h)

theorem linkQuiet_dispatch_iff (c : Client) (s : BridgeSignal) :
    LinkQuiet (c.dispatch s).1.link ↔ c.SignalEnds (some s) := by
  cases s with
  | connectedForLogin =>
    show LinkQuiet (c.linkAfter (callsOf c.login.onConnected.2)) ↔ _
    rw [callsOf_onConnected_login, SignalEnds]
    split_ifs with hid
    · exact (and_iff_left (Or.inl hid)).symm
    · exact linkQuiet_pending_iff c.link .login hid
  | connectedForSignup =>
    show LinkQuiet (c.linkAfter (callsOf c.signup.onConnected.2)) ↔ _
    rw [callsOf_onConnected_signup, SignalEnds]
    split_ifs with hid
    · exact (and_iff_left (Or.inl hid)).symm
    · exact linkQuiet_pending_iff c.link .signup hid
  | loginSuccess state username =>
    show LinkQuiet (c.linkAfter (callsOf (c.login.handleLoginSuccess state username).2)) ↔ _
    rw [callsOf_handleLoginSuccess]
    exact Iff.rfl
  | loginFailed error =>
    show LinkQuiet (c.linkAfter (callsOf (c.login.handleLoginFailed error).2)) ↔ _
    rw [callsOf_handleLoginFailed]
    exact iff_of_true linkQuiet_none trivial
  | signupSuccess message =>
    show LinkQuiet (c.linkAfter (callsOf (c.signup.handleSignupSuccess message).2)) ↔ _
    rw [callsOf_handleSignupSuccess]
    exact iff_of_true linkQuiet_none trivial
  | signupFailed error =>
    show LinkQuiet (c.linkAfter (callsOf (c.signup.handleSignupFailed error).2)) ↔ _
    rw [callsOf_handleSignupFailed]
    exact iff_of_true linkQuiet_none trivial

/-! ## Who is loading -/

theorem isLoading_dispatch_iff (c : Client) (s : BridgeSignal) (side : Side) :
    ((c.dispatch s).1.auth side).isLoading = true ↔
      (c.auth side).isLoading = true ∧ target s ≠ some side := by
  cases ht : target s with
  | none =>
    -- a connection that is made sends what is pending
    have hkept : (c.dispatch s).1.auth side = c.auth side := by
      cases s with
      | connectedForLogin =>
        cases side with
        | login => exact c.login.onConnected_toAuthController
        | signup => rfl
      | connectedForSignup =>
        cases side with
        | login => rfl
        | signup => exact c.signup.onConnected_toAuthController
      | loginSuccess _ _ | loginFailed _ | signupSuccess _ | signupFailed _ => cases ht
    rw [hkept]
    exact (and_iff_left nofun).symm
  | some t =>
    have hsettles := settles_dispatch c ht
    by_cases hside : side = t
    · subst hside
      exact iff_of_false (by rw [hsettles.isLoading]; decide) fun h => h.2 rfl
    · have hkept : (c.dispatch s).1.auth side = c.auth side := by
        have hother := hsettles.otherKept
        cases t <;> cases side
        · exact absurd rfl hside
        · exact congrArg SignupController.toAuthController hother.1
        · exact congrArg LoginController.toAuthController hother.1
        · exact absurd rfl hside
      rw [hkept]
      exact (and_iff_left fun h => hside (Option.some.inj h).symm).symm

/-! ## One event -/

/-- What an event does to what is outstanding, and to who is loading. -/
structure Accounted (c : Client) (d : ClientEvent) : Prop where
  quiet : (c.step d).1.Quiet → c.Ends d ∨ c.Quiet
  ends : c.Ends d → (c.step d).1.Quiet
  loading : (c.step d).1.Quiet → ∀ side, ((c.step d).1.auth side).isLoading = true ↔
    (c.auth side).isLoading = true ∧ ¬ c.Frees d side

theorem Accounted.of_kept {c : Client} {d : ClientEvent} (hlink : (c.step d).1.link = c.link)
    (hposted : (c.step d).1.posted = c.posted)
    (hload : ∀ side, ((c.step d).1.auth side).isLoading = (c.auth side).isLoading)
    (hends : ¬ c.Ends d) (hfrees : ∀ side, ¬ c.Frees d side) : Accounted c d where
  quiet h := Or.inr ⟨hlink ▸ h.link, hposted ▸ h.posted⟩
  ends h := absurd h hends
  loading _ side := by
    rw [hload]
    exact (and_iff_left (hfrees side)).symm

theorem Accounted.of_not_quiet {c : Client} {d : ClientEvent} (h : ¬ (c.step d).1.Quiet)
    (hends : ¬ c.Ends d) : Accounted c d :=
  ⟨fun hq => absurd hq h, fun he => absurd he hends, fun hq => absurd hq h⟩

theorem accounted_login (c : Client) (id password : String) :
    Accounted c (.login id password) := by
  by_cases hempty : id = "" ∨ password = ""
  · refine .of_kept ?_ rfl (fun side => ?_) (fun h => h) fun _ h => h
    · show c.linkAfter (callsOf (c.login.login c.isConnected id password).2) = c.link
      rw [LoginController.login, if_pos hempty]
      rfl
    · cases side with
      | login =>
        show (c.login.login c.isConnected id password).1.isLoading = c.login.isLoading
        rw [LoginController.login, if_pos hempty]
        rfl
      | signup => rfl
  · refine .of_not_quiet (fun h => ?_) fun h => h
    have hlink := h.link
    change LinkQuiet (c.linkAfter (callsOf (c.login.login c.isConnected id password).2)) at hlink
    rw [callsOf_login c.login c.isConnected hempty] at hlink
    exact not_linkQuiet_command (fun _ => rfl) (fun _ => ⟨_, rfl, rfl⟩) hlink

theorem accounted_signup (c : Client) (id email password : String) :
    Accounted c (.signup id email password) := by
  by_cases hempty : id = "" ∨ email = "" ∨ password = ""
  · refine .of_kept ?_ rfl (fun side => ?_) (fun h => h) fun _ h => h
    · show c.linkAfter (callsOf (c.signup.signup c.isConnected id email password).2) = c.link
      rw [SignupController.signup, if_pos hempty]
      rfl
    · cases side with
      | login => rfl
      | signup =>
        show (c.signup.signup c.isConnected id email password).1.isLoading = c.signup.isLoading
        rw [SignupController.signup, if_pos hempty]
        rfl
  · refine .of_not_quiet (fun h => ?_) fun h => h
    have hlink := h.link
    change LinkQuiet
      (c.linkAfter (callsOf (c.signup.signup c.isConnected id email password).2)) at hlink
    rw [callsOf_signup c.signup c.isConnected hempty] at hlink
    exact not_linkQuiet_command (fun _ => rfl) (fun _ => ⟨_, rfl, rfl⟩) hlink

theorem accounted_logout (c : Client) : Accounted c .logout where
  quiet h := Or.inl h.posted
  ends h := ⟨by
    show LinkQuiet (c.linkAfter (callsOf c.login.logout.2))
    rw [callsOf_logout]
    exact linkQuiet_none, h⟩
  loading _ side := by
    cases side with
    | login =>
      refine iff_of_false ?_ fun h => h.2 rfl
      show ¬ (c.login.setLoading false).1.isLoading = true
      rw [AuthController.setLoading_isLoading]
      decide
    | signup => exact (and_iff_left nofun).symm

theorem accounted_lost (c : Client) : Accounted c .lost where
  quiet h := Or.inl h.posted
  ends h := ⟨linkQuiet_none, h⟩
  loading _ _ := (and_iff_left fun h => h).symm

theorem Accounted.of_eq {c : Client} {d : ClientEvent} (h : c.step d = (c, []))
    (hends : ¬ c.Ends d) (hfrees : ∀ side, ¬ c.Frees d side) : Accounted c d :=
  .of_kept (by rw [h]) (by rw [h]) (fun _ => by rw [h]) hends hfrees

theorem accounted_connected (c : Client) : Accounted c .connected := by
  by_cases hattempt : ∃ k, c.link = some k ∧ k.connected = false
  · obtain ⟨k, hlink, hk⟩ := hattempt
    have hposted : (c.step .connected).1.posted = c.posted ++ [.connected k.purpose] := by
      unfold step
      dsimp only
      rw [hlink]
      dsimp only
      rw [if_neg (by rw [hk]; decide)]
    refine .of_not_quiet (fun h => ?_) fun h => h
    exact absurd (hposted.symm.trans h.posted) (by simp)
  · refine .of_eq ?_ (fun h => h) fun _ h => h
    unfold step
    dsimp only
    cases hlink : c.link with
    | none => rfl
    | some k => exact if_pos (Bool.of_not_eq_false fun hk => hattempt ⟨k, hlink, hk⟩)

theorem step_reply {c : Client} {k : Link} {side : Side} {rest : List Side}
    (hlink : c.link = some k) (hun : k.unanswered = side :: rest) (success : Bool)
    (body : ReplyBody) : c.step (.reply success body) = ({ c with
      link := some { k with unanswered := rest }
      posted := c.posted ++ k.callback success body side }, []) := by
  unfold step
  dsimp only
  rw [hlink]
  dsimp only
  rw [hun]

/-- A reply is posted when it has a body; one without leaves only that its request is answered. -/
theorem quiet_reply_iff {c : Client} {k : Link} {side : Side} {rest : List Side}
    (hlink : c.link = some k) (hun : k.unanswered = side :: rest) (success : Bool)
    (body : ReplyBody) :
    (c.step (.reply success body)).1.Quiet ↔ c.Ends (.reply success body) := by
  rw [step_reply hlink hun]
  constructor
  · rintro ⟨hq, hposted⟩
    obtain ⟨hp, hcallback⟩ := List.append_eq_nil_iff.mp hposted
    obtain ⟨hconnected, rfl⟩ := hq _ rfl
    refine ⟨?_, hp, k, side, hlink, hconnected, hun⟩
    unfold Link.callback at hcallback
    split_ifs at hcallback with hbody
    exact hbody
  · rintro ⟨hbody, hp, k', side', hlink', hconnected, hun'⟩
    obtain rfl := Option.some.inj (hlink.symm.trans hlink')
    obtain ⟨rfl, rfl⟩ := List.cons.inj (hun.symm.trans hun')
    refine ⟨?_, ?_⟩
    · rintro j ⟨⟩
      exact ⟨hconnected, rfl⟩
    · show c.posted ++ k.callback success body side = []
      rw [hp, Link.callback, if_pos hbody]
      rfl

theorem accounted_reply (c : Client) (success : Bool) (body : ReplyBody) :
    Accounted c (.reply success body) := by
  by_cases hopen : ∃ k side rest, c.link = some k ∧ k.unanswered = side :: rest
  · obtain ⟨k, side, rest, hlink, hun⟩ := hopen
    have hquiet := quiet_reply_iff hlink hun success body
    refine ⟨fun h => Or.inl (hquiet.mp h), hquiet.mpr, fun _ side => ?_⟩
    rw [step_reply hlink hun]
    exact (and_iff_left fun h => h).symm
  · refine .of_eq ?_ (fun ⟨_, _, k, side, hlink, _, hun⟩ => hopen ⟨k, side, [], hlink, hun⟩)
      fun _ h => h
    unfold step
    dsimp only
    cases hlink : c.link with
    | none => rfl
    | some k =>
      cases hun : k.unanswered with
      | nil =>
        dsimp only
        rw [hun]
      | cons side rest => exact absurd ⟨k, side, rest, hlink, hun⟩ hopen

theorem posted_run (c : Client) (p : Posted) : (c.run p).1.posted = c.posted := by
  unfold run
  cases p.signal? with
  | none => rfl
  | some s => cases s <;> rfl

theorem linkQuiet_run_iff (c : Client) (p : Posted) :
    LinkQuiet (c.run p).1.link ↔ c.SignalEnds p.signal? := by
  unfold run
  cases p.signal? with
  | none => exact Iff.rfl
  | some s => exact linkQuiet_dispatch_iff c s

theorem isLoading_run_iff (c : Client) (p : Posted) (side : Side) :
    ((c.run p).1.auth side).isLoading = true ↔
      (c.auth side).isLoading = true ∧ ¬ ∃ s ∈ p.signal?, target s = some side := by
  unfold run
  cases p.signal? with
  | none => exact (and_iff_left (by rintro ⟨s, ⟨⟩, -⟩)).symm
  | some s =>
    rw [isLoading_dispatch_iff]
    exact and_congr_right fun _ => not_congr ⟨fun h => ⟨s, rfl, h⟩, by rintro ⟨_, ⟨⟩, h⟩; exact h⟩

theorem accounted_gui (c : Client) : Accounted c .gui := by
  cases hposted : c.posted with
  | nil =>
    refine .of_eq ?_ ?_ fun side => ?_
    · unfold step
      dsimp only
      rw [hposted]
    · rintro ⟨p, hp, -⟩
      cases hposted.symm.trans hp
    · rintro ⟨p, hp, -⟩
      rw [hposted] at hp
      cases hp
  | cons p ps =>
    have hstep : c.step .gui = run { c with posted := ps } p := by
      unfold step
      dsimp only
      rw [hposted]
    have hquiet : (c.step .gui).1.Quiet ↔ c.Ends .gui := by
      rw [hstep]
      constructor
      · rintro ⟨hlink, hp⟩
        obtain rfl : ps = [] := (posted_run _ p).symm.trans hp
        exact ⟨p, hposted, (linkQuiet_run_iff { c with posted := [] } p).mp hlink⟩
      · rintro ⟨q, hq, hends⟩
        obtain ⟨rfl, rfl⟩ := List.cons.inj (hposted.symm.trans hq)
        exact ⟨(linkQuiet_run_iff { c with posted := [] } p).mpr hends, posted_run _ p⟩
    refine ⟨fun h => Or.inl (hquiet.mp h), hquiet.mpr, fun _ side => ?_⟩
    rw [hstep, isLoading_run_iff]
    refine and_congr_right fun _ => not_congr ⟨fun h => ⟨p, ?_, h⟩, ?_⟩
    · rw [hposted]
      rfl
    · rintro ⟨q, hq, h⟩
      rw [hposted] at hq
      cases hq
      exact h

theorem accounted (c : Client) : ∀ d, Accounted c d
  | .login id password => accounted_login c id password
  | .signup id email password => accounted_signup c id email password
  | .logout => accounted_logout c
  | .connected => accounted_connected c
  | .lost => accounted_lost c
  | .reply success body => accounted_reply c success body
  | .gui => accounted_gui c

/-- **One event.** A client that is idle when quiet stays so if and only if the event is tidy. -/
theorem idle_step_iff {c : Client} (h : c.Quiet → c.Idle) (d : ClientEvent) :
    ((c.step d).1.Quiet → (c.step d).1.Idle) ↔ c.Tidy d := by
  have hacc := accounted c d
  constructor
  · intro hidle hends side hload
    have hquiet := hacc.ends hends
    by_contra hfrees
    have hafter := (hacc.loading hquiet side).mpr ⟨hload, hfrees⟩
    rw [hidle hquiet side] at hafter
    cases hafter
  · intro htidy hquiet side
    rw [Bool.eq_false_iff]
    intro hafter
    obtain ⟨hload, hfrees⟩ := (hacc.loading hquiet side).mp hafter
    rcases hacc.quiet hquiet with hends | hbefore
    · exact hfrees (htidy hends side hload)
    · rw [h hbefore side] at hload
      cases hload

end Client

/-! ## The theorem -/

namespace Flow

theorem not_ends_of_latePosts {c : Client} {stage : Stage} {e : FlowEvent} {d : ClientEvent}
    (h : latePosts c e ≠ []) (hd : seen c stage e = some d) : ¬ c.Ends d := by
  cases e with
  | login id password late =>
    cases hd
    exact fun h => h
  | signup id email password late =>
    cases hd
    exact fun h => h
  | _ => exact absurd rfl h

theorem idle_step_iff {s : Flow} (h : s.Quiet → s.Idle) (e : FlowEvent) :
    ((step s e).1.Quiet → (step s e).1.Idle) ↔ Tidy s e := by
  cases s with
  | terminated => exact absurd (h trivial) fun h => h
  | running c stage =>
    rw [step, Tidy]
    cases hthrows : throws c stage e with
    | true => exact iff_of_false (fun h => h trivial) nofun
    | false =>
      rw [if_neg Bool.false_ne_true]
      cases hseen : seen c stage e with
      | none => exact iff_of_true h ⟨rfl, nofun⟩
      | some d =>
        have hiff : (false = false ∧ ∀ d' ∈ some d, c.Tidy d') ↔ c.Tidy d :=
          ⟨fun h => h.2 d rfl, fun h => ⟨rfl, by rintro _ ⟨⟩; exact h⟩⟩
        rw [hiff]
        by_cases hlate : latePosts c e = []
        · dsimp only
          rw [hlate, List.append_nil]
          exact Client.idle_step_iff h d
        · refine iff_of_true (fun hquiet => ?_) fun hends => ?_
          · exact absurd (List.append_eq_nil_iff.mp hquiet.posted).2 hlate
          · exact absurd hends (not_ends_of_latePosts hlate hseen)

/-- **No stuck login, exactly.** Every quiet state of a run is idle if and only if every step of the
run is tidy. -/
theorem no_stuck_login_iff (host port : String) (es : List FlowEvent) :
    NoStuck host port es ↔ Machine.Along step Tidy (init host port) es := by
  have hinit : (init host port).Quiet → (init host port).Idle := by
    rintro - (_ | _) <;> rfl
  have hleaves := Machine.along_leaves_iff step (P := fun s => s.Quiet → s.Idle)
    (R := fun _ => True) hinit es
  refine Iff.trans ⟨fun h => hleaves.mpr ⟨h, fun _ _ => trivial⟩, fun h => (hleaves.mp h).1⟩ ?_
  refine Machine.along_congr step (P := fun s => s.Quiet → s.Idle) (fun s e h => ?_) hinit es
  exact ⟨(and_iff_left fun _ _ => trivial).trans (idle_step_iff h e), (idle_step_iff h e).mpr⟩

/-- **A server that refuses** leaves the login loading, and a name that is not resolved ends the
program. -/
theorem no_stuck_login_fails :
    ¬ NoStuck "10.0.0.1" "5000" [.login "a" "p" false, .resolve true, .connect false] ∧
      ¬ NoStuck "server.local" "5000" [.login "a" "p" false, .resolve false] := by
  refine ⟨fun h => ?_, fun h => h _ List.prefix_rfl trivial⟩
  have hidle := h _ List.prefix_rfl ⟨nofun, rfl⟩ .login
  exact absurd hidle (by decide)

end Flow

end Controllers

end AnoMap
