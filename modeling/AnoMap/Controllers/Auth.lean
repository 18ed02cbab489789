import AnoMap.Services.NetworkBridge

/-!
# The authentication controllers

`AuthController` with its two subclasses. An operation returns the controller with what it does in
order: the signals it emits and the calls it makes of the bridge.

* `AuthController`: `setLoading`, `setError`, `clearError`.
* `LoginController`: `login`, `onConnected`, `handleLoginSuccess`, `handleLoginFailed`, `logout`.
* `SignupController`: `signup`, `onConnected`, `handleSignupSuccess`, `handleSignupFailed`.
-/

set_option autoImplicit false

namespace AnoMap

namespace Controllers

open Services

inductive AuthSignal where
  | isLoadingChanged
  | isErrorChanged
  | errorMessageChanged
  | stateChanged
  | usernameChanged
  | loginSuccess
  | logoutRequested
  | signupSuccess (message : String)
  deriving DecidableEq, Repr

/-- The calls of the bridge that the controllers make. -/
inductive BridgeCall where
  | connectToServer (host port purpose : String)
  | disconnect
  | sendLogin (id pw : String)
  | sendSignup (id email pw : String)
  deriving DecidableEq, Repr

/-- What the bridge makes of a call. -/
def BridgeCall.toService : BridgeCall → ServiceCall
  | .connectToServer host port purpose => Services.connectToServer host port purpose
  | .disconnect => Services.disconnect
  | .sendLogin id pw => Services.sendLogin id pw
  | .sendSignup id email pw => Services.sendSignup id email pw

inductive AuthOutput where
  | signal (s : AuthSignal)
  | call (c : BridgeCall)
  deriving DecidableEq, Repr

structure AuthController where
  host : String
  port : String
  isLoading : Bool
  isError : Bool
  errorMessage : String
  deriving DecidableEq, Repr

namespace AuthController

def init (host port : String) : AuthController := ⟨host, port, false, false, ""⟩

def setLoading (c : AuthController) (v : Bool) : AuthController × List AuthOutput :=
  if c.isLoading = v then (c, []) else ({ c with isLoading := v }, [.signal .isLoadingChanged])

def setError (c : AuthController) (msg : String) : AuthController × List AuthOutput :=
  ({ c with isError := true, errorMessage := msg },
    [.signal .isErrorChanged, .signal .errorMessageChanged])

def clearError (c : AuthController) : AuthController × List AuthOutput :=
  ({ c with isError := false, errorMessage := "" },
    [.signal .isErrorChanged, .signal .errorMessageChanged])

@[simp] theorem setLoading_isLoading (c : AuthController) (v : Bool) :
    (c.setLoading v).1.isLoading = v := by
  unfold setLoading
  split_ifs with h
  · exact h
  · rfl

@[simp] theorem setLoading_host (c : AuthController) (v : Bool) :
    (c.setLoading v).1.host = c.host := by
  unfold setLoading
  split_ifs <;> rfl

@[simp] theorem setLoading_port (c : AuthController) (v : Bool) :
    (c.setLoading v).1.port = c.port := by
  unfold setLoading
  split_ifs <;> rfl

theorem mem_setLoading {c : AuthController} {v : Bool} {o : AuthOutput}
    (h : o ∈ (c.setLoading v).2) : o = .signal .isLoadingChanged := by
  unfold setLoading at h
  split_ifs at h
  · exact absurd h List.not_mem_nil
  · exact List.mem_singleton.mp h

end AuthController

/-! ## Login -/

structure LoginController extends AuthController where
  state : String
  username : String
  pendingId : String
  pendingPassword : String
  deriving DecidableEq, Repr

namespace LoginController

def init (host port : String) : LoginController := ⟨.init host port, "", "", "", ""⟩

def onConnected (c : LoginController) : LoginController × List AuthOutput :=
  if c.pendingId = "" then (c, [])
  else ({ c with pendingId := "", pendingPassword := "" },
    [.call (.sendLogin c.pendingId c.pendingPassword)])

/-- `connected`: the bridge has a connection. -/
def login (c : LoginController) (connected : Bool) (id password : String) :
    LoginController × List AuthOutput :=
  if id = "" ∨ password = "" then
    let r := c.setError "ID and Password cannot be empty"
    ({ c with toAuthController := r.1 }, r.2)
  else
    let r₁ := c.clearError
    let r₂ := r₁.1.setLoading true
    let c := { c with toAuthController := r₂.1, pendingId := id, pendingPassword := password }
    let r₃ := if connected then c.onConnected
      else (c, [.call (.connectToServer c.host c.port "login")])
    (r₃.1, r₁.2 ++ r₂.2 ++ r₃.2)

def handleLoginSuccess (c : LoginController) (state username : String) :
    LoginController × List AuthOutput :=
  let r := c.setLoading false
  ({ c with toAuthController := r.1, state := state, username := username },
    r.2 ++ [.signal .stateChanged, .signal .usernameChanged, .signal .loginSuccess])

def handleLoginFailed (c : LoginController) (error : String) : LoginController × List AuthOutput :=
  let r₁ := c.setLoading false
  let r₂ := r₁.1.setError error
  ({ c with toAuthController := r₂.1 }, r₁.2 ++ [.call .disconnect] ++ r₂.2)

def logout (c : LoginController) : LoginController × List AuthOutput :=
  let r₁ := c.setLoading false
  let r₂ := r₁.1.clearError
  ({ c with
      toAuthController := r₂.1
      state := ""
      username := ""
      pendingId := ""
      pendingPassword := "" },
    [.call .disconnect, .signal .stateChanged, .signal .usernameChanged] ++ r₁.2 ++ r₂.2 ++
      [.signal .logoutRequested])

theorem onConnected_state (c : LoginController) : c.onConnected.1.state = c.state := by
  unfold onConnected
  split_ifs <;> rfl

theorem onConnected_toAuthController (c : LoginController) :
    c.onConnected.1.toAuthController = c.toAuthController := by
  unfold onConnected
  split_ifs <;> rfl

theorem login_state (c : LoginController) (connected : Bool) (id password : String) :
    (c.login connected id password).1.state = c.state := by
  by_cases h : id = "" ∨ password = ""
  · rw [login, if_pos h]
  · rw [login, if_neg h]
    cases connected with
    | false => rfl
    | true => exact onConnected_state _

end LoginController

/-! ## Signup -/

structure SignupController extends AuthController where
  pendingId : String
  pendingEmail : String
  pendingPassword : String
  deriving DecidableEq, Repr

namespace SignupController

def init (host port : String) : SignupController := ⟨.init host port, "", "", ""⟩

def onConnected (c : SignupController) : SignupController × List AuthOutput :=
  if c.pendingId = "" then (c, [])
  else ({ c with pendingId := "", pendingEmail := "", pendingPassword := "" },
    [.call (.sendSignup c.pendingId c.pendingEmail c.pendingPassword)])

/-- `connected`: the bridge has a connection. -/
def signup (c : SignupController) (connected : Bool) (id email password : String) :
    SignupController × List AuthOutput :=
  if id = "" ∨ email = "" ∨ password = "" then
    let r := c.setError "모든 항목을 입력해야 합니다."
    ({ c with toAuthController := r.1 }, r.2)
  else
    let r₁ := c.clearError
    let r₂ := r₁.1.setLoading true
    let c := { c with
      toAuthController := r₂.1
      pendingId := id
      pendingEmail := email
      pendingPassword := password }
    let r₃ := if connected then c.onConnected
      else (c, [.call (.connectToServer c.host c.port "signup")])
    (r₃.1, r₁.2 ++ r₂.2 ++ r₃.2)

def handleSignupSuccess (c : SignupController) (message : String) :
    SignupController × List AuthOutput :=
  let r := c.setLoading false
  ({ c with toAuthController := r.1 }, r.2 ++ [.call .disconnect, .signal (.signupSuccess message)])

def handleSignupFailed (c : SignupController) (error : String) :
    SignupController × List AuthOutput :=
  let r₁ := c.setLoading false
  let r₂ := r₁.1.setError error
  ({ c with toAuthController := r₂.1 }, r₁.2 ++ [.call .disconnect] ++ r₂.2)

theorem onConnected_toAuthController (c : SignupController) :
    c.onConnected.1.toAuthController = c.toAuthController := by
  unfold onConnected
  split_ifs <;> rfl

end SignupController

end Controllers

end AnoMap
