import AnoMap.Controllers.Auth
import AnoMap.Lib.Machine

/-!
# Navigation

The main window shows one page at a time. `AppController` holds the name of the page asked for last
and ignores a request for that name; the window replaces the page it shows. Requests come from the
page shown, from the side panel and from the login controller. Camera windows stand beside the main
window until they are closed, by the user or at logout.

* `navigateTo`, `navigate`, `logout`; `MainWindow.step`: what the user, the login controller and the
  signup controller do.
* `pageOf`: the page that a name stands for; `Offers`: the names that can be asked for.
* **`page_in_sync`**: the page shown is the one named last, so that no request is lost, and a logout
  leads back to the login page with no camera window left.
* **`admin_page_iff`**: the page of the administrator is only shown to one if and only if no login
  reply with another state comes while it is.
-/

set_option autoImplicit false

namespace AnoMap

namespace Front

open Controllers

inductive Page where
  | login | signup | dashboard | ai | device | myPage | admin
  deriving DecidableEq

/-- `stack` is that of `stackView`, the page shown first; `screen` lists the camera windows that are
open, `cameraWindows` those that are registered. -/
structure MainWindow where
  currentPage : String
  stack : List Page
  loginController : LoginController
  cameraWindows : List ℕ
  screen : List ℕ

namespace MainWindow

def init (host port : String) : MainWindow := ⟨"Login", [.login], .init host port, [], []⟩

/-- The names by which a page replaces all there is. -/
def replacing : List (String × Page) :=
  [("Login", .login), ("Signup", .signup), ("AI", .ai), ("Device", .device), ("MyPage", .myPage),
    ("AdminDashboard", .admin)]

/-- `StackView.replace(null, page)`. -/
def replace (w : MainWindow) (page : Page) : MainWindow := { w with stack := [page] }

/-- `StackView.pop()`. -/
def pop (w : MainWindow) : MainWindow := { w with stack := w.stack.tail }

/-- `StackView.pop(null)`. -/
def popAll (w : MainWindow) : MainWindow := { w with stack := w.stack.getLast?.toList }

/-- `onNavigateTo`. -/
def navigateTo (w : MainWindow) (page : String) : MainWindow :=
  if page = "Back" then if 1 < w.stack.length then w.pop else w.replace .login
  else if page = "Dashboard" then if 1 < w.stack.length then w.popAll else w.replace .dashboard
  else
    match replacing.lookup page with
    | some p => w.replace p
    | none => w

def navigate (w : MainWindow) (page : String) : MainWindow :=
  if w.currentPage = page then w else { w with currentPage := page }.navigateTo page

def registerCameraWindow (w : MainWindow) (win : ℕ) : MainWindow :=
  if win ∈ w.cameraWindows then w else { w with cameraWindows := w.cameraWindows ++ [win] }

def unregisterCameraWindow (w : MainWindow) (win : ℕ) : MainWindow :=
  { w with cameraWindows := w.cameraWindows.filter (· ≠ win) }

def closeAllCameraWindows (w : MainWindow) : MainWindow :=
  { w with screen := w.screen.filter (· ∉ w.cameraWindows), cameraWindows := [] }

/-- `onLogoutRequested`. -/
def onLogoutRequested (w : MainWindow) : MainWindow :=
  let w := { w with loginController := w.loginController.logout.1 }
  (if 1 < w.stack.length then w.popAll else w).replace .login

def logout (w : MainWindow) : MainWindow :=
  w.closeAllCameraWindows.onLogoutRequested.navigate "Login"

/-- The names that the page shown asks for when the user wishes. -/
def requests : Page → List String
  | .login => ["Signup"]
  | .signup => ["Back"]
  | .dashboard => ["Device", "AI"]
  | .ai => ["Device"]
  | _ => []

/-- The names on the side panel. -/
def panel (w : MainWindow) : List String :=
  ["Dashboard", "AI", "Device", "MyPage"] ++
    if w.loginController.state = "admin" then ["AdminDashboard"] else []

/-- The names that can be asked for. -/
def Offers (w : MainWindow) (name : String) : Prop :=
  name ∈ w.panel ∨ ∃ page ∈ w.stack.head?, name ∈ requests page

instance (w : MainWindow) (name : String) : Decidable (w.Offers name) := by
  unfold Offers
  infer_instance

/-- `onLoginSuccess` of the login page, where it is the one shown. -/
def onLoginSuccess (w : MainWindow) : MainWindow :=
  if w.stack.head? = some .login then
    if w.loginController.state = "admin" then w.navigate "AdminDashboard"
    else w.navigate "Dashboard"
  else w

/-- `onSignupSuccess` of the signup page, where it is the one shown. -/
def onSignupSuccess (w : MainWindow) : MainWindow :=
  if w.stack.head? = some .signup then w.navigate "Back" else w

/-- `onRequestClose`. -/
def onRequestClose (w : MainWindow) : MainWindow := if 1 < w.stack.length then w.pop else w

inductive Event where
  | request (name : String)
  | requestClose
  | login (connected : Bool) (id password : String)
  | connected
  | loginSuccess (state username : String)
  | loginFailed (error : String)
  | signupSuccess
  | logout
  | detachCameraWindow (win : ℕ)
  | closeWindow (win : ℕ)
  | destroyed (win : ℕ)

def step (w : MainWindow) : Event → MainWindow × List Empty
  | .request name => (if w.Offers name then w.navigate name else w, [])
  | .requestClose => (w.onRequestClose, [])
  | .login connected id password =>
    ({ w with loginController := (w.loginController.login connected id password).1 }, [])
  | .connected => ({ w with loginController := w.loginController.onConnected.1 }, [])
  | .loginSuccess state username =>
    ({ w with loginController :=
        (w.loginController.handleLoginSuccess state username).1 }.onLoginSuccess, [])
  | .loginFailed error =>
    ({ w with loginController := (w.loginController.handleLoginFailed error).1 }, [])
  | .signupSuccess => (w.onSignupSuccess, [])
  | .logout => (w.logout, [])
  | .detachCameraWindow win =>
    ({ w.registerCameraWindow win with screen := w.screen ++ [win] }, [])
  | .closeWindow win => ({ w with screen := w.screen.filter (· ≠ win) }, [])
  | .destroyed win =>
    ({ w.unregisterCameraWindow win with screen := w.screen.filter (· ≠ win) }, [])

/-- The page that a name stands for. -/
def pageOf (name : String) : Page :=
  if name = "Dashboard" then .dashboard else (replacing.lookup name).getD .login

/-! ## The page shown -/

/-- The names that the window knows. -/
def names : List String :=
  ["Login", "Signup", "Back", "Dashboard", "AI", "Device", "MyPage", "AdminDashboard"]

variable {w : MainWindow} {name : String}

theorem Offers.known (h : w.Offers name) : name ∈ names := by
  obtain h | ⟨page, -, h⟩ := h
  · obtain h | h := List.mem_append.mp h
    · exact (by decide : ∀ n ∈ ["Dashboard", "AI", "Device", "MyPage"], n ∈ names) name h
    · split_ifs at h
      · rw [List.mem_singleton.mp h]
        decide
      · exact absurd h List.not_mem_nil
  · have hrequests : ∀ p, ∀ n ∈ requests p, n ∈ names := by
      intro p
      cases p <;> decide
    exact hrequests page name h

/-- Only the side panel offers the page of the administrator, and only to one. -/
theorem Offers.state_of_admin (h : w.Offers name) (hp : pageOf name = .admin) :
    w.loginController.state = "admin" := by
  obtain h | ⟨page, -, h⟩ := h
  · obtain h | h := List.mem_append.mp h
    · have hpanel : ∀ n ∈ ["Dashboard", "AI", "Device", "MyPage"], pageOf n ≠ .admin := by decide
      exact absurd hp (hpanel name h)
    · split_ifs at h with hs
      · exact hs
      · exact absurd h List.not_mem_nil
  · have hrequests : ∀ p, ∀ n ∈ requests p, pageOf n ≠ .admin := by
      intro p
      cases p <;> decide
    exact absurd hp (hrequests page name h)

/-- One page is shown, the one named last, and the camera windows that are open are registered. -/
structure InSync (w : MainWindow) : Prop where
  stack : w.stack = [pageOf w.currentPage]
  registered : ∀ win ∈ w.screen, win ∈ w.cameraWindows

/-- **Navigation** to a known name shows its page and changes nothing else. -/
theorem navigateTo_eq (h : w.stack.length = 1) (hn : name ∈ names) :
    w.navigateTo name = w.replace (pageOf name) := by
  have hdepth : ¬ 1 < w.stack.length := h.not_gt
  unfold navigateTo pageOf
  split_ifs with hback hdashboard hdashboard
  · exact absurd (hback.symm.trans hdashboard) (by decide)
  · rw [hback]
    rfl
  · rfl
  · have hlookup : ∀ n ∈ names, n ≠ "Back" → n ≠ "Dashboard" → (replacing.lookup n).isSome := by
      decide
    obtain ⟨p, hp⟩ := Option.isSome_iff_exists.mp (hlookup name hn hback hdashboard)
    rw [hp]
    rfl

theorem navigate_eq (h : w.stack = [pageOf w.currentPage]) (hn : name ∈ names) :
    w.navigate name = { w with currentPage := name, stack := [pageOf name] } := by
  unfold navigate
  split_ifs with hsame
  · rw [← hsame, ← h]
  · exact navigateTo_eq (congrArg List.length h) hn

theorem InSync.navigate (h : w.InSync) (hn : name ∈ names) : (w.navigate name).InSync := by
  rw [navigate_eq h.stack hn]
  exact ⟨rfl, h.registered⟩

theorem InSync.logout_eq (h : w.InSync) :
    w.logout = ⟨"Login", [.login], w.loginController.logout.1, [], []⟩ := by
  have hscreen : w.screen.filter (· ∉ w.cameraWindows) = [] :=
    List.filter_eq_nil_iff.mpr fun win hwin => by
      rw [decide_eq_true_eq]
      exact not_not_intro (h.registered win hwin)
  unfold logout closeAllCameraWindows onLogoutRequested
  rw [hscreen]
  simp [MainWindow.navigate, navigateTo, replace, replacing, h.stack]

theorem InSync.withLogin (h : w.InSync) (c : LoginController) :
    InSync { w with loginController := c } := ⟨h.stack, h.registered⟩

theorem InSync.onLoginSuccess (h : w.InSync) : w.onLoginSuccess.InSync := by
  unfold MainWindow.onLoginSuccess
  split_ifs
  · exact h.navigate (by decide)
  · exact h.navigate (by decide)
  · exact h

theorem InSync.onRequestClose (h : w.InSync) : w.onRequestClose = w := by
  unfold MainWindow.onRequestClose
  rw [h.stack]
  exact if_neg (lt_irrefl 1)

theorem InSync.detach (h : w.InSync) (win : ℕ) :
    InSync { w.registerCameraWindow win with screen := w.screen ++ [win] } := by
  unfold registerCameraWindow
  split_ifs with hm
  · refine ⟨h.stack, fun v hv => ?_⟩
    obtain hv | hv := List.mem_append.mp hv
    · exact h.registered v hv
    · rw [List.mem_singleton.mp hv]
      exact hm
  · refine ⟨h.stack, fun v hv => List.mem_append.mpr ?_⟩
    exact (List.mem_append.mp hv).imp (h.registered v) id

theorem InSync.step (h : w.InSync) (e : Event) : (w.step e).1.InSync := by
  cases e with
  | request name =>
    unfold MainWindow.step
    dsimp only
    split_ifs with ho
    · exact h.navigate ho.known
    · exact h
  | requestClose =>
    change w.onRequestClose.InSync
    rw [h.onRequestClose]
    exact h
  | login connected id password => exact h.withLogin _
  | connected => exact h.withLogin _
  | loginSuccess state username => exact (h.withLogin _).onLoginSuccess
  | loginFailed error => exact h.withLogin _
  | signupSuccess =>
    unfold MainWindow.step onSignupSuccess
    dsimp only
    split_ifs
    · exact h.navigate (by decide)
    · exact h
  | logout =>
    change w.logout.InSync
    rw [h.logout_eq]
    exact ⟨rfl, fun _ hv => hv⟩
  | detachCameraWindow win => exact h.detach win
  | closeWindow win => exact ⟨h.stack, fun v hv => h.registered v (List.mem_of_mem_filter hv)⟩
  | destroyed win =>
    refine ⟨h.stack, fun v hv => ?_⟩
    obtain ⟨hv, hne⟩ := List.mem_filter.mp hv
    exact List.mem_filter.mpr ⟨h.registered v hv, hne⟩

theorem inSync_init (host port : String) : (init host port).InSync :=
  ⟨rfl, fun _ hv => absurd hv List.not_mem_nil⟩

/-- **The page is in sync.** In any run the one page shown is the one named last, and a logout leads
to the login page with no state and no camera window left. -/
theorem page_in_sync (host port : String) (es : List Event) :
    let w := Machine.final step (init host port) es
    w.stack = [pageOf w.currentPage] ∧
      (∀ name, w.Offers name → (w.navigate name).stack = [pageOf name]) ∧
      w.logout.stack = [.login] ∧ w.logout.loginController.state = "" ∧ w.logout.screen = [] := by
  intro w
  have h : w.InSync := Machine.invariant step InSync (fun _ => True) (inSync_init host port)
    (fun _ e _ h => h.step e) es fun _ _ => trivial
  refine ⟨h.stack, fun name ho => ?_, ?_⟩
  · rw [navigate_eq h.stack ho.known]
  · rw [h.logout_eq]
    exact ⟨rfl, rfl, rfl⟩

/-! ## The page of the administrator -/

/-- Who sees the page of the administrator is one. -/
def Guarded (w : MainWindow) : Prop := .admin ∈ w.stack → w.loginController.state = "admin"

/-- While the page of the administrator is shown, no login reply has a state other than admin. -/
def KeepsAdmin (w : MainWindow) : Event → Prop
  | .loginSuccess state _ => .admin ∈ w.stack → state = "admin"
  | _ => True

theorem Guarded.of_stack {w' : MainWindow} (h : w.Guarded) (hstack : w'.stack = w.stack)
    (hstate : w'.loginController.state = w.loginController.state) : w'.Guarded := by
  unfold Guarded
  rw [hstack, hstate]
  exact h

theorem guarded_navigate (h : w.InSync) (hn : name ∈ names)
    (hp : pageOf name = .admin → w.loginController.state = "admin") :
    (w.navigate name).Guarded := by
  rw [navigate_eq h.stack hn]
  exact fun hm => hp (List.mem_singleton.mp hm).symm

theorem guarded_onLoginSuccess_iff (h : w.InSync) : w.onLoginSuccess.Guarded ↔ w.Guarded := by
  unfold MainWindow.onLoginSuccess
  split_ifs with hlogin hadmin
  · exact iff_of_true (guarded_navigate h (by decide) fun _ => hadmin) fun _ => hadmin
  · refine iff_of_true (guarded_navigate h (by decide) fun hp => by cases hp) fun hm => ?_
    rw [h.stack, List.head?_cons, Option.some_inj] at hlogin
    rw [h.stack, hlogin] at hm
    cases List.mem_singleton.mp hm
  · exact Iff.rfl

theorem guarded_step_iff (h : w.InSync) (hg : w.Guarded) (e : Event) :
    (w.step e).1.Guarded ↔ w.KeepsAdmin e := by
  cases e with
  | loginSuccess state username => exact guarded_onLoginSuccess_iff (h.withLogin _)
  | request name =>
    refine iff_of_true ?_ trivial
    unfold MainWindow.step
    dsimp only
    split_ifs with ho
    · exact guarded_navigate h ho.known ho.state_of_admin
    · exact hg
  | requestClose =>
    refine iff_of_true ?_ trivial
    change w.onRequestClose.Guarded
    rw [h.onRequestClose]
    exact hg
  | login connected id password =>
    exact iff_of_true (hg.of_stack rfl (LoginController.login_state ..)) trivial
  | connected => exact iff_of_true (hg.of_stack rfl (LoginController.onConnected_state _)) trivial
  | loginFailed error => exact iff_of_true (hg.of_stack rfl rfl) trivial
  | signupSuccess =>
    refine iff_of_true ?_ trivial
    unfold MainWindow.step onSignupSuccess
    dsimp only
    split_ifs
    · exact guarded_navigate h (by decide) fun hp => by cases hp
    · exact hg
  | logout =>
    refine iff_of_true ?_ trivial
    change w.logout.Guarded
    rw [h.logout_eq]
    exact fun hm => by cases List.mem_singleton.mp hm
  | detachCameraWindow win =>
    refine iff_of_true (hg.of_stack ?_ ?_) trivial <;>
      · unfold MainWindow.step registerCameraWindow
        dsimp only
        split_ifs <;> rfl
  | closeWindow win => exact iff_of_true (hg.of_stack rfl rfl) trivial
  | destroyed win => exact iff_of_true (hg.of_stack rfl rfl) trivial

/-- **The page of the administrator.** In a run it is only ever shown to one if and only if no login
reply with a state other than admin comes while it is shown. -/
theorem admin_page_iff (host port : String) (es : List Event) :
    (∀ pre, pre <+: es → (Machine.final step (init host port) pre).Guarded) ↔
      Machine.Along step KeepsAdmin (init host port) es := by
  have hinit : (init host port).InSync ∧ (init host port).Guarded :=
    ⟨inSync_init host port, fun hm => by cases List.mem_singleton.mp hm⟩
  rw [← Machine.along_congr step (P := fun w => w.InSync ∧ w.Guarded)
    (Q := fun w e => (w.step e).1.Guarded ∧ ∀ o ∈ (w.step e).2, o.elim) (fun w e h => ?_) hinit es,
    Machine.along_leaves_iff step hinit.2]
  · exact (and_iff_left fun o => o.elim).symm
  · have hiff := guarded_step_iff h.1 h.2 e
    exact ⟨(and_iff_left fun o => o.elim).trans hiff, fun hk => ⟨h.1.step e, hiff.mpr hk⟩⟩

end MainWindow

end Front

end AnoMap
