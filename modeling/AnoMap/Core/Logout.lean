import AnoMap.Core.Wiring

/-!
# Logout

What is left after logout while bodies, tasks and snapshots of the session are still under way.

* `MakesRows`: the work that still makes rows: a snapshot with an entry, and a task that will hand
  on one. The device list is not cleared at logout, so a device task also hands on what it holds.
* `Quiet`: no such work is under way.
* `LoggedOut`: the invariant after logout; `LoggedOut.step`: every step but a new connection keeps it.
* `logout_final`: after a logout in a quiet state there are no rows, no workers and no slots until a
  new connection is made.
-/

set_option autoImplicit false

namespace AnoMap

open Domain Models Services

/-! ## Work that makes rows -/

/-- A snapshot a model makes a row of. -/
def Snapshot.MakesRows : Snapshot → Prop
  | .cameras data => ∃ cam ∈ data, cam.cameraId ≠ ""
  | .devices data => data ≠ []
  | .server _ => False

/-- A task that hands on such a snapshot, when the device store holds `devices`. -/
def Task.MakesRows (devices : List DeviceIntegrated) : Task → Prop
  | .camera json => CameraStore.ListsCamera json
  | .deviceCamera json =>
    DeviceStore.AcceptsCamera json ∧ (devices ≠ [] ∨ DeviceStore.ListsCamera json)
  | .deviceAvailable json _ =>
    DeviceStore.AcceptsAvailable json ∧ (devices ≠ [] ∨ DeviceStore.ListsAvailable json)
  | .serverStatus _ _ => False

def Running.MakesRows (devices : List DeviceIntegrated) : Running → Prop
  | .taken t => t.MakesRows devices
  | .posting snap => snap.MakesRows

def GuiEvent.MakesRows (devices : List DeviceIntegrated) : GuiEvent → Prop
  | .received p => ∃ t ∈ p.tasks, t.MakesRows devices
  | .update snap => snap.MakesRows

namespace Models.CameraModel

theorem onStoreUpdated_empty {autoSplit : String → ℤ} {order : HashOrder CameraData}
    {snapshot : List CameraData} (h : ∀ cam ∈ snapshot, cam.cameraId = "") :
    empty.onStoreUpdated autoSplit order snapshot = (empty, empty.slotsSignals) := by
  have hb : snapshotByCid snapshot = [] := by
    unfold snapshotByCid
    induction snapshot with
    | nil => rfl
    | cons cam snapshot ih =>
      rw [List.foldl_cons, if_pos (h cam List.mem_cons_self)]
      exact ih fun c hc => h c (List.mem_cons_of_mem cam hc)
  have hw : order.walk [] = [] := (order.perm []).eq_nil
  have hm : mergeSnapshot order empty snapshot = empty := by
    unfold mergeSnapshot
    rw [hb]
    dsimp only
    rw [hw]
    rfl
  unfold onStoreUpdated
  rw [hm, hb]
  rfl

end Models.CameraModel

namespace Data

/-- The models and the video manager are as new. -/
structure Cleared (d : Data) : Prop where
  cameraModel : d.cameraModel = .empty
  deviceModel : d.deviceModel = .empty
  videoManager : d.videoManager = .empty

/-- No rows, no workers and no slots. -/
def NoRows (d : Data) : Prop :=
  d.cameraModel.cameras = [] ∧ d.deviceModel.devices = [] ∧ d.videoManager.workers = ∅ ∧
    d.videoManager.slotToCameraId = ∅

variable {env : Env} {d : Data}

theorem Cleared.noRows (h : d.Cleared) : d.NoRows := by
  obtain ⟨hc, hd, hv⟩ := h
  refine ⟨?_, ?_, ?_, ?_⟩
  · rw [hc]; rfl
  · rw [hd]; rfl
  · rw [hv]; rfl
  · rw [hv]; rfl

theorem cleared_logout (env : Env) (d : Data) : (d.logout env).1.Cleared := ⟨rfl, rfl, rfl⟩

theorem Cleared.runStore (h : d.Cleared) (t : Task) : (d.runStore t).1.Cleared := by
  cases t <;> exact ⟨h.cameraModel, h.deviceModel, h.videoManager⟩

theorem deviceStore_applySnapshot (env : Env) (d : Data) (snap : Snapshot) :
    (d.applySnapshot env snap).1.deviceStore = d.deviceStore := by
  cases snap <;> rfl

theorem Cleared.applySnapshot (h : d.Cleared) {snap : Snapshot} (hs : ¬ snap.MakesRows) :
    (d.applySnapshot env snap).1.Cleared := by
  obtain ⟨hc, hd, hv⟩ := h
  cases snap with
  | cameras data =>
    have he : ∀ cam ∈ data, cam.cameraId = "" := by
      intro cam hcam
      by_contra hne
      exact hs ⟨cam, hcam, hne⟩
    refine ⟨?_, hd, ?_⟩
    · show (d.cameraModel.onStoreUpdated env.autoSplit env.order data).1 = .empty
      rw [hc, CameraModel.onStoreUpdated_empty he]
    · show (d.videoManager.onSignals _ (d.cameraModel.onStoreUpdated env.autoSplit env.order
        data).2).1 = .empty
      rw [hc, CameraModel.onStoreUpdated_empty he, hv, VideoManager.onSignals_slotsSignals_empty]
  | devices data =>
    have he : data = [] := by
      by_contra hne
      exact hs hne
    refine ⟨hc, ?_, hv⟩
    show d.deviceModel.onStoreUpdated data = .empty
    rw [hd, he, DeviceModel.onStoreUpdated_empty_nil]
  | server data => exact ⟨hc, hd, hv⟩

theorem quiet_devices {s : DeviceStore} {r : DeviceStore × Outcome (List DeviceIntegrated)}
    (hq : s.Quiet r) :
    (∃ e, r.2.map (Option.map Snapshot.devices) = .error e) ∨ r.1 = s ∧
      ∀ snap, r.2.map (Option.map Snapshot.devices) = .ok (some snap) → ¬ snap.MakesRows := by
  obtain ⟨e, he⟩ | ⟨hst, hout⟩ := hq
  · exact .inl ⟨e, by rw [he]; rfl⟩
  · refine .inr ⟨hst, fun snap hs => ?_⟩
    obtain ⟨data, hd, rfl⟩ := map_eq_ok_some hs
    obtain ho | ho := hout
    · rw [ho] at hd
      cases hd
    · rw [ho] at hd
      obtain rfl : [] = data := Option.some.inj (Except.ok.inj hd)
      exact fun hne => hne rfl

/-- A task that makes no row throws, or leaves the devices as they are and hands on no snapshot that
does. -/
theorem runStore_quiet {t : Task} (h : ¬ t.MakesRows d.deviceStore.devices) :
    (∃ e, (d.runStore t).2 = .error e) ∨
      (d.runStore t).1.deviceStore = d.deviceStore ∧
        ∀ snap, (d.runStore t).2 = .ok (some snap) → ¬ snap.MakesRows := by
  cases t with
  | camera json =>
    refine .inr ⟨rfl, fun snap hs => ?_⟩
    obtain ⟨data, ho, rfl⟩ := map_eq_ok_some hs
    rw [CameraStore.updateFromJson_cameras h ho]
    rintro ⟨cam, hcam, -⟩
    exact List.not_mem_nil hcam
  | deviceCamera json =>
    exact quiet_devices <| DeviceStore.updateFromCameraJson_quiet fun ha =>
      ⟨by_contra fun hd => h ⟨ha, .inl hd⟩, fun hl => h ⟨ha, .inr hl⟩⟩
  | deviceAvailable json clock =>
    exact quiet_devices <| DeviceStore.updateFromAvailableJson_quiet fun ha =>
      ⟨by_contra fun hd => h ⟨ha, .inl hd⟩, fun hl => h ⟨ha, .inr hl⟩⟩
  | serverStatus json clock =>
    refine .inr ⟨rfl, fun snap hs => ?_⟩
    obtain ⟨data, ho, rfl⟩ := map_eq_ok_some hs
    exact fun hf => hf

end Data

/-! ## After logout -/

namespace Core

/-- No work that makes rows is under way. -/
structure Quiet (c : Core) : Prop where
  gui : ∀ e ∈ c.gui, ¬ e.MakesRows c.data.deviceStore.devices
  queue : ∀ t ∈ c.queue, ¬ t.MakesRows c.data.deviceStore.devices
  running : ∀ r ∈ c.running, ¬ r.MakesRows c.data.deviceStore.devices

/-- What holds from a logout in a quiet state on. -/
structure LoggedOut (c : Core) : Prop where
  disconnected : c.connected = false
  cleared : c.data.Cleared
  quiet : c.terminated = false → c.Quiet

variable {env : Env} {c : Core}

theorem LoggedOut.update (h : c.LoggedOut) (hq : c.Quiet) (i : ℕ) : (c.update i).LoggedOut := by
  unfold Core.update
  cases hr : c.running[i]? with
  | none => exact h
  | some r =>
  cases r with
  | posting snap => exact h
  | taken t =>
    have ht : ¬ t.MakesRows c.data.deviceStore.devices :=
      hq.running (.taken t) (List.mem_of_getElem? hr)
    have hcl := h.cleared.runStore t
    have hrs := Data.runStore_quiet ht
    dsimp only
    split
    · next data e hd =>
      rw [hd] at hcl
      exact ⟨h.disconnected, hcl, fun (hterm : true = false) => absurd hterm (by decide)⟩
    · next data hd =>
      rw [hd] at hcl hrs
      obtain ⟨e, he⟩ | ⟨hst, -⟩ := hrs
      · cases he
      · dsimp only at hst
        refine ⟨h.disconnected, hcl, fun _ => ⟨?_, ?_, ?_⟩⟩
        · rw [hst]; exact hq.gui
        · rw [hst]; exact hq.queue
        · rw [hst]; exact fun r hr => hq.running r (List.mem_of_mem_eraseIdx hr)
    · next data snap hd =>
      rw [hd] at hcl hrs
      obtain ⟨e, he⟩ | ⟨hst, hsn⟩ := hrs
      · cases he
      · dsimp only at hst
        refine ⟨h.disconnected, hcl, fun _ => ⟨?_, ?_, ?_⟩⟩
        · rw [hst]; exact hq.gui
        · rw [hst]; exact hq.queue
        · rw [hst]
          intro r hr
          obtain hr | rfl := List.mem_or_eq_of_mem_set hr
          · exact hq.running r hr
          · exact hsn snap rfl

theorem LoggedOut.runGui (h : c.LoggedOut) (hq : c.Quiet) : (c.runGui env).1.LoggedOut := by
  unfold Core.runGui
  have hgui := hq.gui
  cases hg : c.gui with
  | nil => exact h
  | cons e gui =>
    rw [hg] at hgui
    obtain ⟨he, hrest⟩ := List.forall_mem_cons.mp hgui
    cases e with
    | received p =>
      refine ⟨h.disconnected, h.cleared, fun _ => ⟨hrest, fun t ht => ?_, hq.running⟩⟩
      obtain ht | ht := List.mem_append.mp ht
      · exact hq.queue t ht
      · exact fun hm => he ⟨t, ht, hm⟩
    | update snap =>
      have hst := Data.deviceStore_applySnapshot env c.data snap
      refine ⟨h.disconnected, h.cleared.applySnapshot he, fun _ => ⟨?_, ?_, ?_⟩⟩
      · dsimp only; rw [hst]; exact hrest
      · dsimp only; rw [hst]; exact hq.queue
      · dsimp only; rw [hst]; exact hq.running

theorem LoggedOut.logout (hq : c.terminated = false → c.Quiet) :
    LoggedOut { c with connected := false, data := (c.data.logout env).1 } :=
  ⟨rfl, Data.cleared_logout env c.data, fun ht => ⟨(hq ht).gui, (hq ht).queue, (hq ht).running⟩⟩

theorem step_logout (env : Env) (h : c.terminated = false) :
    (c.step env .logout).1 = { c with connected := false, data := (c.data.logout env).1 } := by
  unfold Core.step
  rw [if_neg (by rw [h]; decide)]

/-- **Step.** Every step but a new connection keeps the invariant. -/
theorem LoggedOut.step (h : c.LoggedOut) {e : Event} (he : e ≠ .connect) :
    (c.step env e).1.LoggedOut := by
  unfold Core.step
  split
  · exact h
  · next ht =>
    have hq : c.Quiet := h.quiet (Bool.eq_false_of_not_eq_true ht)
    cases e with
    | connect => exact absurd rfl he
    | receive p =>
      dsimp only
      rw [if_neg (by rw [h.disconnected]; decide)]
      exact h
    | take =>
      dsimp only
      split
      · next t queue hqu =>
        split
        · have hqq := hq.queue
          rw [hqu] at hqq
          obtain ⟨htm, hqq⟩ := List.forall_mem_cons.mp hqq
          refine ⟨h.disconnected, h.cleared, fun _ => ⟨hq.gui, hqq, fun r hr => ?_⟩⟩
          obtain hr | hr := List.mem_append.mp hr
          · exact hq.running r hr
          · rw [List.mem_singleton.mp hr]
            exact htm
        · exact h
      · exact h
    | update i => exact h.update hq i
    | post i =>
      dsimp only
      split
      · next snap hr =>
        refine ⟨h.disconnected, h.cleared, fun _ => ⟨fun e he => ?_, hq.queue, fun r hr => ?_⟩⟩
        · obtain he | he := List.mem_append.mp he
          · exact hq.gui e he
          · rw [List.mem_singleton.mp he]
            exact hq.running _ (List.mem_of_getElem? hr)
        · exact hq.running r (List.mem_of_mem_eraseIdx hr)
      · exact h
    | gui => exact h.runGui hq
    | logout => exact .logout h.quiet

/-- **Logout.** In every run, after a logout handled in a quiet state there are no rows, no workers
and no slots in any state before a new connection is made. -/
theorem logout_final (env : Env) (pre post : List Event)
    (hl : (Machine.final (step env) init pre).terminated = false)
    (hq : (Machine.final (step env) init pre).Quiet) (hc : Event.connect ∉ post) :
    (Machine.final (step env) init (pre ++ .logout :: post)).data.NoRows := by
  have hstart : LoggedOut (((Machine.final (step env) init pre).step env .logout).1) := by
    rw [step_logout env hl]
    exact .logout fun _ => hq
  rw [Machine.final_append, Machine.final_cons]
  have hrun := Machine.invariant (step env) LoggedOut (· ≠ .connect) hstart
    (fun t e he h => h.step he) post fun e he => by
      rintro rfl
      exact hc he
  exact hrun.cleared.noRows

/-- A camera list is processed. At logout a worker still holds a device snapshot without entries, and
a status packet that no store accepts waits; the next list finds no connection. -/
theorem logout_final_sample :
    (Machine.final (step .sample) init
      ([.connect, .receive (.available (.object []) 0 0), .gui, .take, .update 0, .take, .update 1,
        .post 1, .gui, .receive (.camera (sampleCamera true)), .gui, .take, .update 1, .post 1, .gui,
        .take, .update 1, .post 1, .gui, .receive (.available .null 0 0)] ++ .logout ::
        [.post 0, .gui, .gui, .take, .update 0, .take, .update 0,
          .receive (.camera (sampleCamera true)), .gui, .take])).data.NoRows := by
  refine logout_final .sample _ _ rfl ⟨?_, ?_, ?_⟩ (by simp)
  · intro e he
    obtain rfl : e = .received (.available .null 0 0) := List.mem_singleton.mp he
    rintro ⟨t, ht, hrows⟩
    obtain rfl | rfl : t = .deviceAvailable .null 0 ∨ t = .serverStatus .null 0 := by
      simpa [Packet.tasks] using ht
    · exact absurd hrows.1.1 Bool.false_ne_true
    · exact hrows
  · exact fun t ht => absurd ht List.not_mem_nil
  · intro r hr
    obtain rfl : r = .posting (.devices []) := List.mem_singleton.mp hr
    exact fun hrows => hrows rfl

/-- **Late work.** A camera list that waits for the GUI thread at logout still makes a row. -/
theorem logout_final_fails :
    ¬ ∀ (env : Env) (pre post : List Event),
      (Machine.final (step env) init pre).terminated = false → Event.connect ∉ post →
      (Machine.final (step env) init (pre ++ .logout :: post)).data.NoRows := by
  intro h
  have hrows := (h .sample [.connect, .receive (.camera (sampleCamera true))]
    [.gui, .take, .update 0, .post 0, .gui] rfl (by simp)).1
  exact absurd hrows (by decide)

end Core

end AnoMap
