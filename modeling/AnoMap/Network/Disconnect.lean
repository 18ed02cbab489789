import AnoMap.Network.NetworkService

/-!
# The end of a connection

`disconnect` waits until `io_context::run` returns, that is until every handler has run and no
operation is outstanding.

* `Returns`: from this state `run` returns whatever the order of the ready handlers, no operation is
  left outstanding and no session is made on the way.
* `Pending`: what keeps `run` going: a connect that has not failed, an IMAGE metadata handler behind
  the cleanup, or a busy UDP session.
* `Cleared`: what the cleanup leaves when nothing is pending; `weight` bounds the handlers that are
  still to run.
* **`disconnect_returns_iff`**: after the cleanup `run` returns exactly when nothing was pending.
-/

set_option autoImplicit false

namespace AnoMap

namespace Network

/-! ## A closed TCP session -/

namespace TcpSession

variable {σ : Type} (E : Ssl σ)

/-- **Closed**: no operation can start. -/
structure Closed (s : TcpSession σ) : Prop where
  isOpen : s.socket.isOpen = false
  reading : s.reading = none
  writing : s.socket.writing = []

/-- The handlers that a handler of a closed session can still lead to, itself included. -/
def handlerWeight : Handler → ℕ
  | .sendMessage _ | .writeTls _ => 3
  | .wrote _ => 2
  | .read _ none => 2
  | .read _ (some _) => 7

def weight (s : TcpSession σ) : ℕ := (s.strand.map handlerWeight).sum

/-- The session is closed and has at most `n` more to run than `s`. -/
def Within (s : TcpSession σ) (n : ℕ) (s' : TcpSession σ) : Prop :=
  s'.Closed ∧ s'.weight ≤ s.weight + n

theorem closed_close (s : TcpSession σ) : s.close.Closed := ⟨rfl, rfl, rfl⟩

variable {E} {s s' : TcpSession σ} {n m : ℕ}

theorem Within.mono (h : s.Within n s') (hnm : n ≤ m) : s.Within m s' :=
  ⟨h.1, Nat.le_trans h.2 (Nat.add_le_add_left hnm _)⟩

theorem Within.trans {s'' : TcpSession σ} (h : s.Within n s') (h' : s'.Within m s'') :
    s.Within (n + m) s'' := by
  have h1 := h.2
  have h2 := h'.2
  exact ⟨h'.1, by omega⟩

/-- What a handler leads to, its callbacks counted in, is less than the handler. -/
theorem Within.lt {outs : List TcpOutput} {k : ℕ} (h : s.Within n s') (hl : outs.length ≤ m)
    (hk : n + m < k) : s'.Closed ∧ s'.weight + outs.length < s.weight + k := by
  have h1 := h.2
  exact ⟨h.1, by omega⟩

theorem Closed.post (h : s.Closed) (a : Handler) : s.Within (handlerWeight a) (s.post a) := by
  refine ⟨⟨h.isOpen, h.reading, h.writing⟩, ?_⟩
  simp [weight, TcpSession.post]

theorem Closed.setTls (h : s.Closed) (tls : Option (TlsSession σ)) : s.Within 0 (s.setTls tls) :=
  ⟨⟨h.isOpen, h.reading, h.writing⟩, Nat.le_refl _⟩

theorem Closed.setMessage (h : s.Closed) (type : UInt8) (length : UInt32) (payload : Bytes) :
    s.Within 0 (s.setMessage type length payload) :=
  ⟨⟨h.isOpen, h.reading, h.writing⟩, Nat.le_refl _⟩

theorem Closed.asyncWrite (h : s.Closed) (buf : Bytes) (rs : List Record) :
    s.Within 2 (s.asyncWrite buf rs) := by
  rw [TcpSession.asyncWrite, if_neg (by rw [h.isOpen]; exact Bool.false_ne_true)]
  exact h.post _

theorem Closed.asyncRead (h : s.Closed) (op : ReadOp) : s.Within 2 (s.asyncRead op) := by
  rw [TcpSession.asyncRead, if_neg (by rw [h.isOpen]; exact Bool.false_ne_true)]
  exact h.post _

theorem Closed.handleDisconnect (h : s.Closed) :
    s.Within 0 s.handleDisconnect.1 ∧ s.handleDisconnect.2.length ≤ 1 := by
  unfold TcpSession.handleDisconnect
  split_ifs
  · exact ⟨⟨h, Nat.le_refl _⟩, Nat.zero_le _⟩
  · have ha : aborted ({ s with disconnected := true } : TcpSession σ) = [] := by
      rw [aborted, h.reading, h.writing]
      rfl
    refine ⟨⟨closed_close _, Nat.le_of_eq ?_⟩, Nat.le_refl _⟩
    simp only [weight, TcpSession.close, ha, List.append_nil, Nat.add_zero]

theorem Closed.handleTlsOutput (h : s.Closed) : s.Within 3 (s.handleTlsOutput E) := by
  unfold TcpSession.handleTlsOutput
  dsimp only
  split_ifs
  · exact ⟨(h.setTls _).1, Nat.le_add_right _ _⟩
  · exact (h.setTls _).trans ((h.setTls _).1.post _)

theorem Closed.sendMessage (h : s.Closed) (msg : Message) : s.Within 2 (s.sendMessage E msg) := by
  unfold TcpSession.sendMessage
  split
  · exact h.asyncWrite _ _
  · dsimp only
    split_ifs
    · exact (h.setTls _).trans ((h.setTls _).1.asyncWrite _ _)
    · exact h.asyncWrite _ _

theorem Closed.dispatch (h : s.Closed) : s.Within 2 s.dispatch.1 ∧ s.dispatch.2.length ≤ 1 := by
  refine ⟨h.asyncRead _, ?_⟩
  unfold TcpSession.dispatch
  dsimp only
  split_ifs
  · exact Nat.le_refl _
  · exact Nat.zero_le _

theorem Closed.completeHandshake (h : s.Closed) :
    s.Within 0 (s.completeHandshake E).1 ∧ (s.completeHandshake E).2.length ≤ 1 := by
  unfold TcpSession.completeHandshake
  split_ifs
  · exact ⟨⟨⟨h.isOpen, h.reading, h.writing⟩, Nat.le_refl _⟩, Nat.le_refl _⟩
  · exact ⟨⟨h, Nat.le_refl _⟩, Nat.zero_le _⟩

theorem Closed.onHeader (h : s.Closed) (headerBuffer : Bytes) :
    s.Within 5 (s.onHeader E (some headerBuffer)).1 ∧
      (s.onHeader E (some headerBuffer)).2.length ≤ 1 := by
  have hm := h.setMessage
  unfold TcpSession.onHeader
  dsimp only
  split_ifs
  · exact ⟨((hm _ _ _).trans ((hm _ _ _).1.asyncRead _)).mono (by omega), Nat.zero_le _⟩
  · have ht := (hm (headerBuffer.getD 0 0) (lengthOfBytes (headerBuffer.drop 1)) []).1.handleTlsOutput
      (E := E)
    exact ⟨((hm _ _ _).trans (ht.trans (ht.1.asyncRead _))).mono (by omega), Nat.zero_le _⟩
  · exact ⟨((hm _ _ _).trans ((hm _ _ _).1.asyncRead _)).mono (by omega), Nat.le_refl _⟩

theorem Closed.decryptBody (h : s.Closed) (t : TlsSession σ) (payload : Bytes) :
    s.Within 0 (s.decryptBody E t payload) :=
  (h.setTls _).trans ((h.setTls _).1.setMessage _ _ _)

theorem Closed.onBody (h : s.Closed) (payload : Bytes) :
    s.Within 5 (s.onBody E (some payload)).1 ∧ (s.onBody E (some payload)).2.length ≤ 1 := by
  have hm := h.setMessage s.currentMessage.type s.currentMessage.length payload
  have hplain := hm.1.dispatch
  unfold TcpSession.onBody
  dsimp only
  split
  · exact ⟨(hm.trans hplain.1).mono (by omega), hplain.2⟩
  · rename_i t ht
    have hd := h.decryptBody (E := E) t payload
    have ho := hd.trans (hd.1.handleTlsOutput (E := E))
    split_ifs
    · have hc := ho.1.completeHandshake (E := E)
      exact ⟨(ho.trans (hc.1.trans (hc.1.1.asyncRead _))).mono (by omega), hc.2⟩
    · exact ⟨(ho.trans ho.1.dispatch.1).mono (by omega), ho.1.dispatch.2⟩
    · exact ⟨(hm.trans hplain.1).mono (by omega), hplain.2⟩

/-- **A closed session runs down**: its next handler leaves it closed and with less to run, the
callbacks counted in. -/
theorem Closed.run (h : s.Closed) (hs : s.strand ≠ []) :
    (s.run E).1.Closed ∧ (s.run E).1.weight + (s.run E).2.length < s.weight := by
  match hstrand : s.strand with
  | [] => exact absurd hstrand hs
  | a :: as =>
    have h0 : Closed ({ s with strand := as } : TcpSession σ) := ⟨h.isOpen, h.reading, h.writing⟩
    have hw : s.weight = weight ({ s with strand := as } : TcpSession σ) + handlerWeight a := by
      rw [weight, hstrand, List.map_cons, List.sum_cons, Nat.add_comm]
      rfl
    unfold TcpSession.run
    rw [hstrand, hw]
    dsimp only
    cases a with
    | sendMessage msg => exact (h0.sendMessage msg).lt (Nat.le_refl 0) (by simp [handlerWeight])
    | writeTls records => exact (h0.asyncWrite _ records).lt (Nat.le_refl 0) (by simp [handlerWeight])
    | wrote ok =>
      cases ok with
      | true => exact ⟨h0, Nat.lt_add_of_pos_right (Nat.zero_lt_succ _)⟩
      | false => exact h0.handleDisconnect.1.lt h0.handleDisconnect.2 (by simp [handlerWeight])
    | read op data =>
      cases data with
      | none => cases op <;> exact h0.handleDisconnect.1.lt h0.handleDisconnect.2 (by simp [handlerWeight])
      | some b =>
        cases op with
        | header => exact (h0.onHeader b).1.lt (h0.onHeader b).2 (by simp [handlerWeight])
        | body => exact (h0.onBody b).1.lt (h0.onBody b).2 (by simp [handlerWeight])

theorem Closed.step_socket (h : s.Closed) (e : Event) (hn : ∀ msg, e ≠ .sendMessage msg)
    (hr : e ≠ .run) (hc : e ≠ .close) : s.step E e = (s, []) := by
  cases e with
  | sendMessage msg => exact absurd rfl (hn msg)
  | close => exact absurd rfl hc
  | run => exact absurd rfl hr
  | accept i n =>
    have ha : ¬ s.socket.CanAccept i n := by
      rintro ⟨_, h1, h2⟩
      rw [h.writing] at h2
      simp only [List.getElem?_nil, Option.getD_none, List.length_nil] at h2
      omega
    simp only [TcpSession.step, acceptBytes, if_neg ha]
  | writeFails i =>
    have hi : ¬ i < s.socket.writing.length := by rw [h.writing]; exact Nat.not_lt_zero _
    simp only [TcpSession.step, failWrite, if_neg hi]
  | arrive bytes => simp only [TcpSession.step, endRead, h.reading]
  | readFails => simp only [TcpSession.step, endRead, h.reading]

end TcpSession

/-! ## A busy UDP session -/

namespace UdpSession

variable {δ : Type}

/-- **Busy**: a receive or a wait is outstanding, or the handler of a datagram or of a wait that
does not rest is ready. -/
def Busy (u : UdpSession δ) : Prop :=
  u.receiving = true ∨ (∃ r ∈ u.received, r ≠ none) ∨
    u.reassembly.reassemblyTimer.waiting ≠ none ∨
    ∃ frameNo ∈ u.reassembly.reassemblyTimer.fired, u.reassembly.Rearms frameNo

instance (u : UdpSession δ) : Decidable u.Busy :=
  inferInstanceAs (Decidable (_ ∨ (∃ _ ∈ _, _) ∨ _ ∨ ∃ _ ∈ _, _))

/-- The handlers of the session that are ready. -/
def weight (u : UdpSession δ) : ℕ :=
  u.received.length + u.reassembly.reassemblyTimer.fired.length

theorem onReceive_receiving (D : Dtls δ) (u : UdpSession δ) (d : Datagram) :
    (u.onReceive D (some d)).1.receiving = true := by
  unfold onReceive
  dsimp only
  split_ifs <;> rfl

theorem learnEndpoint_reassembly (u : UdpSession δ) (sender : Endpoint) :
    (u.learnEndpoint sender).reassembly = u.reassembly := by
  unfold learnEndpoint
  split_ifs <;> rfl

theorem onReceive_sendControl (D : Dtls δ) (u : UdpSession δ) (r : Option Datagram) :
    (u.onReceive D r).1.reassembly.sendControl = u.reassembly.sendControl := by
  unfold onReceive
  split
  · rfl
  · dsimp only
    split_ifs
    · rfl
    · rw [← learnEndpoint_reassembly u]
      rcases handlePacket_reassembly D (u.learnEndpoint _) _ with h | ⟨c, _, h, _⟩
      · exact congrArg Reassembly.sendControl h
      · exact (congrArg Reassembly.sendControl h).trans (Reassembly.handle_sendControl _ _)

end UdpSession

/-- The handler of IMAGE metadata. -/
def Task.isImageMeta : Task → Bool
  | .imageMeta _ => true
  | _ => false

namespace NetworkService

variable {σ δ : Type} (E : Env σ δ)

/-! ## The statement -/

/-- **`io_context::run` returns**, in whatever order it runs the ready handlers, with no operation
outstanding and with no session made beyond the `n` there were. -/
inductive Returns (n : ℕ) : NetworkService σ δ → Prop
  | intro (s : NetworkService σ δ) (halted : s.halted = false) (sessions : s.sessions = n)
      (next : ∀ h, s.IsReady h → Returns n (step E s (.ready h)).1)
      (drained : (∀ h, ¬ s.IsReady h) → ¬ s.Outstanding) : Returns n s

/-- **Pending.** -/
def Pending (s : NetworkService σ δ) : Prop :=
  s.connecting = true ∨ s.connectDone = some true ∨ (∃ t ∈ s.strand, t.isImageMeta = true) ∨
    ∃ u ∈ s.udps, u.Busy

instance (s : NetworkService σ δ) : Decidable s.Pending :=
  inferInstanceAs (Decidable (_ ∨ _ ∨ (∃ _ ∈ _, _) ∨ ∃ _ ∈ _, _))

/-! ## What holds of every reachable state -/

/-- **Sound.** Every UDP session can ask for missing pieces, a TCP session that the service has let
go of is closed, and only the first handler on the strand can be that of `connect`. -/
structure Sound (s : NetworkService σ δ) : Prop where
  sendControl : ∀ u ∈ s.udps, u.reassembly.sendControl = true
  closed : ∀ t ∈ s.tcp, s.session = true ∨ t.Closed
  connect : ∀ r, Task.connect r ∉ s.strand.tail

theorem notMem_tail_append {l l' : List Task} {t : Task} (h : t ∉ l.tail) (h' : t ∉ l') :
    t ∉ (l ++ l').tail := by
  cases l with
  | nil => exact fun ht => h' (List.mem_of_mem_tail ht)
  | cons a l =>
    intro ht
    rcases List.mem_append.mp ht with ht | ht
    · exact h ht
    · exact h' ht

theorem connect_notMem_tcp (outs : List TcpOutput) (r : Bool) :
    Task.connect r ∉ outs.map taskOfTcp := by
  intro h
  obtain ⟨o, _, ho⟩ := List.mem_map.mp h
  cases o <;> cases ho

theorem connect_notMem_udp (outs : List UdpSession.Output) (r : Bool) :
    Task.connect r ∉ outs.filterMap taskOfUdp := by
  intro h
  obtain ⟨o, _, ho⟩ := List.mem_filterMap.mp h
  rcases o with (⟨_, _⟩ | _) | ⟨_, _⟩ <;> cases ho

variable {E} {s : NetworkService σ δ}

theorem Sound.post (h : s.Sound) {ts : List Task} (hts : ∀ r, Task.connect r ∉ ts) :
    (s.post ts).Sound :=
  ⟨h.sendControl, h.closed, fun r => notMem_tail_append (h.connect r) (hts r)⟩

theorem Sound.setTcp (h : s.Sound) (r : TcpSession σ × List TcpOutput)
    (hr : s.session = true ∨ r.1.Closed) : (s.setTcp r).Sound := by
  refine Sound.post (s := { s with tcp := some r.1 }) ⟨h.sendControl, ?_, h.connect⟩
    (connect_notMem_tcp _)
  intro t ht
  rw [← Option.some.inj ht]
  exact hr

theorem Sound.setUdps (h : s.Sound) (i : ℕ) {u : UdpSession δ}
    (hu : u.reassembly.sendControl = true) :
    Sound ({ s with udps := s.udps.set i u } : NetworkService σ δ) := by
  refine ⟨fun v hv => ?_, h.closed, h.connect⟩
  rcases List.mem_or_eq_of_mem_set hv with hv | rfl
  · exact h.sendControl v hv
  · exact hu

theorem Sound.setUdp (h : s.Sound) (i : ℕ) (r : UdpSession δ × List UdpSession.Output)
    (hr : r.1.reassembly.sendControl = true) : (s.setUdp i r).1.Sound :=
  (h.setUdps i hr).post (connect_notMem_udp _)

theorem Sound.openUdp (h : s.Sound) : (s.openUdp E).Sound := by
  unfold NetworkService.openUdp
  split
  · exact h
  · refine ⟨fun u hu => ?_, h.closed, h.connect⟩
    rcases List.mem_append.mp hu with hu | hu
    · exact h.sendControl u hu
    · rw [List.mem_singleton.mp hu]; rfl

theorem Sound.replyPort (h : s.Sound) (json : Bytes) : (s.replyPort json).Sound := by
  unfold NetworkService.replyPort
  split
  · exact h
  · rename_i i u hiu
    obtain ⟨j, _, hj⟩ := Option.bind_eq_some_iff.mp hiu
    obtain ⟨v, hv, hvu⟩ := Option.map_eq_some_iff.mp hj
    obtain ⟨rfl, rfl⟩ := Prod.mk.inj hvu
    refine (h.setUdps _ ?_).post fun r hr => by cases List.mem_singleton.mp hr
    exact h.sendControl v (List.mem_of_getElem? hv)

theorem Sound.runTask (h : s.Sound) (t : Task) :
    (runTask E s t).1.Sound := by
  cases t with
  | connect resolves =>
    cases resolves <;> exact ⟨h.sendControl, h.closed, h.connect⟩
  | connected => exact ⟨h.sendControl, h.closed, h.connect⟩
  | lost => exact ⟨h.sendControl, h.closed, h.connect⟩
  | process msg =>
    change (s.process E msg).1.Sound
    unfold process
    split
    · exact h
    · exact h.post fun r hr => by cases List.mem_singleton.mp hr
    · exact h
  | imageMeta json => exact h.openUdp.replyPort json
  | send type body =>
    change (s.sendTask type body).Sound
    unfold sendTask
    split_ifs with hs
    · exact ⟨h.sendControl, fun t _ => Or.inl hs.1, h.connect⟩
    · exact h
  | cleanup =>
    refine ⟨h.sendControl, fun t ht => Or.inr ?_, h.connect⟩
    change t ∈ (if s.session then s.tcp.map (·.close) else s.tcp) at ht
    split_ifs at ht with hs
    · obtain ⟨t', _, rfl⟩ := Option.mem_map.mp ht
      exact TcpSession.closed_close t'
    · exact (h.closed t ht).resolve_left hs

theorem onWait_cases {u : UdpSession δ} (hs : u.reassembly.sendControl = true) (frameNo : UInt8) :
    u.onWait frameNo = none ∨ ∃ timer out, u.onWait frameNo =
      some ({ u with reassembly := { u.reassembly with reassemblyTimer := timer } }, out) := by
  unfold UdpSession.onWait
  by_cases hr : u.reassembly.Rearms frameNo
  · rcases Reassembly.onReassemblyWait_of_rearms hr hs with h | ⟨out, h⟩
    · rw [h]; exact Or.inl rfl
    · rw [h]; exact Or.inr ⟨_, _, rfl⟩
  · rw [Reassembly.onReassemblyWait_of_rests hr]
    exact Or.inr ⟨u.reassembly.reassemblyTimer, _, rfl⟩

theorem Sound.runReceive (h : s.Sound) (i : ℕ) : (s.runReceive E i).1.Sound := by
  unfold NetworkService.runReceive
  split
  · exact h
  · rename_i u hu
    split
    · exact h
    · refine h.setUdp i _ ?_
      rw [UdpSession.onReceive_sendControl]
      exact h.sendControl u (List.mem_of_getElem? hu)

theorem Sound.runWait (h : s.Sound) (i : ℕ) : (s.runWait i).1.Sound := by
  unfold NetworkService.runWait
  split
  · exact h
  · rename_i u hu
    have hsc := h.sendControl u (List.mem_of_getElem? hu)
    split
    · exact h
    · rename_i frameNo _ _
      rcases onWait_cases (u := popWait u) hsc frameNo with hw | ⟨timer, out, hw⟩
      · rw [hw]; exact ⟨h.sendControl, h.closed, h.connect⟩
      · rw [hw]; exact h.setUdp i _ hsc

theorem Sound.runReady (h : s.Sound) (r : ReadyHandler) : (runReady E s r).1.Sound := by
  cases r with
  | task =>
    unfold NetworkService.runReady
    dsimp only
    split
    · exact h
    · rename_i t ts hs
      have hc := h.connect
      rw [hs] at hc
      exact Sound.runTask (s := { s with strand := ts }) ⟨h.sendControl, h.closed, fun r hr =>
        hc r (List.mem_of_mem_tail hr)⟩ t
  | connect =>
    unfold NetworkService.runReady
    dsimp only
    split
    · exact h
    · rename_i ok hok
      unfold onConnect
      split_ifs
      · refine Sound.setTcp (s := { s with connectDone := none, session := true, sessions := _ })
          ⟨h.sendControl, fun _ _ => Or.inl rfl, h.connect⟩ _ (Or.inl rfl)
      · exact ⟨h.sendControl, h.closed, h.connect⟩
  | tcp =>
    unfold NetworkService.runReady
    dsimp only
    split
    · exact h
    · rename_i t ht
      refine h.setTcp _ ((h.closed t ht).imp_right fun hc => ?_)
      by_cases hs : t.strand = []
      · unfold TcpSession.run
        rw [hs]
        exact hc
      · exact (hc.run hs).1
  | receive i => exact h.runReceive i
  | wait i => exact h.runWait i

theorem Sound.step (h : s.Sound) (e : Event) : (step E s e).1.Sound := by
  unfold NetworkService.step
  split_ifs
  · exact h
  cases e with
  | send type body => exact h.post fun r hr => by cases List.mem_singleton.mp hr
  | disconnect => exact h.post fun r hr => by cases List.mem_singleton.mp hr
  | ready r => exact h.runReady r
  | connectEnds ok =>
    unfold act
    dsimp only
    split_ifs
    · exact ⟨h.sendControl, h.closed, h.connect⟩
    · exact h
  | socket e =>
    unfold act
    dsimp only
    split
    · exact h
    · rename_i t ht
      refine h.setTcp _ ((h.closed t ht).imp_right fun hc => ?_)
      rw [hc.step_socket] <;> first | exact hc | (cases e <;> intros <;> exact nofun)
  | datagram i r =>
    change (s.endReceive i r).Sound
    unfold endReceive
    split
    · exact h
    · rename_i u hu
      split_ifs
      · exact h.setUdps i (h.sendControl u (List.mem_of_getElem? hu))
      · exact h
  | expire i =>
    change (s.expireWait i).Sound
    unfold expireWait
    split
    · exact h
    · rename_i u hu
      exact h.setUdps i (h.sendControl u (List.mem_of_getElem? hu))

theorem sound_reach (E : Env σ δ) (connected resolves : Bool) (es : List Event) :
    (reach E connected resolves es).Sound := by
  refine Machine.invariant (NetworkService.step E) Sound (fun _ => True)
    ⟨fun u hu => absurd hu List.not_mem_nil, fun t ht => absurd ht (Option.not_mem_none t),
      fun r => List.not_mem_nil⟩
    (fun s e _ h => h.step e) es fun _ _ => trivial

/-! ## Nothing pending: the handlers run down -/

/-- **Cleared**: what the cleanup leaves when nothing is pending. -/
structure Cleared (s : NetworkService σ δ) : Prop where
  halted : s.halted = false
  session : s.session = false
  processor : s.processor = false
  closed : ∀ t ∈ s.tcp, t.Closed
  connect : ∀ r, Task.connect r ∉ s.strand
  rests : ¬ s.Pending

/-- The handlers that are still to run. -/
def weight (s : NetworkService σ δ) : ℕ :=
  s.strand.length + s.connectDone.toList.length + (s.tcp.elim 0 TcpSession.weight) +
    (s.udps.map UdpSession.weight).sum

theorem sum_map_set_lt {α : Type} (f : α → ℕ) (l : List α) (i : ℕ) (a b : α) (ha : l[i]? = some a)
    (hb : f b < f a) : ((l.set i b).map f).sum < (l.map f).sum := by
  induction l generalizing i with
  | nil => simp at ha
  | cons c l ih =>
    cases i with
    | zero =>
      simp only [List.getElem?_cons_zero, Option.some.injEq] at ha
      subst ha
      simp only [List.set_cons_zero, List.map_cons, List.sum_cons]
      omega
    | succ i =>
      have := ih i (by simpa using ha)
      simp only [List.set_cons_succ, List.map_cons, List.sum_cons]
      omega

theorem Cleared.not_outstanding (h : s.Cleared) : ¬ s.Outstanding := by
  rintro (hc | ⟨t, ht, hr | hw⟩ | ⟨u, hu, hr | hw⟩)
  · exact h.rests (Or.inl hc)
  · exact hr (h.closed t ht).reading
  · exact hw (h.closed t ht).writing
  · exact h.rests (Or.inr (Or.inr (Or.inr ⟨u, hu, Or.inl hr⟩)))
  · exact h.rests (Or.inr (Or.inr (Or.inr ⟨u, hu, Or.inr (Or.inr (Or.inl hw))⟩)))

/-- **A handler of a cleared service** leaves it cleared, makes no session and leaves less to run. -/
def RunsDown (s s' : NetworkService σ δ) : Prop :=
  s'.Cleared ∧ s'.sessions = s.sessions ∧ s'.weight < s.weight

theorem Cleared.not_busy (h : s.Cleared) {u : UdpSession δ} (hu : u ∈ s.udps) : ¬ u.Busy :=
  fun hb => h.rests (Or.inr (Or.inr (Or.inr ⟨u, hu, hb⟩)))

theorem Cleared.pop (h : s.Cleared) {t : Task} {ts : List Task} (hs : s.strand = t :: ts) :
    Cleared ({ s with strand := ts } : NetworkService σ δ) := by
  refine ⟨h.halted, h.session, h.processor, h.closed, fun r hr => h.connect r ?_, ?_⟩
  · rw [hs]
    exact List.mem_cons_of_mem _ hr
  · rintro (hp | hp | ⟨a, ha, hp⟩ | hp)
    · exact h.rests (Or.inl hp)
    · exact h.rests (Or.inr (Or.inl hp))
    · exact h.rests (Or.inr (Or.inr (Or.inl ⟨a, by rw [hs]; exact List.mem_cons_of_mem _ ha, hp⟩)))
    · exact h.rests (Or.inr (Or.inr (Or.inr hp)))

theorem Cleared.task (h : s.Cleared) (hr : s.IsReady .task) :
    s.RunsDown (runReady E s .task).1 := by
  match hs : s.strand with
  | [] => exact absurd hs hr
  | t :: ts =>
    have hrun : runReady E s .task = runTask E { s with strand := ts } t := by
      simp only [runReady, hs]
    have hw : weight ({ s with strand := ts } : NetworkService σ δ) < s.weight := by
      simp only [weight, hs, List.length_cons]
      omega
    have hcl := h.pop hs
    rw [hrun]
    cases t with
    | connect resolves => exact absurd (by rw [hs]; exact List.mem_cons_self) (h.connect resolves)
    | connected | lost =>
      exact ⟨⟨h.halted, h.session, h.processor, h.closed, hcl.connect, hcl.rests⟩, rfl, hw⟩
    | process msg =>
      have hp : process E ({ s with strand := ts } : NetworkService σ δ) msg =
          ({ s with strand := ts }, []) := by
        simp only [process, h.processor]
        rfl
      rw [show runTask E _ (Task.process msg) = process E _ msg from rfl, hp]
      exact ⟨hcl, rfl, hw⟩
    | imageMeta json =>
      exact absurd (Or.inr (Or.inr (Or.inl ⟨_, by rw [hs]; exact List.mem_cons_self, rfl⟩))) h.rests
    | send type body =>
      have hp : sendTask ({ s with strand := ts } : NetworkService σ δ) type body =
          { s with strand := ts } := by
        unfold sendTask
        rw [if_neg]
        rintro ⟨h1, _⟩
        rw [h.session] at h1
        cases h1
      rw [show (runTask E _ (Task.send type body)).1 = sendTask _ type body from rfl, hp]
      exact ⟨hcl, rfl, hw⟩
    | cleanup =>
      have htcp : (cleanup ({ s with strand := ts } : NetworkService σ δ)).tcp = s.tcp := by
        unfold cleanup
        dsimp only
        rw [h.session]
        rfl
      refine ⟨⟨h.halted, rfl, rfl, fun t ht => h.closed t (htcp ▸ ht), hcl.connect, hcl.rests⟩,
        rfl, ?_⟩
      simp only [weight] at hw ⊢
      rw [show (runTask E ({ s with strand := ts } : NetworkService σ δ) .cleanup).1.tcp = s.tcp
        from htcp]
      exact hw

theorem Cleared.connectDone (h : s.Cleared) (hr : s.IsReady .connect) :
    s.RunsDown (runReady E s .connect).1 := by
  match hs : s.connectDone with
  | none => exact absurd hs hr
  | some true => exact absurd (Or.inr (Or.inl hs)) h.rests
  | some false =>
    have hrun : (runReady E s .connect).1 = { s with connectDone := none } := by
      simp only [runReady, hs, onConnect, Bool.false_eq_true, if_false]
    rw [hrun]
    refine ⟨⟨h.halted, h.session, h.processor, h.closed, h.connect, ?_⟩, rfl, ?_⟩
    · rintro (hp | hp | hp)
      · exact h.rests (Or.inl hp)
      · cases hp
      · exact h.rests (Or.inr (Or.inr hp))
    · simp only [weight, hs, Option.toList_none, Option.toList_some, List.length_singleton,
        List.length_nil]
      omega

theorem Cleared.tcp (h : s.Cleared) (hr : s.IsReady .tcp) : s.RunsDown (runReady E s .tcp).1 := by
  obtain ⟨t, ht, hne⟩ := hr
  have ht' : s.tcp = some t := ht
  have hrun : (runReady E s .tcp).1 = s.setTcp (t.run E.ssl) := by simp only [runReady, ht']
  obtain ⟨hcl, hlt⟩ := (h.closed t ht).run (E := E.ssl) hne
  rw [hrun]
  refine ⟨⟨h.halted, h.session, h.processor, ?_, fun r hm => ?_, ?_⟩, rfl, ?_⟩
  · intro t' ht'
    rw [← Option.some.inj ht']
    exact hcl
  · rcases List.mem_append.mp hm with hm | hm
    · exact h.connect r hm
    · exact connect_notMem_tcp _ r hm
  · rintro (hp | hp | ⟨a, ha, hp⟩ | hp)
    · exact h.rests (Or.inl hp)
    · exact h.rests (Or.inr (Or.inl hp))
    · rcases List.mem_append.mp ha with ha | ha
      · exact h.rests (Or.inr (Or.inr (Or.inl ⟨a, ha, hp⟩)))
      · obtain ⟨o, _, rfl⟩ := List.mem_map.mp ha
        cases o <;> cases hp
    · exact h.rests (Or.inr (Or.inr (Or.inr hp)))
  · simp only [weight, setTcp, post, ht', List.length_append, List.length_map, Option.elim_some]
    omega

theorem Cleared.setUdp (h : s.Cleared) {i : ℕ} {u v : UdpSession δ} (hu : s.udps[i]? = some u)
    (hv : ¬ v.Busy) (hw : v.weight < u.weight) : s.RunsDown (s.setUdp i (v, [])).1 := by
  have hpost : (s.setUdp i (v, [])).1 = { s with udps := s.udps.set i v } := by
    simp only [NetworkService.setUdp, post, List.filterMap_nil, List.append_nil]
  rw [hpost]
  refine ⟨⟨h.halted, h.session, h.processor, h.closed, h.connect, ?_⟩, rfl, ?_⟩
  · rintro (hp | hp | hp | ⟨w, hw, hp⟩)
    · exact h.rests (Or.inl hp)
    · exact h.rests (Or.inr (Or.inl hp))
    · exact h.rests (Or.inr (Or.inr (Or.inl hp)))
    · rcases List.mem_or_eq_of_mem_set hw with hw | rfl
      · exact h.not_busy hw hp
      · exact hv hp
  · have := sum_map_set_lt UdpSession.weight s.udps i u v hu hw
    simp only [weight]
    omega

theorem Cleared.receive (h : s.Cleared) {i : ℕ} (hr : s.IsReady (.receive i)) :
    s.RunsDown (runReady E s (.receive i)).1 := by
  obtain ⟨u, hu, hne⟩ := hr
  have hu' : s.udps[i]? = some u := hu
  have hb := h.not_busy (List.mem_of_getElem? hu')
  match hrec : u.received with
  | [] => exact absurd hrec hne
  | some d :: rs =>
    exact absurd (Or.inr (Or.inl ⟨some d, by rw [hrec]; exact List.mem_cons_self, nofun⟩)) hb
  | none :: rs =>
    have hrun : (runReady E s (.receive i)).1 = (s.setUdp i ({ u with received := rs }, [])).1 := by
      simp only [runReady, runReceive, hu', hrec]
      rfl
    rw [hrun]
    refine h.setUdp hu' ?_ ?_
    · rintro (hp | ⟨r, hr, hp⟩ | hp)
      · exact hb (Or.inl hp)
      · exact hb (Or.inr (Or.inl ⟨r, by rw [hrec]; exact List.mem_cons_of_mem _ hr, hp⟩))
      · exact hb (Or.inr (Or.inr hp))
    · simp only [UdpSession.weight, hrec, List.length_cons]
      omega

theorem Cleared.wait (h : s.Cleared) {i : ℕ} (hr : s.IsReady (.wait i)) :
    s.RunsDown (runReady E s (.wait i)).1 := by
  obtain ⟨u, hu, hne⟩ := hr
  have hu' : s.udps[i]? = some u := hu
  have hb := h.not_busy (List.mem_of_getElem? hu')
  match hf : u.reassembly.reassemblyTimer.fired with
  | [] => exact absurd hf hne
  | frameNo :: rest =>
    have hnr : ¬ (popWait u).reassembly.Rearms frameNo := fun hre =>
      hb (Or.inr (Or.inr (Or.inr ⟨frameNo, by rw [hf]; exact List.mem_cons_self, hre⟩)))
    have hwait : (popWait u).onWait frameNo = some (popWait u, []) := by
      rw [UdpSession.onWait, Reassembly.onReassemblyWait_of_rests hnr]
      rfl
    have hrun : (runReady E s (.wait i)).1 = (s.setUdp i (popWait u, [])).1 := by
      simp only [runReady, runWait, hu', hf, hwait]
    have hpop : (popWait u).reassembly.reassemblyTimer.fired = rest := by
      simp only [popWait, Timer.pop, hf, List.tail_cons]
    rw [hrun]
    refine h.setUdp hu' ?_ ?_
    · rintro (hp | hp | hp | ⟨f, hf', hp⟩)
      · exact hb (Or.inl hp)
      · exact hb (Or.inr (Or.inl hp))
      · exact hb (Or.inr (Or.inr (Or.inl hp)))
      · rw [hpop] at hf'
        exact hb (Or.inr (Or.inr (Or.inr ⟨f, by rw [hf]; exact List.mem_cons_of_mem _ hf', hp⟩)))
    · unfold UdpSession.weight
      rw [hpop, hf, List.length_cons]
      exact Nat.lt_succ_self _

theorem Cleared.runReady (h : s.Cleared) {r : ReadyHandler} (hr : s.IsReady r) :
    s.RunsDown (runReady E s r).1 := by
  cases r with
  | task => exact h.task hr
  | connect => exact h.connectDone hr
  | tcp => exact h.tcp hr
  | receive i => exact h.receive hr
  | wait i => exact h.wait hr

theorem Cleared.returns (h : s.Cleared) : Returns E s.sessions s := by
  induction hn : s.weight using Nat.strong_induction_on generalizing s with
  | _ n ih =>
    refine Returns.intro s h.halted rfl (fun r hr => ?_) fun _ => h.not_outstanding
    obtain ⟨hc, hs, hw⟩ := h.runReady (E := E) hr
    have hstep : (NetworkService.step E s (.ready r)).1 = (NetworkService.runReady E s r).1 := by
      rw [NetworkService.step, h.halted]
      rfl
    rw [hstep, ← hs]
    exact ih _ (hn ▸ hw) hc rfl

/-! ## Something pending: `run` does not return as it should -/

theorem Pending.of_udps (h : s.Pending) {s' : NetworkService σ δ}
    (hc : s'.connecting = s.connecting) (hd : s'.connectDone = s.connectDone)
    (ht : ∀ t ∈ s.strand, t ∈ s'.strand)
    (hu : ∀ u ∈ s.udps, u.Busy → ∃ v ∈ s'.udps, v.Busy) : s'.Pending := by
  rcases h with h | h | ⟨t, hm, h⟩ | ⟨u, hm, h⟩
  · exact Or.inl (hc.trans h)
  · exact Or.inr (Or.inl (hd.trans h))
  · exact Or.inr (Or.inr (Or.inl ⟨t, ht t hm, h⟩))
  · exact Or.inr (Or.inr (Or.inr (hu u hm h)))

theorem Pending.setUdp (h : s.Pending) {i : ℕ} {u : UdpSession δ} (hu : s.udps[i]? = some u)
    {r : UdpSession δ × List UdpSession.Output} (hr : u.Busy → r.1.Busy) :
    (s.setUdp i r).1.Pending := by
  obtain ⟨hi, hui⟩ := List.getElem?_eq_some_iff.mp hu
  refine h.of_udps rfl rfl (fun t ht => List.mem_append_left _ ht) fun v hv hb => ?_
  obtain ⟨j, hj, hvj⟩ := List.getElem_of_mem hv
  by_cases hij : i = j
  · subst hij
    rw [← hvj, hui] at hb
    exact ⟨r.1, List.mem_set hi r.1, hr hb⟩
  · refine ⟨v, ?_, hb⟩
    have hg : (s.udps.set i r.1)[j]? = some v := by
      rw [List.getElem?_set_ne hij, ← hvj, List.getElem?_eq_getElem hj]
    exact List.mem_of_getElem? hg

theorem Pending.tail (h : s.Pending) {t : Task} {ts : List Task} (hs : s.strand = t :: ts)
    (ht : t.isImageMeta = false) : Pending ({ s with strand := ts } : NetworkService σ δ) := by
  rcases h with h | h | ⟨a, ha, h⟩ | h
  · exact Or.inl h
  · exact Or.inr (Or.inl h)
  · rw [hs] at ha
    rcases List.mem_cons.mp ha with rfl | ha
    · rw [ht] at h; cases h
    · exact Or.inr (Or.inr (Or.inl ⟨a, ha, h⟩))
  · exact Or.inr (Or.inr (Or.inr h))

theorem sessions_replyPort (s : NetworkService σ δ) (json : Bytes) :
    (s.replyPort json).sessions = s.sessions := by
  unfold replyPort
  split <;> rfl

theorem sessions_onImageMeta (hu : s.udpSession = none) (json : Bytes) :
    (s.onImageMeta E json).1.sessions = s.sessions + 1 := by
  rw [onImageMeta, sessions_replyPort, openUdp, hu]

theorem Pending.task (h : s.Pending) (hu : s.udpSession = none)
    (hh : (runReady E s .task).1.halted = false)
    (hn : (runReady E s .task).1.sessions = s.sessions) :
    (runReady E s .task).1.udpSession = none ∧ (runReady E s .task).1.Pending := by
  match hs : s.strand with
  | [] =>
    rw [show runReady E s .task = (s, []) by simp only [runReady, hs]]
    exact ⟨hu, h⟩
  | t :: ts =>
    rw [show runReady E s .task = runTask E { s with strand := ts } t by
      simp only [runReady, hs]] at hh hn ⊢
    cases t with
    | connect resolves =>
      cases resolves with
      | true => exact ⟨hu, Or.inl rfl⟩
      | false => cases hh
    | connected => exact ⟨hu, h.tail hs rfl⟩
    | lost => exact ⟨hu, h.tail hs rfl⟩
    | process msg =>
      have h0 := h.tail hs rfl
      change (process E _ msg).1.udpSession = none ∧ (process E _ msg).1.Pending
      unfold process
      split
      · exact ⟨hu, h0⟩
      · exact ⟨hu, h0.of_udps rfl rfl (fun t ht => List.mem_append_left _ ht)
          fun u hm hb => ⟨u, hm, hb⟩⟩
      · exact ⟨hu, h0⟩
    | imageMeta json =>
      have h1 := sessions_onImageMeta (E := E) (s := { s with strand := ts }) hu json
      rw [show runTask E _ (Task.imageMeta json) = onImageMeta E _ json from rfl, h1] at hn
      exact absurd hn (Nat.succ_ne_self _)
    | send type body =>
      have h0 := h.tail hs rfl
      change (sendTask _ type body).udpSession = none ∧ (sendTask _ type body).Pending
      unfold sendTask
      split_ifs
      · exact ⟨hu, h0⟩
      · exact ⟨hu, h0⟩
    | cleanup => exact ⟨rfl, h.tail hs rfl⟩

theorem Pending.connectDone (h : s.Pending) (hu : s.udpSession = none)
    (hn : (runReady E s .connect).1.sessions = s.sessions) :
    (runReady E s .connect).1.udpSession = none ∧ (runReady E s .connect).1.Pending := by
  match hs : s.connectDone with
  | none =>
    rw [show runReady E s .connect = (s, []) by simp only [runReady, hs]]
    exact ⟨hu, h⟩
  | some true =>
    have h1 : (runReady E s .connect).1.sessions = s.sessions + 1 := by
      simp only [runReady, hs, onConnect, if_true]
      rfl
    rw [h1] at hn
    exact absurd hn (Nat.succ_ne_self _)
  | some false =>
    have hrun : (runReady E s .connect).1 = { s with connectDone := none } := by
      simp only [runReady, hs, onConnect, Bool.false_eq_true, if_false]
    rw [hrun]
    refine ⟨hu, ?_⟩
    rcases h with h | h | h
    · exact Or.inl h
    · rw [hs] at h; cases h
    · exact Or.inr (Or.inr h)

theorem Pending.tcp (h : s.Pending) (hu : s.udpSession = none) :
    (runReady E s .tcp).1.udpSession = none ∧ (runReady E s .tcp).1.Pending := by
  unfold NetworkService.runReady
  dsimp only
  split
  · exact ⟨hu, h⟩
  · exact ⟨hu, h.of_udps rfl rfl (fun t ht => List.mem_append_left _ ht)
      fun u hm hb => ⟨u, hm, hb⟩⟩

theorem Pending.receive (h : s.Pending) (hu : s.udpSession = none) (i : ℕ) :
    (runReady E s (.receive i)).1.udpSession = none ∧ (runReady E s (.receive i)).1.Pending := by
  change (s.runReceive E i).1.udpSession = none ∧ (s.runReceive E i).1.Pending
  unfold runReceive
  split
  · exact ⟨hu, h⟩
  · rename_i u hi
    split
    · exact ⟨hu, h⟩
    · rename_i r rs hr
      refine ⟨hu, h.setUdp hi fun hb => ?_⟩
      cases r with
      | some d => exact Or.inl (UdpSession.onReceive_receiving E.dtls _ d)
      | none =>
        rcases hb with hb | ⟨r, hm, hb⟩ | hb
        · exact Or.inl hb
        · rw [hr] at hm
          rcases List.mem_cons.mp hm with rfl | hm
          · exact absurd rfl hb
          · exact Or.inr (Or.inl ⟨r, hm, hb⟩)
        · exact Or.inr (Or.inr hb)

/-- The handler of a wait that does not rest arms the timer again. -/
theorem Pending.wait (h : s.Pending) (hs : s.Sound) (hu : s.udpSession = none) (i : ℕ)
    (hh : (runReady E s (.wait i)).1.halted = false) :
    (runReady E s (.wait i)).1.udpSession = none ∧ (runReady E s (.wait i)).1.Pending := by
  change (s.runWait i).1.udpSession = none ∧ (s.runWait i).1.Pending
  change (s.runWait i).1.halted = false at hh
  unfold runWait at hh ⊢
  split
  · exact ⟨hu, h⟩
  · rename_i u hi
    have hsc := hs.sendControl u (List.mem_of_getElem? hi)
    rw [hi] at hh
    dsimp only at hh
    split
    · exact ⟨hu, h⟩
    · rename_i frameNo rest hf
      rw [hf] at hh
      dsimp only at hh
      by_cases hre : (popWait u).reassembly.Rearms frameNo
      · rcases Reassembly.onReassemblyWait_of_rearms hre hsc with hw | ⟨out, hw⟩
        · simp only [UdpSession.onWait, hw, Option.map_none] at hh
          cases hh
        · simp only [UdpSession.onWait, hw, Option.map_some]
          exact ⟨hu, h.setUdp hi fun _ => Or.inr (Or.inr (Or.inl nofun))⟩
      · simp only [UdpSession.onWait, Reassembly.onReassemblyWait_of_rests hre, Option.map_some]
        refine ⟨hu, h.setUdp hi fun hb => ?_⟩
        rcases hb with hb | hb | hb | ⟨f, hm, hb⟩
        · exact Or.inl hb
        · exact Or.inr (Or.inl hb)
        · exact Or.inr (Or.inr (Or.inl hb))
        · rw [hf] at hm
          rcases List.mem_cons.mp hm with rfl | hm
          · exact absurd hb hre
          · refine Or.inr (Or.inr (Or.inr ⟨f, ?_, hb⟩))
            simp only [popWait, Timer.pop, hf, List.tail_cons]
            exact hm

/-- **What is pending stays pending** when a handler runs, unless the service halts or a session is
made. -/
theorem Pending.runReady (h : s.Pending) (hs : s.Sound) (hu : s.udpSession = none)
    (r : ReadyHandler) (hh : (NetworkService.runReady E s r).1.halted = false)
    (hn : (NetworkService.runReady E s r).1.sessions = s.sessions) :
    (NetworkService.runReady E s r).1.udpSession = none ∧
      (NetworkService.runReady E s r).1.Pending := by
  cases r with
  | task => exact h.task hu hh hn
  | connect => exact h.connectDone hu hn
  | tcp => exact h.tcp hu
  | receive i => exact h.receive hu i
  | wait i => exact h.wait hs hu i hh

/-- **A service with something pending does not return as it should.** -/
theorem not_returns_of_pending {n : ℕ} (hr : Returns E n s) (hs : s.Sound)
    (hu : s.udpSession = none) (h : s.Pending) : False := by
  induction hr with
  | intro s halted sessions next drained ih =>
    have hstep (r : ReadyHandler) :
        (NetworkService.step E s (.ready r)).1 = (NetworkService.runReady E s r).1 := by
      rw [NetworkService.step, halted]
      rfl
    by_cases hready : ∃ r, s.IsReady r
    · obtain ⟨r, hready⟩ := hready
      have hnext := next r hready
      rw [hstep] at hnext
      cases hnext with
      | intro _ halted' sessions' _ _ =>
        obtain ⟨hu', h'⟩ := h.runReady hs hu r halted' (sessions'.trans sessions.symm)
        refine ih r hready ?_ ?_ ?_ <;> rw [hstep]
        · exact hs.runReady r
        · exact hu'
        · exact h'
    · rw [not_exists] at hready
      refine drained hready ?_
      rcases h with h | h | ⟨t, ht, _⟩ | ⟨u, hm, h⟩
      · exact Or.inl h
      · exact absurd (show s.IsReady .connect from fun hc => by rw [hc] at h; cases h)
          (hready .connect)
      · exact absurd (show s.IsReady .task from List.ne_nil_of_mem ht) (hready .task)
      · obtain ⟨i, hi⟩ := List.mem_iff_getElem?.mp hm
        rcases h with h | ⟨r, hr, _⟩ | h | ⟨f, hf, _⟩
        · exact Or.inr (Or.inr ⟨u, hm, Or.inl h⟩)
        · exact absurd ⟨u, hi, List.ne_nil_of_mem hr⟩ (hready (.receive i))
        · exact Or.inr (Or.inr ⟨u, hm, Or.inr h⟩)
        · exact absurd ⟨u, hi, List.ne_nil_of_mem hf⟩ (hready (.wait i))

/-! ## The cleanup -/

theorem pending_cleanup {ts : List Task} (hs : s.strand = .cleanup :: ts) :
    (cleanup ({ s with strand := ts } : NetworkService σ δ)).Pending ↔ s.Pending := by
  refine ⟨fun h => ?_, fun h => h.tail hs rfl⟩
  have hm : ∀ t ∈ ts, t ∈ s.strand := fun t ht => by rw [hs]; exact List.mem_cons_of_mem _ ht
  show s.Pending
  exact h.of_udps rfl rfl hm fun u hu hb => ⟨u, hu, hb⟩

theorem step_cleanup {ts : List Task} (hs : s.strand = .cleanup :: ts) (hh : s.halted = false) :
    (NetworkService.step E s (.ready .task)).1 = cleanup { s with strand := ts } := by
  rw [NetworkService.step, hh]
  simp only [Bool.false_eq_true, if_false, act, NetworkService.runReady, hs, NetworkService.runTask,
    cleanup, hh]

theorem Sound.cleared (h : s.Sound) {ts : List Task} (hs : s.strand = .cleanup :: ts)
    (hh : s.halted = false) (hp : ¬ s.Pending) :
    Cleared (cleanup ({ s with strand := ts } : NetworkService σ δ)) where
  halted := hh
  session := rfl
  processor := rfl
  closed := fun t ht => by
    change t ∈ (if s.session then s.tcp.map (·.close) else s.tcp) at ht
    split_ifs at ht with hsess
    · obtain ⟨t', _, rfl⟩ := Option.mem_map.mp ht
      exact TcpSession.closed_close t'
    · exact (h.closed t ht).resolve_left hsess
  connect := fun r hr => h.connect r (by rw [hs]; exact hr)
  rests := fun hc => hp ((pending_cleanup hs).mp hc)

/-- **`disconnect` returns exactly when nothing was pending** as its cleanup came to run. -/
theorem disconnect_returns_iff (E : Env σ δ) (connected resolves : Bool) (es : List Event)
    (hh : (reach E connected resolves es).halted = false)
    (hc : (reach E connected resolves es).strand.head? = some .cleanup) :
    let s := (NetworkService.step E (reach E connected resolves es) (.ready .task)).1
    Returns E s.sessions s ↔ ¬ (reach E connected resolves es).Pending := by
  have hsound := sound_reach E connected resolves es
  obtain ⟨ts, hs⟩ : ∃ ts, (reach E connected resolves es).strand = .cleanup :: ts := by
    match hstrand : (reach E connected resolves es).strand with
    | [] => rw [hstrand] at hc; cases hc
    | t :: ts => rw [hstrand] at hc; exact ⟨ts, by rw [Option.some.inj hc]⟩
  dsimp only
  have hsound' := hsound.step (E := E) (.ready .task)
  rw [step_cleanup hs hh] at hsound' ⊢
  refine ⟨fun hr hp => ?_, fun hp => (hsound.cleared hs hh hp).returns⟩
  exact not_returns_of_pending hr hsound' rfl ((pending_cleanup hs).mpr hp)

/-- A connection on which no image was announced. -/
theorem disconnect_returns_sample :
    let s := (NetworkService.step sampleEnv
      (reach sampleEnv false true (sampleConnected ++ [.disconnect])) (.ready .task)).1
    Returns sampleEnv s.sessions s :=
  (disconnect_returns_iff sampleEnv false true _ (by decide +kernel) (by decide +kernel)).mpr
    (by decide +kernel)

/-- The server announces an image; its UDP session still receives when the cleanup has run. -/
theorem disconnect_returns_fails :
    let s := reach sampleEnv false true (sampleConnected ++
      [.socket (.arrive [0x0a, 2, 0, 0, 0]), .ready .tcp, .socket (.arrive [0x7b, 0x7d]),
        .ready .tcp, .ready .task, .ready .task, .disconnect, .ready .task])
    s.halted = false ∧ s.strand.head? = some .cleanup ∧
      let s' := (NetworkService.step sampleEnv s (.ready .task)).1
      ¬ Returns sampleEnv s'.sessions s' := by
  refine ⟨by decide +kernel, by decide +kernel, fun h => ?_⟩
  refine not_returns_of_pending h ((sound_reach sampleEnv false true _).step _) ?_ ?_
  · decide +kernel
  · decide +kernel

end NetworkService

end Network

end AnoMap
