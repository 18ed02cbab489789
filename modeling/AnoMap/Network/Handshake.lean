import AnoMap.Network.Secrecy

/-!
# The handshake before the messages

`connected_` becomes true when the connection's handshake is done, and `send` asks for it. So a
message never waits on a connection whose handshake is not done, unless `connected_` was left over.

* `Ssl.Stays`: a finished handshake stays finished.
* `Fresh`: there is one attempt to connect at most, and what `connected_` says or is about to say is
  true.
* **`handshake_done`**: from a fresh state every message finds the handshake done.
* **`all_sealed`**: such a run is sealed when its bodies are shorter than 2 GiB.
-/

set_option autoImplicit false

namespace AnoMap

namespace Network

/-- **No renegotiation**: an object whose handshake is finished stays so. -/
structure Ssl.Stays {σ : Type} (E : Ssl σ) : Prop where
  bioWrite : ∀ c b c₁, E.isInitFinished c = true → E.bioWrite c b = some c₁ →
    E.isInitFinished c₁ = true
  read : ∀ c, E.isInitFinished c = true → E.isInitFinished (E.read c).2.1 = true
  write : ∀ c b, E.isInitFinished c = true → E.isInitFinished (E.write c b).2.1 = true

/-! ## The TLS session -/

namespace TlsSession

variable {σ : Type} (E : Ssl σ) {t : TlsSession σ}

/-- The handshake is done. -/
def Done (t : TlsSession σ) : Prop := ∃ c, t.ssl = some c ∧ E.isInitFinished c = true

theorem done_iff : t.Done E ↔ t.isHandshakeDone E = true := by
  unfold Done isHandshakeDone
  cases t.ssl <;> simp

theorem Done.progress (h : t.Done E) : t.progress E = t := by
  obtain ⟨c, hc, hi⟩ := h
  simp only [TlsSession.progress, hc, hi, if_true]

theorem Done.handshake (h : t.Done E) : (t.handshake E).1.Done E := by
  obtain ⟨c, hc, hi⟩ := h
  simp only [TlsSession.handshake, hc, Done.progress E ⟨c, hc, hi⟩]
  exact ⟨c, hc, hi⟩

theorem Done.readLoop (hE : E.Stays) (h : t.Done E) (fuel : ℕ) (plain : Bytes) :
    (t.readLoop E fuel plain).1.Done E := by
  induction fuel generalizing t plain with
  | zero => exact h
  | succ fuel ih =>
    obtain ⟨c, hc, hi⟩ := h
    have hp : (t.produce (E.read c).2.1 (E.read c).2.2).Done E := ⟨_, rfl, hE.read c hi⟩
    simp only [TlsSession.readLoop, hc]
    split
    · exact hp
    · exact ih hp _

theorem Done.readAll (hE : E.Stays) (h : t.Done E) : (t.readAll E).1.Done E := by
  have hc := h
  obtain ⟨c, hc, -⟩ := hc
  simp only [TlsSession.readAll, hc]
  exact h.readLoop E hE _ _

theorem Done.decrypt (hE : E.Stays) (h : t.Done E) (buffer : Bytes) (len : UInt32) :
    (t.decrypt E buffer len).1.Done E := by
  obtain ⟨c, hc, hi⟩ := h
  simp only [TlsSession.decrypt, hc]
  split
  · exact ⟨c, hc, hi⟩
  · next c₁ hw =>
    split_ifs at hw
    · have hd : Done E ({ t with ssl := some c₁ } : TlsSession σ) :=
        ⟨c₁, rfl, hE.bioWrite c buffer c₁ hi hw⟩
      rw [hd.progress]
      split_ifs
      · exact hd.readAll E hE
      · exact hd

theorem Done.encrypt (hE : E.Stays) (h : t.Done E) (buffer : Bytes) (len : UInt32) :
    (t.encrypt E buffer len).1.Done E := by
  obtain ⟨c, hc, hi⟩ := h
  simp only [TlsSession.encrypt, hc]
  split_ifs
  · exact ⟨_, rfl, hE.write c buffer hi⟩
  · exact ⟨_, rfl, hE.write c buffer hi⟩
  · exact ⟨c, hc, hi⟩

end TlsSession

/-! ## The connection -/

namespace TcpSession

variable {σ : Type} (E : Ssl σ) {s : TcpSession σ}

/-- The connection has a TLS session whose handshake is done. -/
def Done (s : TcpSession σ) : Prop := ∃ t, s.tlsSession = some t ∧ t.Done E

theorem done_iff : s.Done E ↔ s.tlsSession.any (·.isHandshakeDone E) = true := by
  unfold Done
  simp only [TlsSession.done_iff]
  cases s.tlsSession <;> simp

variable {E}

theorem Done.of_eq (h : s.Done E) {s₁ : TcpSession σ} (he : s₁.tlsSession = s.tlsSession) :
    s₁.Done E := by
  unfold Done
  rw [he]
  exact h

theorem Done.handleTlsOutput (h : s.Done E) : (s.handleTlsOutput E).Done E := by
  obtain ⟨t, ht, hd⟩ := h
  unfold Done
  simp only [tlsSession_handleTlsOutput, tlsOutput, ht]
  exact ⟨_, rfl, hd.handshake E⟩

theorem Done.sendMessage (hE : E.Stays) (h : s.Done E) (msg : Message) :
    (s.sendMessage E msg).Done E := by
  obtain ⟨t, ht, hd⟩ := h
  obtain ⟨rs, hs⟩ := s.sendMessage_eq E msg
  unfold Done
  rw [hs, tlsSession_asyncWrite]
  change ∃ u, (finalPayload E s.tlsSession msg).1 = some u ∧ u.Done E
  rw [ht]
  unfold finalPayload
  dsimp only
  split_ifs
  · exact ⟨_, rfl, hd.encrypt E hE _ _⟩
  · exact ⟨t, rfl, hd⟩

theorem Done.runHandler (hE : E.Stays) (h : s.Done E) (a : Handler) :
    (runHandler E s a).1.Done E := by
  cases a with
  | sendMessage msg => exact h.sendMessage hE msg
  | writeTls records => exact h.of_eq (tlsSession_asyncWrite _ _)
  | wrote ok =>
    simp only [TcpSession.runHandler, onWritten]
    split_ifs
    · exact h
    · exact h.of_eq tlsSession_handleDisconnect
  | read op data =>
    cases op with
    | header =>
      simp only [TcpSession.runHandler, onHeader]
      split
      · exact h.of_eq tlsSession_handleDisconnect
      · next headerBuffer =>
        have hm : (s.setMessage (headerBuffer.getD 0 0) (lengthOfBytes (headerBuffer.drop 1))
            []).Done E := h
        split_ifs
        · exact h.of_eq (tlsSession_asyncRead (s := s.setMessage _ _ _) _)
        · exact hm.handleTlsOutput.of_eq (tlsSession_asyncRead _)
        · exact hm.of_eq (tlsSession_asyncRead _)
    | body =>
      simp only [TcpSession.runHandler, onBody]
      split
      · exact h.of_eq tlsSession_handleDisconnect
      · next payload =>
        split
        · exact h.of_eq (tlsSession_asyncRead (s := s.setMessage _ _ _) _)
        · next t ht =>
          have hd : (s.decryptBody E t payload).Done E := by
            obtain ⟨u, hu, hud⟩ := h
            rw [ht] at hu
            cases hu
            exact ⟨_, rfl, hud.decrypt E hE _ _⟩
          split_ifs
          · exact hd.handleTlsOutput.of_eq
              ((tlsSession_asyncRead _).trans (tlsSession_completeHandshake E))
          · exact hd.handleTlsOutput.of_eq (tlsSession_asyncRead _)
          · exact h.of_eq (tlsSession_asyncRead (s := s.setMessage _ _ _) _)

theorem tlsSession_endRead (data : Option Bytes) : (s.endRead data).tlsSession = s.tlsSession := by
  unfold endRead
  split
  · rfl
  · split_ifs <;> rfl

theorem tlsSession_step {e : Event} (he : e ≠ .run) :
    (step E s e).1.tlsSession = s.tlsSession := by
  cases e with
  | sendMessage msg | close => rfl
  | run => exact absurd rfl he
  | accept i n =>
    simp only [step, acceptBytes]
    split_ifs <;> rfl
  | writeFails i =>
    simp only [step, failWrite]
    split_ifs <;> rfl
  | arrive bytes => exact tlsSession_endRead _
  | readFails => exact tlsSession_endRead _

theorem Done.step (hE : E.Stays) (h : s.Done E) (e : Event) : (step E s e).1.Done E := by
  by_cases he : e = .run
  · subst he
    simp only [TcpSession.step, run]
    split
    · exact h
    · next a as _ => exact Done.runHandler (s := { s with strand := as }) hE h a
  · exact h.of_eq (tlsSession_step he)

theorem connected_notMem_handleDisconnect : .connected ∉ s.handleDisconnect.2 := by
  intro h
  unfold handleDisconnect at h
  split_ifs at h
  · cases h
  · cases List.mem_singleton.mp h

theorem connected_notMem_dispatch : .connected ∉ s.dispatch.2 := by
  intro h
  unfold dispatch at h
  dsimp only at h
  split_ifs at h
  · cases List.mem_singleton.mp h
  · cases h

theorem done_of_completeHandshake (h : .connected ∈ (s.completeHandshake E).2) :
    (s.completeHandshake E).1.Done E := by
  unfold completeHandshake at h ⊢
  split_ifs at h ⊢ with hc
  · exact (done_iff E (s := s)).mpr hc.1
  · cases h

theorem done_of_onBody {data : Option Bytes} (h : .connected ∈ (s.onBody E data).2) :
    (s.onBody E data).1.Done E := by
  cases data with
  | none => exact absurd h connected_notMem_handleDisconnect
  | some payload =>
    simp only [onBody] at h ⊢
    cases ht : s.tlsSession with
    | none =>
      rw [ht] at h
      exact absurd h connected_notMem_dispatch
    | some t =>
      rw [ht] at h
      dsimp only at h ⊢
      split_ifs at h ⊢
      · exact (done_of_completeHandshake h).of_eq (tlsSession_asyncRead _)
      · exact absurd h connected_notMem_dispatch
      · exact absurd h connected_notMem_dispatch

theorem connected_notMem_onHeader (data : Option Bytes) : .connected ∉ (s.onHeader E data).2 := by
  intro h
  unfold onHeader at h
  split at h
  · exact connected_notMem_handleDisconnect h
  · dsimp only at h
    split_ifs at h
    · cases h
    · cases h
    · cases List.mem_singleton.mp h

/-- **The connected handler** is called only with the handshake done. -/
theorem done_of_connected {e : Event} (h : .connected ∈ (step E s e).2) :
    (step E s e).1.Done E := by
  cases e with
  | sendMessage msg | close | accept i n | writeFails i | arrive bytes | readFails => cases h
  | run =>
    simp only [step, run] at h ⊢
    cases hs : s.strand with
    | nil =>
      rw [hs] at h
      cases h
    | cons a as =>
      rw [hs] at h
      cases a with
      | sendMessage msg | writeTls records => cases h
      | wrote ok =>
        simp only [runHandler, onWritten] at h
        split_ifs at h
        · cases h
        · exact absurd h connected_notMem_handleDisconnect
      | read op data =>
        cases op with
        | header => exact absurd h (connected_notMem_onHeader data)
        | body => exact done_of_onBody h

end TcpSession

/-! ## The service -/

/-- The handler of `connect`. -/
def Task.isConnect : Task → Bool
  | .connect _ => true
  | _ => false

namespace NetworkService

variable {σ δ : Type} (E : Env σ δ)

/-- The attempts to connect: asked for, under way, ended or turned into a connection. -/
def attempts (s : NetworkService σ δ) : ℕ :=
  s.strand.countP Task.isConnect + s.connecting.toNat + s.connectDone.toList.length +
    s.tcp.toList.length

/-- **Fresh.** -/
structure Fresh (s : NetworkService σ δ) : Prop where
  attempts : s.attempts ≤ 1
  up : s.connected = true ∨ Task.connected ∈ s.strand → ∃ t, s.tcp = some t ∧ t.Done E.ssl
  waiting : ∀ t ∈ s.tcp, t.Waiting fun _ => t.Done E.ssl

variable {E} {s : NetworkService σ δ}

theorem Fresh.post (h : s.Fresh E) {ts : List Task} (hc : ∀ t ∈ ts, t.isConnect = false)
    (hu : Task.connected ∈ ts → ∃ t, s.tcp = some t ∧ t.Done E.ssl) : (s.post ts).Fresh E where
  attempts := by
    have := h.attempts
    have h0 : ts.countP Task.isConnect = 0 := List.countP_eq_zero.mpr fun t ht => by simp [hc t ht]
    simp only [NetworkService.attempts, NetworkService.post, List.countP_append, h0] at this ⊢
    exact this
  up := by
    rintro (hs | hs)
    · exact h.up (Or.inl hs)
    · rcases List.mem_append.mp hs with hs | hs
      · exact h.up (Or.inr hs)
      · exact hu hs
  waiting := h.waiting

theorem Fresh.post_send (h : s.Fresh E) (type : UInt8) (body : Bytes) :
    (s.post [.send type body]).Fresh E :=
  h.post (fun t ht => by rw [List.mem_singleton.mp ht]; rfl) fun ht => by
    cases List.mem_singleton.mp ht

theorem Fresh.tail (h : s.Fresh E) {a : Task} {as : List Task} (hs : s.strand = a :: as) :
    Fresh E ({ s with strand := as } : NetworkService σ δ) where
  attempts := by
    have := h.attempts
    rw [NetworkService.attempts, hs, List.countP_cons] at this
    simp only [NetworkService.attempts]
    omega
  up := by
    rintro (hc | hc)
    · exact h.up (Or.inl hc)
    · exact h.up (Or.inr (by rw [hs]; exact List.mem_cons_of_mem a hc))
  waiting := h.waiting

theorem Fresh.udps (h : s.Fresh E) (udps : List (UdpSession δ)) :
    Fresh E ({ s with udps := udps } : NetworkService σ δ) := ⟨h.attempts, h.up, h.waiting⟩

theorem Fresh.setUdp (h : s.Fresh E) (i : ℕ) (r : UdpSession δ × List UdpSession.Output) :
    (s.setUdp i r).1.Fresh E := by
  have ht : ∀ t ∈ r.2.filterMap taskOfUdp, ∃ type body, t = .send type body := by
    intro t ht
    obtain ⟨o, -, ho⟩ := List.mem_filterMap.mp ht
    rcases o with (⟨_, _⟩ | _) | ⟨_, _⟩ <;> cases ho
    exact ⟨_, _, rfl⟩
  refine (h.udps _).post (fun t htm => ?_) fun htm => ?_
  · obtain ⟨type, body, rfl⟩ := ht t htm
    rfl
  · obtain ⟨type, body, hc⟩ := ht _ htm
    cases hc

theorem Fresh.move (hE : E.ssl.Stays) (h : s.Fresh E) {t : TcpSession σ} (ht : s.tcp = some t)
    (ev : TcpSession.Event) (hev : ∀ msg, ev = .sendMessage msg → s.connected = true) :
    Fresh E ({ s with tcp := some (t.step E.ssl ev).1 } : NetworkService σ δ) where
  attempts := by
    have := h.attempts
    simp only [NetworkService.attempts, ht, Option.toList_some, List.length_singleton] at this ⊢
    exact this
  up := fun hc => by
    obtain ⟨t₁, ht₁, hd⟩ := h.up hc
    rw [ht] at ht₁
    cases ht₁
    exact ⟨_, rfl, hd.step hE ev⟩
  waiting := by
    rintro _ ⟨⟩
    refine TcpSession.Waiting.step E.ssl (fun msg hm => (h.waiting t ht msg hm).step hE ev) ?_
    intro msg hmsg
    obtain ⟨t₁, ht₁, hd⟩ := h.up (Or.inl (hev msg hmsg))
    rw [ht] at ht₁
    cases ht₁
    exact hd.step hE ev

theorem Fresh.setTcp (hE : E.ssl.Stays) (h : s.Fresh E) {t : TcpSession σ} (ht : s.tcp = some t)
    (ev : TcpSession.Event) (hev : ∀ msg, ev ≠ .sendMessage msg) :
    (s.setTcp (t.step E.ssl ev)).Fresh E := by
  refine (h.move hE ht ev fun msg hm => absurd hm (hev msg)).post (fun a ha => ?_) fun ha => ?_
  · obtain ⟨o, -, rfl⟩ := List.mem_map.mp ha
    cases o <;> rfl
  · obtain ⟨o, ho, hoc⟩ := List.mem_map.mp ha
    cases o with
    | message msg | disconnected => cases hoc
    | connected => exact ⟨_, rfl, TcpSession.done_of_connected ho⟩

theorem Fresh.onConnect (h : s.Fresh E) (htls : E.newTls.isSome = true) {ok : Bool}
    (hc : s.connectDone = some ok) :
    (NetworkService.onConnect E { s with connectDone := none } ok).Fresh E := by
  have hatt := h.attempts
  simp only [NetworkService.attempts, hc, Option.toList_some, List.length_singleton] at hatt
  have htcp : s.tcp = none := by
    cases ht : s.tcp with
    | none => rfl
    | some t =>
      rw [ht, Option.toList_some, List.length_singleton] at hatt
      omega
  have hdown : ¬ (s.connected = true ∨ Task.connected ∈ s.strand) := fun hu => by
    obtain ⟨t, ht, -⟩ := h.up hu
    rw [htcp] at ht
    cases ht
  unfold NetworkService.onConnect
  split_ifs
  · have hout : ((TcpSession.new E.newTls).start E.ssl).2 = [] := by
      rw [TcpSession.start, if_pos (show (TcpSession.new E.newTls).tlsSession.isSome = true from htls)]
    have hf : Fresh E ({ s with
        connectDone := none
        session := true
        sessions := s.sessions + 1
        tcp := some ((TcpSession.new E.newTls).start E.ssl).1 } : NetworkService σ δ) := by
      refine ⟨?_, fun hu => absurd hu hdown, ?_⟩
      · simp only [NetworkService.attempts, Option.toList_none, Option.toList_some,
          List.length_nil, List.length_singleton]
        omega
      · rintro _ ⟨⟩ msg hm
        exact ((kept_start E.newTls E.ssl).1 msg hm).elim
    rw [NetworkService.setTcp, hout]
    exact hf.post (List.forall_mem_nil _) fun ht => absurd ht List.not_mem_nil
  · refine ⟨?_, h.up, h.waiting⟩
    simp only [NetworkService.attempts, Option.toList_none, List.length_nil]
    omega

theorem Fresh.openUdp (h : s.Fresh E) : (s.openUdp E).Fresh E := by
  unfold NetworkService.openUdp
  split
  · exact h
  · exact ⟨h.attempts, h.up, h.waiting⟩

theorem Fresh.replyPort (h : s.Fresh E) (json : Bytes) : (s.replyPort json).Fresh E := by
  unfold NetworkService.replyPort
  split
  · exact h
  · exact (h.udps _).post_send _ _

theorem Fresh.process (h : s.Fresh E) (msg : Message) : (s.process E msg).1.Fresh E := by
  unfold NetworkService.process
  split
  · exact h
  · exact h.post (fun t ht => by rw [List.mem_singleton.mp ht]; rfl) fun ht => by
      cases List.mem_singleton.mp ht
  · exact h

theorem Fresh.sendTask (hE : E.ssl.Stays) (h : s.Fresh E) (type : UInt8) (body : Bytes) :
    (s.sendTask type body).Fresh E := by
  unfold NetworkService.sendTask
  split_ifs with hc
  · cases ht : s.tcp with
    | none =>
      rw [Option.map_none, ← ht]
      exact h
    | some t => exact h.move hE ht (.sendMessage _) fun _ _ => hc.2
  · exact h

theorem Fresh.cleanup (hE : E.ssl.Stays) (h : s.Fresh E) : s.cleanup.Fresh E := by
  have hclose : Fresh E ({ s with
      tcp := if s.session then s.tcp.map (·.close) else s.tcp } : NetworkService σ δ) := by
    split_ifs
    · cases ht : s.tcp with
      | none =>
        rw [Option.map_none, ← ht]
        exact h
      | some t => exact h.move hE ht .close (by rintro _ ⟨⟩)
    · exact h
  exact ⟨hclose.attempts, fun hu => hclose.up (Or.inr (hu.resolve_left Bool.false_ne_true)),
    hclose.waiting⟩

theorem Fresh.runTask (hE : E.ssl.Stays) (h : s.Fresh E) (t : Task)
    (hcon : t.isConnect = true → s.attempts = 0)
    (hup : t = .connected → ∃ u, s.tcp = some u ∧ u.Done E.ssl) : (runTask E s t).1.Fresh E := by
  cases t with
  | connect resolves =>
    cases resolves
    · exact ⟨h.attempts, h.up, h.waiting⟩
    · refine ⟨?_, h.up, h.waiting⟩
      have := hcon rfl
      simp only [NetworkService.attempts] at this
      simp only [NetworkService.runTask, if_true, NetworkService.attempts, Bool.toNat_true]
      omega
  | connected => exact ⟨h.attempts, fun _ => hup rfl, h.waiting⟩
  | lost => exact ⟨h.attempts, fun hu => h.up (Or.inr (hu.resolve_left Bool.false_ne_true)), h.waiting⟩
  | process msg => exact h.process msg
  | imageMeta json => exact h.openUdp.replyPort json
  | send type body => exact h.sendTask hE type body
  | cleanup => exact h.cleanup hE

theorem Fresh.runReady (hE : E.ssl.Stays) (htls : E.newTls.isSome = true) (h : s.Fresh E)
    (r : ReadyHandler) : (runReady E s r).1.Fresh E := by
  cases r with
  | task =>
    simp only [NetworkService.runReady]
    cases hs : s.strand with
    | nil => exact h
    | cons t ts =>
      refine (h.tail hs).runTask hE t (fun ht => ?_) fun ht => h.up (Or.inr ?_)
      · have := h.attempts
        rw [NetworkService.attempts, hs, List.countP_cons, if_pos ht] at this
        simp only [NetworkService.attempts]
        omega
      · rw [hs, ht]
        exact List.mem_cons_self
  | connect =>
    simp only [NetworkService.runReady]
    cases hc : s.connectDone with
    | none => exact h
    | some ok => exact h.onConnect htls hc
  | tcp =>
    simp only [NetworkService.runReady]
    cases ht : s.tcp with
    | none => exact h
    | some t => exact h.setTcp hE ht .run (by rintro _ ⟨⟩)
  | receive i =>
    change (s.runReceive E i).1.Fresh E
    unfold runReceive
    split
    · exact h
    · split
      · exact h
      · exact h.setUdp _ _
  | wait i =>
    change (s.runWait i).1.Fresh E
    unfold runWait
    split
    · exact h
    · split
      · exact h
      · split
        · exact ⟨h.attempts, h.up, h.waiting⟩
        · exact h.setUdp _ _

theorem Fresh.step (hE : E.ssl.Stays) (htls : E.newTls.isSome = true) (h : s.Fresh E) (e : Event) :
    (step E s e).1.Fresh E := by
  unfold NetworkService.step
  split_ifs
  · exact h
  cases e with
  | send type body => exact h.post_send type body
  | disconnect =>
    exact h.post (fun t ht => by rw [List.mem_singleton.mp ht]; rfl) fun ht => by
      cases List.mem_singleton.mp ht
  | ready r => exact h.runReady hE htls r
  | connectEnds ok =>
    unfold act
    dsimp only
    split_ifs with hc
    · refine ⟨?_, h.up, h.waiting⟩
      have := h.attempts
      have hle := Option.length_toList_le (o := s.connectDone)
      simp only [NetworkService.attempts, hc, Bool.toNat_true] at this
      simp only [NetworkService.attempts, Bool.toNat_false, Option.toList_some,
        List.length_singleton]
      omega
    · exact h
  | socket e =>
    unfold act
    dsimp only
    cases ht : s.tcp with
    | none => exact h
    | some t => exact h.setTcp hE ht _ (by cases e <;> exact fun _ => nofun)
  | datagram i r =>
    change (s.endReceive i r).Fresh E
    unfold endReceive
    split
    · exact h
    · split_ifs
      · exact h.udps _
      · exact h
  | expire i =>
    change (s.expireWait i).Fresh E
    unfold expireWait
    split
    · exact h
    · exact h.udps _

theorem fresh_reach (hE : E.ssl.Stays) (htls : E.newTls.isSome = true) (resolves : Bool)
    (es : List Event) : (reach E false resolves es).Fresh E := by
  refine Machine.invariant (NetworkService.step E) (Fresh E) (fun _ => True) ?_
    (fun s e _ h => h.step hE htls e) es fun _ _ => trivial
  refine ⟨by rfl, ?_, fun t ht => absurd ht (Option.not_mem_none t)⟩
  rintro (hc | hc)
  · cases hc
  · cases List.mem_singleton.mp hc

/-- **The handshake before the messages.** On a connection with TLS, whose `connected_` was not
left over, every message that is sent finds the handshake done. -/
theorem handshake_done (hE : E.ssl.Stays) (htls : E.newTls.isSome = true) (resolves : Bool)
    (es : List Event) {e : Event} {t : TcpSession σ} {msg : Message}
    (hs : (reach E false resolves es).sending e = some (t, msg)) :
    t.tlsSession.any (·.isHandshakeDone E.ssl) = true := by
  obtain ⟨-, -, ht, -, as, has⟩ := sending_eq_some hs
  refine (TcpSession.done_iff E.ssl).mp ((fresh_reach hE htls resolves es).waiting t ht msg ?_)
  rw [has]
  exact List.mem_cons_self

/-- **Such a run is sealed** when the bodies it sends are shorter than 2 GiB. -/
theorem all_sealed (hE : E.ssl.Stays) (hw : E.ssl.Writes) (htls : E.newTls.isSome = true)
    (resolves : Bool) (es : List Event)
    (hlen : ∀ w ∈ sentLog E false resolves es, w.msg.payload.length < 2 ^ 31) :
    AllSealed E false resolves es := by
  intro w hw'
  obtain ⟨pre, e, post, hcut, hmem⟩ := mem_sentLog.mp hw'
  refine (seals_iff hw (kept_reach hw false resolves pre) e).mpr ?_ w hmem
  rintro ⟨t, msg⟩ hs - -
  refine ⟨handshake_done hE htls resolves pre hs, ?_⟩
  exact hlen _ (mem_sentLog.mpr ⟨pre, e, post, hcut, by
    rw [sentBy_of_sending hs]
    exact List.mem_singleton.mpr rfl⟩)

end NetworkService

end Network

end AnoMap
