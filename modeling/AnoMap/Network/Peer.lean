import AnoMap.Lib.Machine
import AnoMap.Network.UdpSession

/-!
# The peer of a UDP session

Where a `UdpSession` sends its handshake responses, while datagrams of any senders, the expirations
of its timer and the calls of its owner reach it in any order.

* `UdpLink`, `react`, `step`: one event. A scan for missing fragments that never returns leaves the
  session hung: nothing reaches it any more.
* `peer`: the endpoint a run binds the session to, in terms of the senders alone.
* `serverEndpoint_eq_peer`: it is the one the session keeps; `peer_append`: a session that is bound
  stays so until its owner sets another endpoint.
* **`replies_to_peer`**: every response to a datagram goes to the peer, whoever sent the datagram.
-/

set_option autoImplicit false

namespace AnoMap

namespace Network

/-- `receive`: the outstanding receive ends and its handler is run. `expire`: the outstanding wait
expires. `wait`: the first ready handler of the timer is run. -/
inductive LinkEvent where
  | setServerEndpoint (ep : Endpoint)
  | setExpectedMeta (meta_ : String)
  | receive (r : Option Datagram)
  | expire
  | wait

/-- A session, and whether a handler of it never returned. -/
structure UdpLink (δ : Type) where
  session : UdpSession δ
  hung : Bool

namespace UdpLink

variable {δ : Type} (D : Dtls δ)

/-- A new session that was started. -/
def init (localPort : UInt16) (dtls : δ) (onComplete : Bool) : UdpLink δ :=
  ⟨(UdpSession.new localPort dtls onComplete).start, false⟩

/-- The handler of a wait armed for `frameNo`, taken off the timer. -/
def runWait (u : UdpSession δ) (frameNo : UInt8) : UdpLink δ × List UdpSession.Output :=
  let u := { u with reassembly := { u.reassembly with
    reassemblyTimer := u.reassembly.reassemblyTimer.pop } }
  match u.onWait frameNo with
  | some r => (⟨r.1, false⟩, r.2)
  | none => (⟨u, true⟩, [])

/-- What an event does to a session that is not hung. -/
def react (u : UdpSession δ) : LinkEvent → UdpLink δ × List UdpSession.Output
  | .setServerEndpoint ep =>
    let r := u.setServerEndpoint D ep
    (⟨r.1, false⟩, r.2)
  | .setExpectedMeta meta_ => (⟨u.setExpectedMeta meta_, false⟩, [])
  | .receive r =>
    if u.receiving then
      let h := { u with receiving := false }.onReceive D r
      (⟨h.1, false⟩, h.2)
    else (⟨u, false⟩, [])
  | .expire =>
    (⟨{ u with reassembly := { u.reassembly with
      reassemblyTimer := u.reassembly.reassemblyTimer.expire } }, false⟩, [])
  | .wait =>
    match u.reassembly.reassemblyTimer.fired with
    | [] => (⟨u, false⟩, [])
    | frameNo :: _ => runWait u frameNo

def step (s : UdpLink δ) (e : LinkEvent) : UdpLink δ × List UdpSession.Output :=
  if s.hung then (s, []) else react D s.session e

/-! ## The peer -/

/-- The endpoints a session may be bound to: the one set last, if any, and the senders of the
datagrams since, those without bytes left out. -/
def candidates (es : List LinkEvent) : List Endpoint :=
  es.foldl (fun cs e =>
    match e with
    | .setServerEndpoint ep => [ep]
    | .receive (some d) => if d.bytes.isEmpty then cs else cs ++ [d.sender]
    | _ => cs) []

/-- The first endpoint with a port, else the last one. -/
def firstWithPort (eps : List Endpoint) : Endpoint :=
  (eps.find? fun ep => ep.port ≠ 0).getD (eps.getLastD ⟨0, 0⟩)

/-- **The peer** after a run. -/
def peer (es : List LinkEvent) : Endpoint := firstWithPort (candidates es)

/-- The claim that a response goes to the sender of the datagram. -/
def RepliesToSender (s : UdpLink δ) (es : List LinkEvent) : Prop :=
  ∀ pre d post, es = pre ++ .receive (some d) :: post → ∀ data ep,
    .sendRaw data ep ∈ ((Machine.final (step D) s pre).step D (.receive (some d))).2 → ep = d.sender

/-- A response goes to the peer, and to the peer of any earlier time since when the session is bound
and no endpoint was set. -/
structure RepliesToPeer (s : UdpLink δ) (es : List LinkEvent) : Prop where
  toPeer : ∀ pre d post, es = pre ++ .receive (some d) :: post → ∀ data ep,
    .sendRaw data ep ∈ ((Machine.final (step D) s pre).step D (.receive (some d))).2 →
      ep = peer (pre ++ [.receive (some d)])
  undiverted : ∀ pre mid d post, es = pre ++ (mid ++ .receive (some d) :: post) →
    (peer pre).port ≠ 0 → (∀ ep, .setServerEndpoint ep ∉ mid) → ∀ data ep,
      .sendRaw data ep ∈ ((Machine.final (step D) s (pre ++ mid)).step D (.receive (some d))).2 →
        ep = peer pre

theorem firstWithPort_concat (eps : List Endpoint) (ep : Endpoint) :
    firstWithPort (eps ++ [ep]) =
      if (firstWithPort eps).port = 0 then ep else firstWithPort eps := by
  unfold firstWithPort
  rw [List.find?_append]
  cases hf : eps.find? fun ep => ep.port ≠ 0 with
  | some e =>
    have hport : e.port ≠ 0 := by simpa using List.find?_some hf
    rw [Option.some_or, Option.getD_some, Option.getD_some, if_neg hport]
  | none =>
    have hzero : (eps.getLastD ⟨0, 0⟩).port = 0 := by
      rw [List.getLastD_eq_getLast?]
      cases hl : eps.getLast? with
      | none => rfl
      | some e => simpa using List.find?_eq_none.mp hf e (List.mem_of_getLast? hl)
    rw [Option.none_or, Option.getD_none, if_pos hzero, List.getLastD_concat]
    rw [List.find?_singleton]
    split_ifs <;> rfl

theorem peer_receive (es : List LinkEvent) {d : Datagram} (h : d.bytes.isEmpty = false) :
    peer (es ++ [.receive (some d)]) = if (peer es).port = 0 then d.sender else peer es := by
  rw [peer, candidates, List.foldl_concat]
  dsimp only
  rw [if_neg (by rw [h]; decide), firstWithPort_concat]
  rfl

theorem peer_concat (es : List LinkEvent) {e : LinkEvent} (h : candidates [e] = []) :
    peer (es ++ [e]) = peer es := by
  rw [peer, candidates, List.foldl_concat]
  cases e with
  | setServerEndpoint ep => cases h
  | receive r =>
    cases r with
    | none => rfl
    | some d =>
      replace h : (if d.bytes.isEmpty then [] else [d.sender]) = [] := h
      dsimp only
      split_ifs at h ⊢
      rfl
  | _ => rfl

theorem peer_receive_empty (es : List LinkEvent) {d : Datagram} (h : d.bytes.isEmpty = true) :
    peer (es ++ [.receive (some d)]) = peer es := peer_concat es (if_pos h)

theorem peer_setServerEndpoint (es : List LinkEvent) (ep : Endpoint) :
    peer (es ++ [.setServerEndpoint ep]) = ep := by
  rw [peer, candidates, List.foldl_concat]
  unfold firstWithPort
  rw [List.find?_singleton]
  split_ifs <;> rfl

/-- **A session that is bound** stays so until its owner sets another endpoint. -/
theorem peer_append {pre : List LinkEvent} (h : (peer pre).port ≠ 0) {mid : List LinkEvent}
    (hmid : ∀ ep, .setServerEndpoint ep ∉ mid) : peer (pre ++ mid) = peer pre := by
  induction mid using List.reverseRecOn with
  | nil => rw [List.append_nil]
  | append_singleton mid e ih =>
    have hrest := ih fun ep hm => hmid ep (List.mem_append_left _ hm)
    rw [← List.append_assoc]
    cases e with
    | setServerEndpoint ep =>
      exact absurd (List.mem_append_right mid (List.mem_singleton.mpr rfl)) (hmid ep)
    | receive r =>
      cases r with
      | none => exact (peer_concat _ rfl).trans hrest
      | some d =>
        cases hd : d.bytes.isEmpty with
        | true => exact (peer_receive_empty _ hd).trans hrest
        | false => rw [peer_receive _ hd, hrest, if_neg h]
    | _ => exact (peer_concat _ rfl).trans hrest

/-! ## The endpoint the session keeps -/

variable {D}

theorem handlePacket_serverEndpoint (u : UdpSession δ) (bytes : Bytes) :
    (u.handlePacket D bytes).1.serverEndpoint = u.serverEndpoint ∧
      ∀ data ep, .sendRaw data ep ∈ (u.handlePacket D bytes).2 → ep = u.serverEndpoint := by
  have hreply : ∀ incoming wrap data ep,
      .sendRaw data ep ∈ (u.handshake D incoming wrap).2 → ep = u.serverEndpoint := by
    intro incoming wrap data ep hm
    unfold UdpSession.handshake at hm
    dsimp only at hm
    split_ifs at hm
    · cases hm
    · cases List.mem_singleton.mp hm
      rfl
  unfold UdpSession.handlePacket
  dsimp only
  split_ifs
  · exact ⟨rfl, hreply _ _⟩
  · exact ⟨rfl, fun _ _ hm => nomatch hm⟩
  · exact ⟨rfl, hreply _ _⟩
  · exact ⟨rfl, fun _ _ hm => nomatch hm⟩
  · refine ⟨rfl, fun data ep hm => ?_⟩
    obtain ⟨o, -, ho⟩ := List.mem_map.mp hm
    cases ho
  · exact ⟨rfl, fun _ _ hm => nomatch hm⟩
  · exact ⟨rfl, fun _ _ hm => nomatch hm⟩

/-- **A handled datagram** with bytes: the session has an endpoint from then on, and responses go
there. -/
theorem onReceive_serverEndpoint (u : UdpSession δ) {d : Datagram}
    (h : d.bytes.isEmpty = false) :
    (u.onReceive D (some d)).1.serverEndpoint =
        (if u.serverEndpoint.port = 0 then d.sender else u.serverEndpoint) ∧
      ∀ data ep, .sendRaw data ep ∈ (u.onReceive D (some d)).2 →
        ep = (u.onReceive D (some d)).1.serverEndpoint := by
  have hlearn : (u.learnEndpoint d.sender).serverEndpoint =
      if u.serverEndpoint.port = 0 then d.sender else u.serverEndpoint := by
    unfold UdpSession.learnEndpoint
    split_ifs <;> rfl
  obtain ⟨hkept, hreply⟩ :=
    handlePacket_serverEndpoint (D := D) (u.learnEndpoint d.sender) d.bytes
  unfold UdpSession.onReceive
  dsimp only
  rw [if_neg (by rw [h]; decide)]
  exact ⟨hkept.trans hlearn, fun data ep hm => (hreply data ep hm).trans hkept.symm⟩

theorem onReceive_of_isEmpty (u : UdpSession δ) {d : Datagram} (h : d.bytes.isEmpty = true) :
    u.onReceive D (some d) = (u.doReceive, []) := by
  unfold UdpSession.onReceive
  dsimp only
  rw [if_pos h]

theorem onWait_serverEndpoint {u : UdpSession δ} {frameNo : UInt8}
    {r : UdpSession δ × List UdpSession.Output} (h : u.onWait frameNo = some r) :
    r.1.serverEndpoint = u.serverEndpoint ∧ r.1.receiving = u.receiving := by
  obtain ⟨r', -, rfl⟩ := Option.map_eq_some_iff.mp h
  exact ⟨rfl, rfl⟩

/-- While the session reads datagrams, its endpoint is the peer. -/
def Bound (es : List LinkEvent) (s : UdpLink δ) : Prop :=
  s.hung = false → s.session.receiving = true → s.session.serverEndpoint = peer es

variable {s : UdpLink δ} {es : List LinkEvent}

theorem step_of_hung (h : s.hung = true) (e : LinkEvent) : s.step D e = (s, []) := if_pos h

theorem step_of_running (h : s.hung = false) (e : LinkEvent) : s.step D e = react D s.session e :=
  if_neg (by rw [h]; decide)

/-- What leaves the endpoint and the receive alone is no event for the peer. -/
theorem Bound.of_eq (h : Bound es s) (hh : s.hung = false) {s' : UdpLink δ} {e : LinkEvent}
    (hep : s'.session.serverEndpoint = s.session.serverEndpoint)
    (hr : s'.session.receiving = s.session.receiving) (he : candidates [e] = []) :
    Bound (es ++ [e]) s' := fun _ hr' => by
  rw [hep, peer_concat es he]
  exact h hh (hr ▸ hr')

theorem Bound.receive (h : Bound es s) (hh : s.hung = false) (d : Datagram) :
    Bound (es ++ [.receive (some d)]) (react D s.session (.receive (some d))).1 ∧
      ∀ data ep, .sendRaw data ep ∈ (react D s.session (.receive (some d))).2 →
        ep = peer (es ++ [.receive (some d)]) := by
  unfold react
  cases hr : s.session.receiving with
  | false => exact ⟨fun _ hr' => absurd (hr.symm.trans hr') (by decide), fun _ _ hm => nomatch hm⟩
  | true =>
    have hpeer := h hh hr
    cases hd : d.bytes.isEmpty with
    | true =>
      simp only [if_pos, onReceive_of_isEmpty _ hd]
      exact ⟨fun _ _ => hpeer.trans (peer_receive_empty es hd).symm, fun _ _ hm => nomatch hm⟩
    | false =>
      obtain ⟨hep, hreply⟩ := onReceive_serverEndpoint (D := D)
        { s.session with receiving := false } hd
      have hnew : ({ s.session with receiving := false }.onReceive D (some d)).1.serverEndpoint =
          peer (es ++ [.receive (some d)]) := by
        rw [hep, peer_receive es hd, ← hpeer]
      exact ⟨fun _ _ => hnew, fun data ep hm => (hreply data ep hm).trans hnew⟩

theorem Bound.step (h : Bound es s) (e : LinkEvent) : Bound (es ++ [e]) (s.step D e).1 := by
  cases hh : s.hung with
  | true =>
    rw [step_of_hung hh]
    exact fun hh' => absurd (hh.symm.trans hh') (by decide)
  | false =>
    rw [step_of_running hh]
    cases e with
    | receive r =>
      cases r with
      | none =>
        unfold react
        cases hr : s.session.receiving with
        | false => exact fun _ hr' => absurd (hr.symm.trans hr') (by decide)
        | true => exact fun _ hr' => nomatch hr'
      | some d => exact (h.receive hh d).1
    | setServerEndpoint ep => exact fun _ _ => (peer_setServerEndpoint es ep).symm
    | setExpectedMeta meta_ => exact h.of_eq hh rfl rfl rfl
    | expire => exact h.of_eq hh rfl rfl rfl
    | wait =>
      unfold react
      dsimp only
      split
      · exact h.of_eq hh rfl rfl rfl
      · unfold runWait
        dsimp only
        split
        · next r hw =>
          obtain ⟨hep, hr⟩ := onWait_serverEndpoint hw
          exact h.of_eq hh hep hr rfl
        · exact fun hh' => nomatch hh'

/-- **The endpoint a session keeps** is the peer of its run. -/
theorem serverEndpoint_eq_peer (D : Dtls δ) (localPort : UInt16) (dtls : δ) (onComplete : Bool)
    (es : List LinkEvent) :
    Bound es (Machine.final (step D) (init localPort dtls onComplete) es) :=
  Machine.history (step D) Bound (fun _ _ => rfl) (fun _ _ e h => h.step e) es

/-! ## The theorem -/

/-- **Responses go to the peer** that a session is bound to, whoever sent the datagram, and the
datagrams of others do not divert it. -/
theorem replies_to_peer (D : Dtls δ) (localPort : UInt16) (dtls : δ) (onComplete : Bool)
    (es : List LinkEvent) : RepliesToPeer D (init localPort dtls onComplete) es := by
  have hsent : ∀ pre d data ep, .sendRaw data ep ∈
      ((Machine.final (step D) (init localPort dtls onComplete) pre).step D
        (.receive (some d))).2 → ep = peer (pre ++ [.receive (some d)]) := by
    intro pre d data ep hm
    have hbound := serverEndpoint_eq_peer D localPort dtls onComplete pre
    cases hh : (Machine.final (step D) (init localPort dtls onComplete) pre).hung with
    | true =>
      rw [step_of_hung hh] at hm
      cases hm
    | false =>
      rw [step_of_running hh] at hm
      exact (hbound.receive hh d).2 data ep hm
  refine ⟨fun pre d post _ => hsent pre d, fun pre mid d post _ hport hmid data ep hm => ?_⟩
  rw [hsent (pre ++ mid) d data ep hm, List.append_assoc]
  refine peer_append hport fun ep' hset => ?_
  rcases List.mem_append.mp hset with hset | hset
  · exact hmid ep' hset
  · cases List.mem_singleton.mp hset

/-- A client that sends its first flight when it is first asked. -/
def sampleDtls : Dtls Bool where
  isHandshakeDone _ := false
  handshake started _ := (true, if started then [] else [22, 254, 253, 1])
  decrypt started _ := (started, [])

/-- **A stray datagram first**: the response to the server's goes to the stray host. -/
theorem replies_to_sender_fails :
    ¬ RepliesToSender sampleDtls (init 50000 false true)
      [.receive (some ⟨⟨0x0a000009, 4000⟩, [0xff]⟩),
        .receive (some ⟨⟨0x0a000001, 20000⟩, [0x0b, 22, 254, 253]⟩)] := by
  intro h
  have hreply := h [.receive (some ⟨⟨0x0a000009, 4000⟩, [0xff]⟩)] _ [] rfl [22, 254, 253, 1]
    ⟨0x0a000009, 4000⟩ (by decide +kernel)
  exact absurd hreply (by decide)

end UdpLink

end Network

end AnoMap
