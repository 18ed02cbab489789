import AnoMap.Network.TcpSession

/-!
# TLS records on the TCP stream

`handleTlsOutput` takes its records out of the engine at once and posts the write, `sendMessage`
does both in one handler. A message that already waits on the strand is therefore encrypted later
and written earlier than the output found in front of it.

* `DrainsClear`: on an open socket, a handler that finds engine output after the handshake finds no
  message waiting on the strand.
* `Live`: the records produced are those handed out, those in posted writes and those in the write
  BIO, in this order; no posted write stands behind a read's handler or, once the handshake is done,
  behind a message.
* `Calm`: the state in which a read's handler runs: no read is left, and no write is posted.
* **`records_in_order`**: a run whose drains are clear hands out the records as they were produced.
-/

set_option autoImplicit false

namespace AnoMap

namespace Network

/-- The records a posted handler hands to the socket without asking the engine. -/
def Handler.records : Handler → List Record
  | .writeTls records => records
  | _ => []

/-- A message that `sendMessage` would encrypt. -/
def Handler.encrypts : Handler → Bool
  | .sendMessage msg => 0 < msg.length
  | _ => false

def Handler.isRead : Handler → Bool
  | .read _ _ => true
  | _ => false

namespace TcpSession

variable {σ : Type} (E : Ssl σ)

/-- **Engine order**: the records handed to the socket are the first ones produced. -/
def InEngineOrder (s : TcpSession σ) : Prop :=
  s.handed.map Record.num = List.range s.handed.length

instance (s : TcpSession σ) : Decidable s.InEngineOrder := inferInstanceAs (Decidable (_ = _))

/-- The next handler finds engine output, and the handshake is done. -/
def Drains (s : TcpSession σ) (h : Handler) : Bool :=
  !(recordBytes (s.drained E h).2).isEmpty && (s.drained E h).1.any (·.isHandshakeDone E)

/-- On an open socket the next handler drains the engine only when no message waits. -/
def DrainsClear (s : TcpSession σ) (e : Event) : Prop :=
  e = .run → s.socket.isOpen = true →
    ∀ h ∈ s.strand.head?, s.Drains E h = true → ∀ h' ∈ s.strand, h'.encrypts = false

instance (s : TcpSession σ) (e : Event) : Decidable (s.DrainsClear E e) :=
  inferInstanceAs (Decidable (_ → _ → ∀ _ ∈ _, _ = _ → ∀ _ ∈ _, _ = _))

/-- The records of the posted writes. -/
def posted (strand : List Handler) : List Record := strand.flatMap Handler.records

/-- `h'` may stand behind `h` on the strand. -/
def Behind (done : Bool) (h h' : Handler) : Prop :=
  h.isRead = true ∨ (done = true ∧ h.encrypts = true) → h'.records = []

/-- The number of reads under way: outstanding, or with their handler on the strand. -/
def reads (s : TcpSession σ) : ℕ := s.strand.countP Handler.isRead + s.reading.toList.length

/-- **The invariant** of an open session with at most `k` reads under way. -/
structure Live (k : ℕ) (s : TcpSession σ) (t : TlsSession σ) : Prop where
  tls : s.tlsSession = some t
  numbered : t.Numbered (s.handed ++ posted s.strand)
  order : s.strand.Pairwise (Behind (t.isHandshakeDone E))
  reads : s.reads ≤ k

structure Ordered (k : ℕ) (s : TcpSession σ) : Prop where
  handed : s.InEngineOrder
  live : s.socket.isOpen = true → ∃ t, Live E k s t

/-- **Calm.** An open session has no read under way and no write posted. -/
structure Calm (s : TcpSession σ) : Prop where
  handed : s.InEngineOrder
  live : s.socket.isOpen = true → ∃ t, s.tlsSession = some t ∧ t.Numbered s.handed ∧ s.reads = 0 ∧
    ∀ h ∈ s.strand, h.records = []

/-! ## The strand -/

theorem posted_append (l l' : List Handler) : posted (l ++ l') = posted l ++ posted l' :=
  List.flatMap_append

theorem posted_eq_nil {l : List Handler} (h : ∀ a ∈ l, a.records = []) : posted l = [] :=
  List.flatMap_eq_nil_iff.mpr h

theorem pairwise_behind {l : List Handler} (h : ∀ a ∈ l, a.records = []) (done : Bool) :
    l.Pairwise (Behind done) :=
  List.pairwise_of_forall_mem_list fun _ _ b hb _ => h b hb

theorem pairwise_behind_append {done : Bool} {l : List Handler} {a : Handler}
    (h : l.Pairwise (Behind done)) (ha : ∀ b ∈ l, Behind done b a) :
    (l ++ [a]).Pairwise (Behind done) :=
  List.pairwise_append.mpr ⟨h, List.pairwise_singleton _ _, fun b hb c hc => by
    rw [List.mem_singleton.mp hc]; exact ha b hb⟩

/-- Records that come first in the order of production are in order. -/
theorem inEngineOrder_of_numbered {t : TlsSession σ} {s : TcpSession σ} {l : List Record}
    (h : t.Numbered (s.handed ++ l)) : s.InEngineOrder := by
  have hl := congrArg List.length h
  have ht := congrArg (List.take s.handed.length) h
  rw [List.length_map, List.length_append, List.length_append, List.length_range] at hl
  rw [List.append_assoc, List.map_append, ← List.length_map (f := Record.num), List.take_left,
    List.length_map, List.take_range] at ht
  rw [InEngineOrder, ht]
  congr 1
  omega

theorem recordBytes_eq_nil {rs : List Record} (h : (recordBytes rs).isEmpty = true) : rs = [] := by
  cases rs with
  | nil => rfl
  | cons r rs => cases h

/-! ## What keeps the order -/

variable {E} {k : ℕ} {s : TcpSession σ}

theorem Ordered.mono (h : Ordered E 0 s) : Ordered E k s where
  handed := h.handed
  live := fun ho => by
    obtain ⟨t, ht⟩ := h.live ho
    exact ⟨t, ht.tls, ht.numbered, ht.order, Nat.le_trans ht.reads (Nat.zero_le _)⟩

theorem Calm.ordered (h : Calm s) : Ordered E 0 s where
  handed := h.handed
  live := fun ho => by
    obtain ⟨t, ht, hn, hr, hq⟩ := h.live ho
    refine ⟨t, ht, ?_, pairwise_behind hq _, Nat.le_of_eq hr⟩
    rw [posted_eq_nil hq, List.append_nil]
    exact hn

theorem Ordered.post (h : Ordered E k s) {a : Handler} (ha : a.records = [])
    (hr : a.isRead = false) : Ordered E k (s.post a) where
  handed := h.handed
  live := fun ho => by
    obtain ⟨t, ht⟩ := h.live ho
    refine ⟨t, ht.tls, ?_, pairwise_behind_append ht.order fun _ _ _ => ha, ?_⟩
    · change t.Numbered (s.handed ++ posted (s.strand ++ [a]))
      rw [posted_append, posted_eq_nil (l := [a]) fun b hb => by rwa [List.mem_singleton.mp hb],
        List.append_nil]
      exact ht.numbered
    · have h1 := ht.reads
      unfold reads at h1 ⊢
      simp only [TcpSession.post, List.countP_append, List.countP_singleton, hr]
      exact h1

theorem Ordered.of_closed (h : s.InEngineOrder) (hc : s.socket.isOpen = false) : Ordered E k s :=
  ⟨h, fun ho => by rw [hc] at ho; cases ho⟩

theorem Ordered.close (h : Ordered E k s) : Ordered E 1 s.close := Ordered.of_closed h.handed rfl

theorem Ordered.handleDisconnect (h : Ordered E 1 s) : Ordered E 1 s.handleDisconnect.1 := by
  unfold TcpSession.handleDisconnect
  split_ifs
  · exact h
  · exact Ordered.of_closed h.handed rfl

theorem Ordered.asyncRead (h : Ordered E 0 s) (op : ReadOp) : Ordered E 1 (s.asyncRead op) := by
  unfold TcpSession.asyncRead
  split_ifs with ho
  · refine ⟨h.handed, fun _ => ?_⟩
    obtain ⟨t, ht⟩ := h.live ho
    have h0 := ht.reads
    unfold reads at h0
    refine ⟨t, ht.tls, ht.numbered, ht.order, ?_⟩
    simp only [reads, Option.toList_some, List.length_singleton]
    omega
  · exact Ordered.of_closed h.handed (Bool.eq_false_iff.mpr ho)

theorem Calm.setMessage (h : Calm s) (type : UInt8) (length : UInt32) (payload : Bytes) :
    Calm (s.setMessage type length payload) := ⟨h.handed, h.live⟩

/-- The records of a handler that finds the engine's output are the next ones. -/
theorem Calm.handleTlsOutput (h : Calm s)
    (hc : s.socket.isOpen = true → (recordBytes (s.tlsOutput E).2).isEmpty = false →
      (s.tlsOutput E).1.any (·.isHandshakeDone E) = true → ∀ a ∈ s.strand, a.encrypts = false) :
    Ordered E 0 (s.handleTlsOutput E) := by
  have hd : (s.handleTlsOutput E).handed = s.handed := by
    unfold TcpSession.handleTlsOutput; dsimp only; split_ifs <;> rfl
  have hk : (s.handleTlsOutput E).socket = s.socket := by
    unfold TcpSession.handleTlsOutput; dsimp only; split_ifs <;> rfl
  refine ⟨by rw [InEngineOrder, hd]; exact h.handed, fun ho => ?_⟩
  rw [hk] at ho
  obtain ⟨t, ht, hn, hr, hq⟩ := h.live ho
  have hout : s.tlsOutput E = (some (t.handshake E).1, (t.handshake E).2) := by
    unfold tlsOutput; rw [ht]
  have hn' := hn.handshake E
  have hc' := hc ho
  rw [hout] at hc'
  unfold TcpSession.handleTlsOutput
  rw [hout]
  dsimp only
  split_ifs with he
  · refine ⟨(t.handshake E).1, rfl, ?_, pairwise_behind hq _, Nat.le_of_eq hr⟩
    change (t.handshake E).1.Numbered (s.handed ++ posted s.strand)
    rw [recordBytes_eq_nil he] at hn'
    rw [posted_eq_nil hq]
    exact hn'
  · refine ⟨(t.handshake E).1, rfl, ?_, ?_, ?_⟩
    · change (t.handshake E).1.Numbered (s.handed ++ posted (s.strand ++ [_]))
      rw [posted_append, posted_eq_nil hq, List.nil_append]
      simpa [posted, Handler.records] using hn'
    · refine pairwise_behind_append (pairwise_behind hq _) fun b hb hblocks => ?_
      rcases hblocks with hread | ⟨hdone, henc⟩
      · -- no read is on the strand of a calm session
        have h0 : s.strand.countP Handler.isRead = 0 := by unfold reads at hr; omega
        exact absurd hread (List.countP_eq_zero.mp h0 b hb)
      · rw [hc' (Bool.eq_false_iff.mpr he) hdone b hb] at henc
        cases henc
    · unfold reads at hr ⊢
      simp only [TcpSession.post, TcpSession.setTls, List.countP_append, List.countP_singleton,
        Handler.isRead]
      exact Nat.le_of_eq hr

theorem Calm.decryptBody (h : Calm s) {t : TlsSession σ} (ht : s.tlsSession = some t)
    (payload : Bytes) : Calm (s.decryptBody E t payload) where
  handed := h.handed
  live := fun ho => by
    obtain ⟨t', ht', hn, hr, hq⟩ := h.live ho
    obtain rfl : t = t' := Option.some.inj (ht.symm.trans ht')
    exact ⟨_, rfl, hn.decrypt E _ _, hr, hq⟩

theorem Ordered.completeHandshake (h : Ordered E k s) : Ordered E k (s.completeHandshake E).1 := by
  unfold TcpSession.completeHandshake
  split_ifs
  · refine ⟨h.handed, fun ho => ?_⟩
    obtain ⟨t, ht⟩ := h.live ho
    exact ⟨t, ht.tls, ht.numbered, ht.order, ht.reads⟩
  · exact h

theorem Calm.onHeader (h : Calm s) (data : Option Bytes)
    (hc : s.socket.isOpen = true → s.Drains E (.read .header data) = true →
      ∀ a ∈ s.strand, a.encrypts = false) : Ordered E 1 (s.onHeader E data).1 := by
  unfold TcpSession.onHeader
  split
  · exact h.ordered.mono.handleDisconnect
  · dsimp only
    split_ifs with hl ht
    · exact (h.setMessage _ _ _).ordered.asyncRead _
    · apply Ordered.asyncRead
      apply (h.setMessage _ _ _).handleTlsOutput
      intro ho hr hdone
      apply hc ho
      rw [Drains, drained, if_neg hl, if_pos ht.2, Bool.and_eq_true, Bool.not_eq_true']
      exact ⟨hr, hdone⟩
    · exact (h.setMessage _ _ _).ordered.asyncRead _

theorem Calm.onBody (h : Calm s) (data : Option Bytes)
    (hc : s.socket.isOpen = true → s.Drains E (.read .body data) = true →
      ∀ a ∈ s.strand, a.encrypts = false) : Ordered E 1 (s.onBody E data).1 := by
  unfold TcpSession.onBody
  split
  · exact h.ordered.mono.handleDisconnect
  · rename_i payload
    dsimp only
    split
    · exact (h.setMessage _ _ _).ordered.asyncRead _
    · rename_i t ht
      by_cases hl : 0 < s.currentMessage.length
      · have h1 : Ordered E 0 ((s.decryptBody E t payload).handleTlsOutput E) := by
          refine (h.decryptBody ht payload).handleTlsOutput fun ho hr hdone => hc ho ?_
          simp only [Drains, drained, ht, if_pos hl, Bool.and_eq_true, Bool.not_eq_true']
          exact ⟨hr, hdone⟩
        rw [if_pos hl]
        split_ifs
        · exact h1.completeHandshake.asyncRead _
        · exact h1.asyncRead _
      · rw [if_neg hl]
        exact (h.setMessage _ _ _).ordered.asyncRead _

theorem encrypt_of_not_done {t : TlsSession σ} (h : t.isHandshakeDone E = false) (b : Bytes)
    (len : UInt32) : t.encrypt E b len = (t, []) := by
  unfold TlsSession.encrypt
  split
  · rfl
  · rename_i c hc
    have hf : E.isInitFinished c = false := by
      rw [TlsSession.isHandshakeDone, hc] at h
      exact h
    rw [hf]
    rfl

theorem Ordered.asyncWrite (hh : s.InEngineOrder) (buf : Bytes) (rs : List Record)
    (h : s.socket.isOpen = true → ∃ t, s.tlsSession = some t ∧
      t.Numbered (s.handed ++ rs ++ posted s.strand) ∧
      s.strand.Pairwise (Behind (t.isHandshakeDone E)) ∧ s.reads ≤ k) :
    Ordered E k (s.asyncWrite buf rs) := by
  unfold TcpSession.asyncWrite
  split_ifs with ho
  · obtain ⟨t, ht, hn, hp, hr⟩ := h ho
    refine ⟨?_, fun _ => ⟨t, ht, hn, hp, hr⟩⟩
    exact inEngineOrder_of_numbered
      (s := { s with socket := s.socket.start buf, handed := s.handed ++ rs }) hn
  · exact Ordered.of_closed hh (Bool.eq_false_iff.mpr ho)

section Tail

variable {a : Handler} {as : List Handler}

theorem reads_tail (hs : s.strand = a :: as) :
    ({ s with strand := as } : TcpSession σ).reads + (if a.isRead then 1 else 0) = s.reads := by
  unfold reads
  rw [hs, List.countP_cons]
  dsimp only
  omega

theorem Ordered.tail (h : Ordered E 1 s) (hs : s.strand = a :: as) (ha : a.records = []) :
    Ordered E 1 { s with strand := as } where
  handed := h.handed
  live := fun ho => by
    obtain ⟨t, ht⟩ := h.live ho
    refine ⟨t, ht.tls, ?_, ?_, ?_⟩
    · have hn := ht.numbered
      rw [hs, posted, List.flatMap_cons, ha, List.nil_append] at hn
      exact hn
    · have ho := ht.order
      rw [hs] at ho
      exact ho.of_cons
    · have h1 := ht.reads
      have h2 := reads_tail hs
      omega

theorem Ordered.calm_tail (h : Ordered E 1 s) (hs : s.strand = a :: as) (ha : a.isRead = true) :
    Calm ({ s with strand := as } : TcpSession σ) where
  handed := h.handed
  live := fun ho => by
    obtain ⟨t, ht⟩ := h.live ho
    have hord := ht.order
    have hn := ht.numbered
    rw [hs] at hord hn
    have hq : ∀ b ∈ as, b.records = [] := fun b hb => List.rel_of_pairwise_cons hord hb (Or.inl ha)
    have harec : a.records = [] := by cases a <;> first | rfl | cases ha
    refine ⟨t, ht.tls, ?_, ?_, hq⟩
    · rw [posted, List.flatMap_cons, harec, List.nil_append] at hn
      rw [show as.flatMap Handler.records = [] from posted_eq_nil hq, List.append_nil] at hn
      exact hn
    · have h1 := ht.reads
      have h2 := reads_tail hs
      rw [if_pos ha] at h2
      omega

theorem Ordered.run_writeTls (h : Ordered E 1 s) {rs : List Record}
    (hs : s.strand = .writeTls rs :: as) :
    Ordered E 1 (({ s with strand := as } : TcpSession σ).writeTls rs) := by
  refine Ordered.asyncWrite (s := { s with strand := as }) h.handed _ _ fun ho => ?_
  obtain ⟨t, ht⟩ := h.live ho
  have hn := ht.numbered
  have hord := ht.order
  have h1 := ht.reads
  have h2 := reads_tail hs
  rw [hs] at hn hord
  refine ⟨t, ht.tls, ?_, hord.of_cons, by omega⟩
  rw [posted, List.flatMap_cons, ← List.append_assoc] at hn
  exact hn

/-- **A message is encrypted in front of the posted writes only before the handshake is done**, and
then to nothing. -/
theorem Ordered.run_sendMessage (h : Ordered E 1 s) {msg : Message}
    (hs : s.strand = .sendMessage msg :: as) :
    Ordered E 1 (({ s with strand := as } : TcpSession σ).sendMessage E msg) := by
  have htail := h.tail hs rfl
  have hplain (buf : Bytes) :
      Ordered E 1 (({ s with strand := as } : TcpSession σ).asyncWrite buf []) := by
    refine Ordered.asyncWrite (s := { s with strand := as }) h.handed _ _ fun ho => ?_
    obtain ⟨t, ht⟩ := htail.live ho
    refine ⟨t, ht.tls, ?_, ht.order, ht.reads⟩
    rw [List.append_nil]
    exact ht.numbered
  unfold TcpSession.sendMessage
  split
  · exact hplain _
  · rename_i t hts
    split_ifs with hl
    · refine Ordered.asyncWrite (s := setTls { s with strand := as } _) h.handed _ _ fun ho => ?_
      obtain ⟨t', ht'⟩ := htail.live ho
      obtain rfl : t = t' := Option.some.inj (hts.symm.trans ht'.tls)
      refine ⟨_, rfl, ?_⟩
      cases hd : t.isHandshakeDone E with
      | false =>
        rw [encrypt_of_not_done hd, List.append_nil]
        exact ⟨ht'.numbered, ht'.order, ht'.reads⟩
      | true =>
        obtain ⟨t₀, ht₀⟩ := h.live ho
        obtain rfl : t = t₀ := Option.some.inj (hts.symm.trans ht₀.tls)
        have hord := ht₀.order
        rw [hs] at hord
        have hq : ∀ b ∈ as, b.records = [] := fun b hb =>
          List.rel_of_pairwise_cons hord hb (Or.inr ⟨hd, decide_eq_true hl⟩)
        have hn := ht'.numbered
        change t.Numbered (s.handed ++ posted as) at hn
        rw [posted_eq_nil hq, List.append_nil] at hn
        refine ⟨?_, pairwise_behind hq _, ht'.reads⟩
        change TlsSession.Numbered _ (s.handed ++ _ ++ posted as)
        rw [posted_eq_nil hq, List.append_nil]
        exact hn.encrypt E _ _
    · exact hplain _

end Tail

/-! ## Runs -/

theorem Ordered.run (h : Ordered E 1 s) (hc : s.DrainsClear E .run) : Ordered E 1 (s.run E).1 := by
  unfold TcpSession.run
  split
  · exact h
  · rename_i a as hs
    have hclear (ho : s.socket.isOpen = true) (hd : s.Drains E a = true) :
        ∀ b ∈ as, b.encrypts = false := fun b hb =>
      hc rfl ho a (by rw [hs]; rfl) hd b (by rw [hs]; exact List.mem_cons_of_mem _ hb)
    cases a with
    | sendMessage msg => exact h.run_sendMessage hs
    | writeTls records => exact h.run_writeTls hs
    | wrote ok =>
      cases ok with
      | true => exact h.tail hs rfl
      | false => exact (h.tail hs rfl).handleDisconnect
    | read op data =>
      have hcalm := h.calm_tail hs rfl
      cases op with
      | header => exact hcalm.onHeader data fun ho hd => hclear ho (by cases data <;> exact hd)
      | body => exact hcalm.onBody data fun ho hd => hclear ho (by cases data <;> exact hd)

theorem Ordered.setSocket (h : Ordered E k s) {sock : StreamSocket}
    (ho : sock.isOpen = s.socket.isOpen) : Ordered E k (s.setSocket sock) where
  handed := h.handed
  live := fun hs => by
    obtain ⟨t, ht⟩ := h.live (ho ▸ hs)
    exact ⟨t, ht.tls, ht.numbered, ht.order, ht.reads⟩

theorem Ordered.endRead (h : Ordered E 1 s) (data : Option Bytes) :
    Ordered E 1 (s.endRead data) := by
  unfold TcpSession.endRead
  split
  · exact h
  · rename_i op hop
    split_ifs
    · refine ⟨h.handed, fun ho => ?_⟩
      obtain ⟨t, ht⟩ := h.live ho
      refine ⟨t, ht.tls, ?_, pairwise_behind_append ht.order fun _ _ _ => rfl, ?_⟩
      · change t.Numbered (s.handed ++ posted (s.strand ++ [_]))
        rw [posted_append, show posted [Handler.read op data] = [] from rfl, List.append_nil]
        exact ht.numbered
      · have h1 := ht.reads
        unfold reads at h1 ⊢
        rw [hop] at h1
        simp only [TcpSession.post, List.countP_append, List.countP_singleton, Handler.isRead]
        exact h1
    · exact h

/-- **One step keeps the order** when the drains are clear. -/
theorem Ordered.step {e : Event} (hc : s.DrainsClear E e) (h : Ordered E 1 s) :
    Ordered E 1 (s.step E e).1 := by
  cases e with
  | sendMessage msg => exact h.post rfl rfl
  | close => exact h.close
  | run => exact h.run hc
  | accept i n =>
    change Ordered E 1 (s.acceptBytes i n)
    unfold acceptBytes
    split_ifs
    · apply Ordered.post (h.setSocket _) <;> rfl
    · exact h.setSocket rfl
    · exact h
  | writeFails i =>
    change Ordered E 1 (s.failWrite i)
    unfold failWrite
    split_ifs
    · apply Ordered.post (h.setSocket _) <;> rfl
    · exact h
  | arrive bytes => exact h.endRead _
  | readFails => exact h.endRead _

theorem ordered_init (ssl : Option σ) : Ordered E 1 (init E (some (.new ssl))) := by
  have hn : Calm (new (some (TlsSession.new ssl))) :=
    ⟨rfl, fun _ => ⟨_, rfl, TlsSession.numbered_new ssl, rfl, fun _ h => absurd h List.not_mem_nil⟩⟩
  exact (hn.handleTlsOutput fun _ _ _ _ h => absurd h List.not_mem_nil).asyncRead _

variable (E)

/-- **TLS records leave in engine order** in every state of a run whose drains are clear. -/
theorem records_in_order (ssl : Option σ) (es : List Event)
    (h : Machine.Along (TcpSession.step E) (DrainsClear E) (init E (some (.new ssl))) es) :
    ∀ pre, pre <+: es →
      (Machine.final (TcpSession.step E) (init E (some (.new ssl))) pre).InEngineOrder := by
  intro pre hp
  refine Ordered.handed (E := E) (k := 1) ?_
  exact Machine.invariant_along (TcpSession.step E) (ordered_init ssl)
    (fun s e hc hs => Ordered.step hc hs) h pre hp

/-- The Finished is posted before the message waits. -/
theorem records_in_order_sample :
    (Machine.final (TcpSession.step sampleSsl) sampleInit
      [.run, .accept 0 11, .run, .arrive [0x0b, 1, 0, 0, 0], .run, .arrive [2], .run,
        .sendMessage ⟨0x04, 1, [7]⟩, .run, .run]).InEngineOrder :=
  records_in_order sampleSsl _ _ (by decide +kernel) _ List.prefix_rfl

/-- A message already waits when the server's flight is read: it is encrypted after the Finished and
handed out before it. -/
theorem records_in_order_fails :
    ¬ (Machine.final (TcpSession.step sampleSsl) sampleInit
      [.run, .accept 0 11, .run, .arrive [0x0b, 1, 0, 0, 0], .run, .arrive [2],
        .sendMessage ⟨0x04, 1, [7]⟩, .run, .run, .run]).InEngineOrder :=
  by decide +kernel

end TcpSession

end Network

end AnoMap
