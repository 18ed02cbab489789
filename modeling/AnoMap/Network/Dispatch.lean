import AnoMap.Network.NetworkService

/-!
# What becomes of a received message

A message that the TCP session hands on passes the service's strand once, IMAGE metadata twice,
before the application is told.

* `heard`: the messages that a step makes the TCP session hand on; `callbackFor`: what the
  application is to be told of one.
* `plain`, `isMeta`: the two ways, each of which keeps its order.
* `act_cases`: a step posts behind the strand or runs its first handler.
* `Books`: what has been told and what waits on the strand, against what was heard.
* **`callbacks_in_order`**: whatever else the strand, the sockets and the application do, every
  message is told of once and each way in the order of arrival; `disconnect` cuts both off.
-/

set_option autoImplicit false

namespace AnoMap

namespace Network

namespace NetworkService

variable {σ δ : Type} (E : Env σ δ)

/-! ## The statement -/

def messagesOf (outs : List TcpOutput) : List Message :=
  outs.filterMap fun
    | .message msg => some msg
    | .connected | .disconnected => none

/-- The messages that the TCP session hands on in a step. -/
def heard (s : NetworkService σ δ) (e : Event) : List Message :=
  if s.halted then []
  else
    match e with
    | .ready .connect =>
      if s.connectDone = some true then messagesOf ((TcpSession.new E.newTls).start E.ssl).2 else []
    | .ready .tcp =>
      match s.tcp with
      | none => []
      | some t => messagesOf (t.run E.ssl).2
    | .socket e =>
      match s.tcp with
      | none => []
      | some t => messagesOf (t.step E.ssl e.toEvent).2
    | _ => []

/-- The service with the messages it hears. -/
def hearing (s : NetworkService σ δ) (e : Event) : NetworkService σ δ × List Message :=
  ((s.step E e).1, s.heard E e)

/-- What the application is to be told of a message. -/
def callbackFor (msg : Message) : Option AppOutput :=
  (processMessage msg).bind fun e => if E.isSet e.1 then some (.callback e.1 e.2) else none

/-- A callback other than that of IMAGE metadata. -/
def plain : AppOutput → Bool
  | .callback c _ => c ≠ .onImageMeta
  | _ => false

def isMeta : AppOutput → Bool
  | .callback c _ => c = .onImageMeta
  | _ => false

/-- What a waiting handler is to tell. -/
def waiting : Task → Option AppOutput
  | .process msg => callbackFor E msg
  | _ => none

/-- What the handler of IMAGE metadata is to tell. -/
def waitingMeta : Task → Option AppOutput
  | .imageMeta json => if E.isSet .onImageMeta then some (.callback .onImageMeta json) else none
  | _ => none

/-! ## One step -/

variable {s : NetworkService σ δ}

theorem filterMap_waiting_taskOfTcp (outs : List TcpOutput) :
    (outs.map taskOfTcp).filterMap (waiting E) = (messagesOf outs).filterMap (callbackFor E) := by
  rw [messagesOf, List.filterMap_map, List.filterMap_filterMap]
  refine List.filterMap_congr fun o _ => ?_
  cases o <;> rfl

theorem filterMap_waitingMeta_taskOfTcp (outs : List TcpOutput) :
    (outs.map taskOfTcp).filterMap (waitingMeta E) = [] := by
  rw [List.filterMap_map, List.filterMap_eq_nil_iff]
  intro o _
  cases o <;> rfl

theorem taskOfUdp_silent (o : UdpSession.Output) :
    (taskOfUdp o).bind (waiting E) = none ∧ (taskOfUdp o).bind (waitingMeta E) = none := by
  cases o with
  | sendRaw data endpoint => exact ⟨rfl, rfl⟩
  | callback o => cases o <;> exact ⟨rfl, rfl⟩

theorem filterMap_waiting_taskOfUdp (outs : List UdpSession.Output) :
    (outs.filterMap taskOfUdp).filterMap (waiting E) = [] ∧
      (outs.filterMap taskOfUdp).filterMap (waitingMeta E) = [] := by
  rw [List.filterMap_filterMap, List.filterMap_filterMap, List.filterMap_eq_nil_iff,
    List.filterMap_eq_nil_iff]
  exact ⟨fun o _ => (taskOfUdp_silent E o).1, fun o _ => (taskOfUdp_silent E o).2⟩

/-- Nothing is told of a message. -/
def Silent (outs : List AppOutput) : Prop := ∀ o ∈ outs, plain o = false ∧ isMeta o = false

theorem silent_nil : Silent [] := fun _ h => absurd h List.not_mem_nil

theorem Silent.filter_eq_nil {outs : List AppOutput} {p : AppOutput → Bool}
    (h : ∀ o ∈ outs, p o = false) : outs.filter p = [] :=
  List.filter_eq_nil_iff.mpr fun o ho => by
    rw [h o ho]
    exact Bool.false_ne_true

theorem silent_appOfUdp (outs : List UdpSession.Output) : Silent (outs.filterMap appOfUdp) := by
  intro o ho
  obtain ⟨u, -, hu⟩ := List.mem_filterMap.mp ho
  cases u with
  | sendRaw data endpoint => cases hu
  | callback u =>
    cases u with
    | onComplete image meta_ =>
      rw [← Option.some.inj hu]
      exact ⟨rfl, rfl⟩
    | sendControl json => cases hu

/-- A step that posts handlers behind the strand, which are to tell of `msgs`. -/
structure Posts (s : NetworkService σ δ) (msgs : List Message)
    (r : NetworkService σ δ × List AppOutput) : Prop where
  processor : r.1.processor = s.processor
  silent : Silent r.2
  strand : ∃ tasks, r.1.strand = s.strand ++ tasks ∧
    tasks.filterMap (waiting E) = msgs.filterMap (callbackFor E) ∧
    tasks.filterMap (waitingMeta E) = []

theorem Posts.refl (s : NetworkService σ δ) : Posts E s [] (s, []) :=
  ⟨rfl, silent_nil, [], (List.append_nil _).symm, rfl, rfl⟩

theorem posts_setTcp (s : NetworkService σ δ) (r : TcpSession σ × List TcpOutput) :
    Posts E s (messagesOf r.2) (s.setTcp r, []) :=
  ⟨rfl, silent_nil, _, rfl, filterMap_waiting_taskOfTcp E r.2, filterMap_waitingMeta_taskOfTcp E r.2⟩

theorem posts_setUdp (s : NetworkService σ δ) (i : ℕ) (r : UdpSession δ × List UdpSession.Output) :
    Posts E s [] (s.setUdp i r) :=
  ⟨rfl, silent_appOfUdp r.2, _, rfl, (filterMap_waiting_taskOfUdp E r.2).1,
    (filterMap_waiting_taskOfUdp E r.2).2⟩

/-- **One step** posts behind the strand or runs its first handler. -/
theorem act_cases (hs : s.halted = false) (e : Event) : Posts E s (s.heard E e) (s.act E e) ∨
    ∃ t ts, s.strand = t :: ts ∧ e = .ready .task ∧
      s.act E e = runTask E { s with strand := ts } t := by
  have hn : ¬ s.halted = true := by
    rw [hs]
    exact Bool.false_ne_true
  unfold heard
  rw [if_neg hn]
  cases e with
  | send type body => exact Or.inl ⟨rfl, silent_nil, _, rfl, rfl, rfl⟩
  | disconnect => exact Or.inl ⟨rfl, silent_nil, _, rfl, rfl, rfl⟩
  | connectEnds ok =>
    left
    unfold act
    dsimp only
    split_ifs
    · exact ⟨rfl, silent_nil, [], (List.append_nil _).symm, rfl, rfl⟩
    · exact .refl E s
  | socket e =>
    left
    unfold act
    cases s.tcp with
    | none => exact .refl E s
    | some t => exact posts_setTcp E s _
  | datagram i r =>
    left
    unfold act endReceive
    dsimp only
    split
    · exact .refl E s
    · split_ifs
      · exact ⟨rfl, silent_nil, [], (List.append_nil _).symm, rfl, rfl⟩
      · exact .refl E s
  | expire i =>
    left
    unfold act expireWait
    dsimp only
    split
    · exact .refl E s
    · exact ⟨rfl, silent_nil, [], (List.append_nil _).symm, rfl, rfl⟩
  | ready h =>
    cases h with
    | task =>
      unfold act runReady
      cases hst : s.strand with
      | nil => exact Or.inl (.refl E s)
      | cons t ts => exact Or.inr ⟨t, ts, rfl, rfl, rfl⟩
    | connect =>
      left
      unfold act runReady
      rcases hd : s.connectDone with _ | _ | _
      · exact .refl E s
      · exact ⟨rfl, silent_nil, [], (List.append_nil _).symm, rfl, rfl⟩
      · exact ⟨rfl, silent_nil, _, rfl, filterMap_waiting_taskOfTcp E _,
          filterMap_waitingMeta_taskOfTcp E _⟩
    | tcp =>
      left
      unfold act runReady
      cases s.tcp with
      | none => exact .refl E s
      | some t => exact posts_setTcp E s _
    | receive i =>
      left
      unfold act runReady runReceive
      dsimp only
      split
      · exact .refl E s
      · split
        · exact .refl E s
        · exact posts_setUdp E s i _
    | wait i =>
      left
      unfold act runReady runWait
      dsimp only
      split
      · exact .refl E s
      · split
        · exact .refl E s
        · split
          · exact ⟨rfl, silent_nil, [], (List.append_nil _).symm, rfl, rfl⟩
          · exact posts_setUdp E s i _

/-! ## What is owed -/

/-- What the handlers of received messages on the strand are to tell, while there is a processor. -/
def pending (s : NetworkService σ δ) (p : AppOutput → Bool) : List AppOutput :=
  if s.processor then (s.strand.filterMap (waiting E)).filter p else []

/-- What is on its way to the application's callback of IMAGE metadata. -/
def pendingMeta (s : NetworkService σ δ) : List AppOutput :=
  s.strand.filterMap (waitingMeta E) ++ s.pending E isMeta

def expected (p : AppOutput → Bool) (msgs : List Message) : List AppOutput :=
  (msgs.filterMap (callbackFor E)).filter p

theorem expected_append (p : AppOutput → Bool) (msgs msgs' : List Message) :
    expected E p (msgs ++ msgs') = expected E p msgs ++ expected E p msgs' := by
  rw [expected, List.filterMap_append, List.filter_append]
  rfl

/-- Of `total`, `told` is done, `owed` is to come and the rest is lost, which nothing is while
`alive`. -/
def Owes (told owed total : List AppOutput) (alive : Bool) : Prop :=
  ∃ lost, told ++ owed ++ lost = total ∧ (alive = true → lost = [])

section Owes

variable {told owed total : List AppOutput} {alive : Bool}

theorem Owes.hear (h : Owes told owed total alive) (more : List AppOutput) :
    Owes told (owed ++ if alive then more else []) (total ++ more) alive := by
  obtain ⟨lost, heq, hlost⟩ := h
  cases alive with
  | true =>
    rw [hlost rfl, List.append_nil] at heq
    exact ⟨[], by rw [if_pos rfl, List.append_nil, ← List.append_assoc, heq], fun _ => rfl⟩
  | false =>
    refine ⟨lost ++ more, ?_, fun h => absurd h Bool.false_ne_true⟩
    rw [if_neg Bool.false_ne_true, List.append_nil, ← List.append_assoc, heq]

theorem Owes.tell {first : List AppOutput} (h : Owes told (first ++ owed) total alive) :
    Owes (told ++ first) owed total alive := by
  obtain ⟨lost, heq, hlost⟩ := h
  exact ⟨lost, by rw [← heq, List.append_assoc told], hlost⟩

theorem Owes.cut {kept : List AppOutput} (h : Owes told (kept ++ owed) total alive) :
    Owes told kept total false := by
  obtain ⟨lost, heq, -⟩ := h
  refine ⟨owed ++ lost, ?_, fun h => absurd h Bool.false_ne_true⟩
  rw [← heq]
  simp only [List.append_assoc]

theorem Owes.begins (h : Owes told owed total alive) : told <+: total := by
  obtain ⟨lost, heq, -⟩ := h
  exact ⟨owed ++ lost, by rw [← heq, List.append_assoc]⟩

theorem Owes.eq (h : Owes told owed total true) : told ++ owed = total := by
  obtain ⟨lost, heq, hlost⟩ := h
  rw [← heq, hlost rfl, List.append_nil]

end Owes

theorem pending_cons (p : AppOutput → Bool) (t : Task) (ts : List Task) (h : waiting E t = none) :
    pending E { s with strand := t :: ts } p = pending E { s with strand := ts } p := by
  unfold pending
  rw [List.filterMap_cons_none h]

theorem openUdp_replyPort (s : NetworkService σ δ) (json : Bytes) :
    ((s.openUdp E).replyPort json).processor = s.processor ∧
      ∃ tasks, ((s.openUdp E).replyPort json).strand = s.strand ++ tasks ∧
        tasks.filterMap (waiting E) = [] ∧ tasks.filterMap (waitingMeta E) = [] := by
  have ho : (s.openUdp E).processor = s.processor ∧ (s.openUdp E).strand = s.strand := by
    unfold openUdp
    cases s.udpSession <;> exact ⟨rfl, rfl⟩
  unfold replyPort
  split
  · exact ⟨ho.1, [], by rw [ho.2, List.append_nil], rfl, rfl⟩
  · exact ⟨ho.1, _, congrArg (· ++ _) ho.2, rfl, rfl⟩

theorem pending_of_strand {s s' : NetworkService σ δ} (hp : s'.processor = s.processor)
    {tasks : List Task} (hs : s'.strand = s.strand ++ tasks)
    (ht : tasks.filterMap (waiting E) = []) (p : AppOutput → Bool) :
    s'.pending E p = s.pending E p := by
  unfold pending
  rw [hp, hs, List.filterMap_append, ht, List.append_nil]

theorem pending_post (s : NetworkService σ δ) {tasks : List Task}
    (ht : tasks.filterMap (waiting E) = []) (p : AppOutput → Bool) :
    (s.post tasks).pending E p = s.pending E p :=
  pending_of_strand E (show (s.post tasks).processor = s.processor from rfl) rfl ht p

theorem filterMap_imageMeta (json : Bytes) (ts : List Task) :
    (Task.imageMeta json :: ts).filterMap (waitingMeta E) =
      (if E.isSet .onImageMeta then [.callback .onImageMeta json] else []) ++
        ts.filterMap (waitingMeta E) := by
  rw [List.filterMap_cons, waitingMeta]
  split_ifs <;> rfl

theorem filterMap_process {msg : Message} {c : Callback} {body : Bytes}
    (h : processMessage msg = some (c, body)) (ts : List Task) :
    (Task.process msg :: ts).filterMap (waiting E) =
      (if E.isSet c then [.callback c body] else []) ++ ts.filterMap (waiting E) := by
  rw [List.filterMap_cons, waiting, callbackFor, h, Option.bind_some]
  split_ifs <;> rfl

theorem process_of_none {msg : Message} (h : processMessage msg = none) :
    s.process E msg = (s, []) := by
  unfold process
  rw [h]
  split_ifs <;> rfl

theorem process_of_meta (hs : s.processor = true) {msg : Message} {body : Bytes}
    (h : processMessage msg = some (.onImageMeta, body)) :
    s.process E msg = (s.post [.imageMeta body], []) := by
  unfold process
  rw [if_pos hs, h]

theorem process_of_plain (hs : s.processor = true) {msg : Message} {c : Callback} {body : Bytes}
    (h : processMessage msg = some (c, body)) (hc : c ≠ .onImageMeta) :
    s.process E msg = (s, if E.isSet c then [.callback c body] else []) := by
  unfold process
  rw [if_pos hs, h]
  cases c <;> first | rfl | exact absurd rfl hc

/-- What the first handler tells of what the strand was to tell. -/
structure Tells (t : Task) (ts : List Task) (s : NetworkService σ δ)
    (r : NetworkService σ δ × List AppOutput) : Prop where
  processor : r.1.processor = s.processor
  plain : pending E { s with strand := t :: ts } plain = r.2.filter plain ++ r.1.pending E plain
  isMeta : pendingMeta E { s with strand := t :: ts } =
    r.2.filter isMeta ++ r.1.pendingMeta E

theorem tells_silent {t : Task} (hw : waiting E t = none) (hm : waitingMeta E t = none)
    {ts : List Task} {s : NetworkService σ δ} {r : NetworkService σ δ × List AppOutput}
    (hp : r.1.processor = s.processor) (hs : r.1.strand = ts) (ho : Silent r.2) :
    Tells E t ts s r := by
  have hpend (p : AppOutput → Bool) :
      pending E { s with strand := t :: ts } p = r.1.pending E p := by
    have hstrand : r.1.strand = ({ s with strand := ts } : NetworkService σ δ).strand ++ [] := by
      rw [hs, List.append_nil]
    rw [pending_cons E p t ts hw]
    exact (pending_of_strand E (by exact hp) hstrand rfl p).symm
  refine ⟨hp, ?_, ?_⟩
  · rw [Silent.filter_eq_nil fun o h => (ho o h).1]
    exact hpend _
  · rw [Silent.filter_eq_nil fun o h => (ho o h).2]
    unfold pendingMeta
    rw [hpend, hs, List.filterMap_cons_none hm]
    rfl

theorem tells_process (s : NetworkService σ δ) (msg : Message) (ts : List Task) :
    Tells E (.process msg) ts s (process E { s with strand := ts } msg) := by
  by_cases hproc : s.processor = true
  · cases hm : processMessage msg with
    | none =>
      rw [process_of_none E hm]
      refine tells_silent E ?_ rfl rfl rfl silent_nil
      rw [waiting, callbackFor, hm]
      rfl
    | some e =>
      obtain ⟨c, body⟩ := e
      have hpend (p : AppOutput → Bool) : pending E { s with strand := .process msg :: ts } p =
          (if E.isSet c then [AppOutput.callback c body] else []).filter p ++
            pending E { s with strand := ts } p := by
        unfold pending
        dsimp only
        rw [if_pos hproc, if_pos hproc, filterMap_process E hm, List.filter_append]
      by_cases hc : c = .onImageMeta
      · subst hc
        -- the metadata goes once more to the end of the strand
        rw [process_of_meta E (s := { s with strand := ts }) hproc hm]
        have hpost (p : AppOutput → Bool) :
            (NetworkService.post { s with strand := ts } [.imageMeta body]).pending E p =
              pending E { s with strand := ts } p := pending_post E _ rfl p
        refine ⟨rfl, ?_, ?_⟩
        · rw [hpend, hpost]
          split_ifs <;> rfl
        · have hmeta : (NetworkService.post { s with strand := ts } [.imageMeta body]).strand =
              ts ++ [.imageMeta body] := rfl
          unfold pendingMeta
          rw [hpend, hpost, hmeta, List.filterMap_append, filterMap_imageMeta,
            List.filterMap_cons_none rfl, List.append_assoc, List.filterMap_nil, List.append_nil]
          split_ifs <;> rfl
      · rw [process_of_plain E (s := { s with strand := ts }) hproc hm hc]
        refine ⟨rfl, hpend _, ?_⟩
        have hno : (if E.isSet c then [AppOutput.callback c body] else []).filter
            NetworkService.isMeta = [] := by
          split_ifs
          · simp [NetworkService.isMeta, hc]
          · rfl
        unfold pendingMeta
        rw [hpend, hno]
        rfl
  · have hout : process E { s with strand := ts } msg = ({ s with strand := ts }, []) := by
      unfold process
      rw [if_neg hproc]
    rw [hout]
    have hpend (ts : List Task) (p : AppOutput → Bool) : pending E { s with strand := ts } p = [] :=
      if_neg hproc
    refine ⟨rfl, by rw [hpend, hpend]; rfl, ?_⟩
    unfold pendingMeta
    rw [hpend, hpend]
    rfl

/-- **The first handler** of the strand tells what it was to tell. -/
theorem tells_runTask (s : NetworkService σ δ) {t : Task} (ht : t ≠ .cleanup) (ts : List Task) :
    Tells E t ts s (runTask E { s with strand := ts } t) := by
  cases t with
  | connect resolves => cases resolves <;> exact tells_silent E rfl rfl rfl rfl silent_nil
  | connected =>
    refine tells_silent E rfl rfl rfl rfl fun o ho => ?_
    unfold runTask at ho
    dsimp only at ho
    split_ifs at ho
    · rw [List.mem_singleton.mp ho]
      exact ⟨rfl, rfl⟩
    · exact absurd ho List.not_mem_nil
  | lost => exact tells_silent E rfl rfl rfl rfl silent_nil
  | send type body =>
    unfold runTask sendTask
    dsimp only
    split_ifs <;> exact tells_silent E rfl rfl rfl rfl silent_nil
  | cleanup => exact absurd rfl ht
  | process msg => exact tells_process E s msg ts
  | imageMeta json =>
    obtain ⟨hp, tasks, hs, hw, hm⟩ := openUdp_replyPort E { s with strand := ts } json
    have hpend (p : AppOutput → Bool) := pending_of_strand E hp hs hw p
    refine ⟨hp, ?_, ?_⟩
    · unfold runTask onImageMeta
      dsimp only
      rw [hpend, pending_cons E _ _ _ rfl]
      split_ifs <;> rfl
    · unfold runTask onImageMeta pendingMeta
      dsimp only
      rw [hpend, hs, filterMap_imageMeta, pending_cons E _ _ _ rfl, List.filterMap_append, hm,
        List.append_nil, List.append_assoc]
      split_ifs <;> rfl

/-! ## Runs -/

/-- **The books**: what was told and what is owed, for each of the two ways, against what was
heard. -/
structure Books (s : NetworkService σ δ) (told : List AppOutput) (msgs : List Message) : Prop where
  plain : Owes (told.filter plain) (s.pending E plain) (expected E plain msgs) s.processor
  isMeta : Owes (told.filter isMeta) (s.pendingMeta E) (expected E isMeta msgs) s.processor

variable {told : List AppOutput} {msgs msgs' : List Message}

theorem Books.posts (h : Books E s told msgs) {r : NetworkService σ δ × List AppOutput}
    (hr : Posts E s msgs' r) : Books E r.1 (told ++ r.2) (msgs ++ msgs') := by
  obtain ⟨tasks, hs, hw, hm⟩ := hr.strand
  have hpend (p : AppOutput → Bool) : r.1.pending E p =
      s.pending E p ++ if s.processor then expected E p msgs' else [] := by
    unfold pending expected
    rw [hr.processor, hs, List.filterMap_append, hw, List.filter_append]
    split_ifs <;> rfl
  have htold (p : AppOutput → Bool) (hp : ∀ o ∈ r.2, p o = false) :
      (told ++ r.2).filter p = told.filter p := by
    rw [List.filter_append, Silent.filter_eq_nil hp, List.append_nil]
  constructor
  · rw [htold _ fun o ho => (hr.silent o ho).1, hpend, expected_append, hr.processor]
    exact h.plain.hear _
  · have hmeta : r.1.pendingMeta E = s.pendingMeta E ++
        if s.processor then expected E NetworkService.isMeta msgs' else [] := by
      unfold pendingMeta
      rw [hpend, hs, List.filterMap_append, hm, List.append_nil, List.append_assoc]
    rw [htold _ fun o ho => (hr.silent o ho).2, hmeta, expected_append, hr.processor]
    exact h.isMeta.hear _

theorem Books.tells {t : Task} {ts : List Task} (hs : s.strand = t :: ts) (h : Books E s told msgs)
    {r : NetworkService σ δ × List AppOutput} (hr : Tells E t ts s r) :
    Books E r.1 (told ++ r.2) msgs := by
  have hself : ({ s with strand := t :: ts } : NetworkService σ δ) = s := by rw [← hs]
  have h₁ := hr.plain
  have h₂ := hr.isMeta
  rw [hself] at h₁ h₂
  constructor
  · rw [List.filter_append, hr.processor]
    exact (h₁ ▸ h.plain).tell
  · rw [List.filter_append, hr.processor]
    exact (h₂ ▸ h.isMeta).tell

theorem Books.cleanup {ts : List Task} (hs : s.strand = .cleanup :: ts) (h : Books E s told msgs) :
    Books E (NetworkService.cleanup { s with strand := ts }) told msgs := by
  have hmeta : pendingMeta E (NetworkService.cleanup { s with strand := ts }) =
      s.strand.filterMap (waitingMeta E) := by
    rw [hs, List.filterMap_cons_none rfl]
    exact List.append_nil _
  have hplain : Owes (told.filter NetworkService.plain) ([] ++ s.pending E NetworkService.plain)
      (expected E NetworkService.plain msgs) s.processor := h.plain
  refine ⟨hplain.cut, ?_⟩
  rw [hmeta]
  exact Owes.cut h.isMeta

theorem Books.step (h : Books E s told msgs) (e : Event) :
    Books E (s.step E e).1 (told ++ (s.step E e).2) (msgs ++ s.heard E e) := by
  by_cases hh : s.halted = true
  · have hstep : s.step E e = (s, []) := if_pos hh
    have hheard : s.heard E e = [] := if_pos hh
    rw [hstep, hheard, List.append_nil, List.append_nil]
    exact h
  · have hstep : s.step E e = s.act E e := if_neg hh
    rw [hstep]
    obtain hp | ⟨t, ts, hs, rfl, hact⟩ := act_cases E (by simpa using hh) e
    · exact h.posts E hp
    · have hheard : s.heard E (.ready .task) = [] := if_neg hh
      rw [hheard, List.append_nil, hact]
      by_cases ht : t = .cleanup
      · subst ht
        have hnil : (runTask E { s with strand := ts } .cleanup).2 = [] := rfl
        rw [hnil, List.append_nil]
        exact h.cleanup E hs
      · exact h.tells E hs (tells_runTask E s ht ts)

/-- What the application is told in a run from `connect` on. -/
def toldBy (connected resolves : Bool) (es : List Event) : List AppOutput :=
  Machine.outputs (step E) (init connected resolves) es

/-- The messages that the TCP session hands on in the run. -/
def heardBy (connected resolves : Bool) (es : List Event) : List Message :=
  Machine.outputs (hearing E) (init connected resolves) es

theorem books_reach (connected resolves : Bool) (es : List Event) :
    Books E (reach E connected resolves es) (toldBy E connected resolves es)
      (heardBy E connected resolves es) := by
  induction es using List.reverseRecOn with
  | nil => exact ⟨⟨[], rfl, fun _ => rfl⟩, ⟨[], rfl, fun _ => rfl⟩⟩
  | append_singleton es e ih =>
    have hfinal : Machine.final (hearing E) (init connected resolves) es =
        reach E connected resolves es := rfl
    unfold toldBy heardBy reach
    rw [Machine.final_concat, Machine.outputs_concat, Machine.outputs_concat, hfinal]
    exact ih.step E e

/-- **Callbacks in order.** The application is told of the messages received in order, each once,
IMAGE metadata in an order of its own; before the cleanup, what it was not told is on the strand. -/
theorem callbacks_in_order (connected resolves : Bool) (es : List Event) :
    (toldBy E connected resolves es).filter plain <+:
        expected E plain (heardBy E connected resolves es) ∧
      (toldBy E connected resolves es).filter isMeta <+:
        expected E isMeta (heardBy E connected resolves es) ∧
      ((reach E connected resolves es).processor = true →
        (toldBy E connected resolves es).filter plain ++
            (reach E connected resolves es).pending E plain =
          expected E plain (heardBy E connected resolves es) ∧
        (toldBy E connected resolves es).filter isMeta ++
            (reach E connected resolves es).pendingMeta E =
          expected E isMeta (heardBy E connected resolves es)) := by
  have h := books_reach E connected resolves es
  refine ⟨h.plain.begins, h.isMeta.begins, fun hp => ?_⟩
  have h₁ := h.plain
  have h₂ := h.isMeta
  rw [hp] at h₁ h₂
  exact ⟨h₁.eq, h₂.eq⟩

end NetworkService

end Network

end AnoMap
