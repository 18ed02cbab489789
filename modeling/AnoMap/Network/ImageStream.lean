import AnoMap.Network.Reassembly

/-!
# The image stream

What a `UdpSession` reassembles while fragments, metadata strings and the expirations of its timer
reach it in any order. A scan for missing fragments that never returns leaves the session hung:
nothing reaches it any more.

* `UdpEvent`, `ImageStream.step`: one event. A wait that expires makes its handler ready; the
  handlers are run in that order.
* `step_fragment`, `step_wait`: what the two events that call the reassembly code do.
* `OpensImage`: the fragment is the first one accepted of an image.
-/

set_option autoImplicit false

namespace AnoMap

namespace Network

/-- `expire`: the outstanding wait expires. `wait`: the first ready handler is run. -/
inductive UdpEvent where
  | setExpectedMeta (meta_ : String)
  | fragment (c : Fragment)
  | expire
  | wait
  deriving DecidableEq, Repr

/-- The fragment of an event, if it brings one. -/
def UdpEvent.fragment? : UdpEvent → Option Fragment
  | .fragment c => some c
  | _ => none

structure ImageStream where
  session : Reassembly
  hung : Bool

namespace ImageStream

def init (onComplete sendControl : Bool) : ImageStream := ⟨.init onComplete sendControl, false⟩

/-- The handler of a wait armed for `frameNo`, taken off the timer. -/
def runWait (s : Reassembly) (frameNo : UInt8) : ImageStream × List UdpOutput :=
  let s := { s with reassemblyTimer := s.reassemblyTimer.pop }
  match s.onReassemblyWait frameNo with
  | some r => (⟨r.1, false⟩, r.2)
  | none => (⟨s, true⟩, [])

def step (s : ImageStream) (e : UdpEvent) : ImageStream × List UdpOutput :=
  if s.hung then (s, [])
  else
    match e with
    | .setExpectedMeta meta_ => (⟨s.session.setExpectedMeta meta_, false⟩, [])
    | .fragment c =>
      let r := s.session.handleImageFragment c
      (⟨r.1, false⟩, r.2)
    | .expire =>
      (⟨{ s.session with reassemblyTimer := s.session.reassemblyTimer.expire }, false⟩, [])
    | .wait =>
      match s.session.reassemblyTimer.fired with
      | [] => (s, [])
      | frameNo :: _ => runWait s.session frameNo

/-- The fragments that arrived, in order. -/
def fragmentsOf (es : List UdpEvent) : List Fragment := es.filterMap UdpEvent.fragment?

/-- The state after a run, from a new session. -/
abbrev after (oc sc : Bool) (es : List UdpEvent) : ImageStream :=
  Machine.final step (init oc sc) es

variable {s : ImageStream}

theorem step_of_hung (h : s.hung = true) (e : UdpEvent) : s.step e = (s, []) := if_pos h

theorem step_fragment (h : s.hung = false) (c : Fragment) :
    s.step (.fragment c) =
      (⟨(s.session.handleImageFragment c).1, false⟩, (s.session.handleImageFragment c).2) :=
  if_neg (by rw [h]; decide)

theorem step_expire (h : s.hung = false) : s.step .expire =
    (⟨{ s.session with reassemblyTimer := s.session.reassemblyTimer.expire }, false⟩, []) :=
  if_neg (by rw [h]; decide)

theorem step_setExpectedMeta (h : s.hung = false) (meta_ : String) :
    s.step (.setExpectedMeta meta_) = (⟨s.session.setExpectedMeta meta_, false⟩, []) :=
  if_neg (by rw [h]; decide)

theorem step_wait_nil (h : s.hung = false) (hf : s.session.reassemblyTimer.fired = []) :
    s.step .wait = (s, []) := by
  unfold step
  rw [if_neg (by rw [h]; decide)]
  dsimp only
  rw [hf]

theorem step_wait_cons (h : s.hung = false) {frameNo : UInt8} {rest : List UInt8}
    (hf : s.session.reassemblyTimer.fired = frameNo :: rest) :
    s.step .wait = runWait s.session frameNo := by
  unfold step
  rw [if_neg (by rw [h]; decide)]
  dsimp only
  rw [hf]

/-- **A ready handler**, if it returns, changes the timer at most, and never delivers. -/
theorem step_wait (h : s.hung = false) : ∃ timer, (s.step .wait).1.session =
    { s.session with reassemblyTimer := timer } ∧
      ∀ image meta_, .onComplete image meta_ ∉ (s.step .wait).2 := by
  cases hf : s.session.reassemblyTimer.fired with
  | nil =>
    rw [step_wait_nil h hf]
    exact ⟨s.session.reassemblyTimer, rfl, fun _ _ => List.not_mem_nil⟩
  | cons frameNo rest =>
    rw [step_wait_cons h hf]
    unfold runWait Reassembly.onReassemblyWait Reassembly.checkMissingFragments
    dsimp only
    split_ifs
    · cases Reassembly.scanMissing s.session.fragments s.session.expectedMaxSeq
        Reassembly.scanFuel 0 with
      | none => exact ⟨_, rfl, fun _ _ => List.not_mem_nil⟩
      | some missing =>
        dsimp only [Option.map_some]
        split_ifs
        · exact ⟨_, rfl, fun image meta_ hm => by cases List.mem_singleton.mp hm⟩
        · exact ⟨_, rfl, fun _ _ => List.not_mem_nil⟩
    · exact ⟨_, rfl, fun _ _ => List.not_mem_nil⟩

/-! ## Images -/

/-- Nothing is held of the fragment's frame when it is filed. -/
def OpensImage (s : ImageStream) (c : Fragment) : Prop := (s.session.enterFrame c).fragments = ∅

instance (s : ImageStream) (c : Fragment) : Decidable (s.OpensImage c) :=
  inferInstanceAs (Decidable (_ = _))

/-- The fragment is the last one missing of its image. -/
def CompletesImage (s : ImageStream) (c : Fragment) : Prop :=
  s.hung = false ∧ s.session.Completes c

instance (s : ImageStream) (c : Fragment) : Decidable (s.CompletesImage c) :=
  inferInstanceAs (Decidable (_ ∧ _))

end ImageStream

end Network

end AnoMap
