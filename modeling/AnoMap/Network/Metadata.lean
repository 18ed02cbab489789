import AnoMap.Network.ImageStream

/-!
# The metadata of an image

Metadata strings come over TCP and are kept in one field, which an image takes when its last
fragment arrives.

* `Story`: the string in force when the image under way began, and the last one set since.
* `OwnMeta`: every image is delivered with the string that was in force at its first fragment.
* **`own_meta_iff`**: a run delivers every image so if and only if no other string is in the field
  when one is completed: the last one set since its first fragment, if any, is the same.
-/

set_option autoImplicit false

namespace AnoMap.Network.ImageStream

/-! ## The statement -/

/-- What the events so far say of the image under way. -/
structure Story where
  atFirst : String
  since : Option String
  deriving DecidableEq, Repr

def Story.init : Story := ⟨"", none⟩

/-- The string in force. -/
def Story.current (h : Story) : String := h.since.getD h.atFirst

/-- The first fragment of an image starts a new story. -/
def Story.next (s : ImageStream) (h : Story) : UdpEvent → Story
  | .setExpectedMeta meta_ => { h with since := some meta_ }
  | .fragment c => if s.OpensImage c then ⟨h.current, none⟩ else h
  | .expire | .wait => h

/-- The stream with the story of its image. -/
def storyStep (s : ImageStream × Story) (e : UdpEvent) :
    (ImageStream × Story) × List UdpOutput :=
  (((s.1.step e).1, s.2.next s.1 e), (s.1.step e).2)

/-- The story of the image under way after a run. -/
def story (oc sc : Bool) (es : List UdpEvent) : Story :=
  (Machine.final storyStep (init oc sc, .init) es).2

/-- **Every image under its own metadata**: the string that was in force at its first fragment. -/
def OwnMeta (oc sc : Bool) (es : List UdpEvent) : Prop :=
  ∀ pre c post image meta_, es = pre ++ .fragment c :: post →
    .onComplete image meta_ ∈ ((after oc sc pre).step (.fragment c)).2 →
    meta_ = (story oc sc (pre ++ [.fragment c])).atFirst

/-- At the last fragment of an image that has begun, no other string was set meanwhile. -/
def Undisturbed (s : ImageStream) (h : Story) (c : Fragment) : Prop :=
  s.CompletesImage c → ¬ s.OpensImage c → ∀ meta_, h.since = some meta_ → meta_ = h.atFirst

/-! ## The story of a run -/

theorem final_storyStep_fst (s : ImageStream) (h : Story) (es : List UdpEvent) :
    (Machine.final storyStep (s, h) es).1 = Machine.final step s es :=
  Machine.final_map step Prod.fst (fun _ _ => rfl) (s, h) es

theorem story_concat (oc sc : Bool) (pre : List UdpEvent) (e : UdpEvent) :
    story oc sc (pre ++ [e]) = (story oc sc pre).next (after oc sc pre) e := by
  rw [story, Machine.final_concat]
  show Story.next (Machine.final storyStep (init oc sc, .init) pre).1 _ e = _
  rw [final_storyStep_fst]
  rfl

theorem expectedMeta_after (oc sc : Bool) (es : List UdpEvent) : (after oc sc es).hung = false →
    (after oc sc es).session.expectedMeta = (story oc sc es).current := by
  induction es using List.reverseRecOn with
  | nil => exact fun _ => rfl
  | append_singleton es e ih =>
    rw [after, Machine.final_concat, story_concat]
    intro hrun
    have hlive : (after oc sc es).hung = false := by
      by_contra hh
      rw [step_of_hung (Bool.eq_true_of_not_eq_false hh)] at hrun
      exact hh hrun
    have ih := ih hlive
    cases e with
    | setExpectedMeta meta_ =>
      rw [step_setExpectedMeta hlive]
      rfl
    | fragment c =>
      rw [step_fragment hlive, Reassembly.handle_expectedMeta, ih, Story.next]
      split_ifs <;> rfl
    | expire =>
      rw [step_expire hlive]
      exact ih
    | wait =>
      obtain ⟨timer, ht, -⟩ := step_wait hlive
      rw [ht]
      exact ih

/-! ## Deliveries -/

theorem onComplete_mem_iff {s : ImageStream} {c : Fragment} {image : Bytes} {meta_ : String} :
    .onComplete image meta_ ∈ (s.step (.fragment c)).2 ↔ s.CompletesImage c ∧
      s.session.onComplete = true ∧ meta_ = s.session.expectedMeta ∧
        image = (List.range (c.maxSeqNo.toNat + 1)).flatMap (s.session.piece c) := by
  unfold CompletesImage
  cases hh : s.hung with
  | true =>
    rw [step_of_hung hh]
    exact ⟨fun h => absurd h List.not_mem_nil, fun h => absurd h.1.1 (by decide)⟩
  | false =>
    rw [step_fragment hh]
    by_cases hc : s.session.Completes c
    · rw [Reassembly.outputs_of_completes hc]
      cases s.session.onComplete <;> cases s.session.sendControl <;> simp [hc] <;> tauto
    · rw [Reassembly.outputs_of_not_completes hc]
      exact ⟨fun h => absurd h List.not_mem_nil, fun h => absurd h.1.2 hc⟩

theorem onComplete_after (oc sc : Bool) (es : List UdpEvent) :
    (after oc sc es).session.onComplete = oc := by
  refine Machine.invariant step (fun s => s.session.onComplete = oc) (fun _ => True) rfl
    (fun s e _ h => ?_) es fun _ _ => trivial
  cases hh : s.hung with
  | true => rwa [step_of_hung hh]
  | false =>
    cases e with
    | setExpectedMeta meta_ => rwa [step_setExpectedMeta hh]
    | fragment c => rw [step_fragment hh, Reassembly.handle_onComplete, h]
    | expire => rwa [step_expire hh]
    | wait =>
      obtain ⟨timer, ht, -⟩ := step_wait hh
      rw [ht]
      exact h

/-! ## The theorem -/

/-- **Own metadata, exactly.** Every image is delivered with the string in force at its first
fragment if and only if no other string is the last one set when its last fragment arrives. -/
theorem own_meta_iff (sc : Bool) (es : List UdpEvent) :
    OwnMeta true sc es ↔ ∀ pre c post, es = pre ++ .fragment c :: post →
      Undisturbed (after true sc pre) (story true sc pre) c := by
  have hfield : ∀ pre c, (after true sc pre).CompletesImage c →
      (after true sc pre).session.expectedMeta = (story true sc pre).current :=
    fun pre c hc => expectedMeta_after true sc pre hc.1
  constructor
  · intro h pre c post hcut hc hopen meta_ hsince
    have hm := h pre c post _ _ hcut (onComplete_mem_iff.mpr
      ⟨hc, onComplete_after true sc pre, rfl, rfl⟩)
    rw [story_concat, Story.next, if_neg hopen, hfield pre c hc, Story.current, hsince] at hm
    exact hm
  · intro h pre c post image meta_ hcut hmem
    obtain ⟨hc, -, rfl, -⟩ := onComplete_mem_iff.mp hmem
    rw [story_concat, Story.next, hfield pre c hc]
    split_ifs with hopen
    · rfl
    · rw [Story.current]
      cases hsince : (story true sc pre).since with
      | none => rfl
      | some meta_ => exact h pre c post hcut hc hopen meta_ hsince

/-- **Overtaken.** The metadata of the second image comes before the last fragment of the first. -/
theorem own_meta_fails : ¬ OwnMeta true true
    [.setExpectedMeta "a", .fragment ⟨0, 0, 1, [1]⟩, .setExpectedMeta "b",
      .fragment ⟨0, 1, 1, [2]⟩] := by
  intro h
  have hm := h [.setExpectedMeta "a", .fragment ⟨0, 0, 1, [1]⟩, .setExpectedMeta "b"]
    ⟨0, 1, 1, [2]⟩ [] [1, 2] "b" rfl (by decide)
  exact absurd hm (by decide)

end AnoMap.Network.ImageStream
