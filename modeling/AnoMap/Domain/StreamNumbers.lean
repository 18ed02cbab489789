import AnoMap.Domain.Device

/-!
# Camera ids from stream URLs

The id of a camera is the address of its device and the number of the stream, which is the first
segment of the URL's path. Both stores cut it out between two slashes.

* `StreamUrl`: an URL with an address in dotted decimal and a stream number.
* `exists_afterFirst`: what follows the first occurrence of a text has what follows any other.
* `streamNum_text`: a stream number is found if and only if a slash follows it.
* `IdsDerived`: the items of a list get the ids of their streams.
* **`camera_id_iff`**: they do if and only if a slash follows every stream number other than `0`.
-/

set_option autoImplicit false

namespace AnoMap

namespace Domain

/-! ## The statement -/

/-- Four numbers, with dots between them. -/
def DottedDecimal (ip : String) : Prop :=
  ∃ a b c d : List Char, (∀ part ∈ [a, b, c, d], part ≠ [] ∧ ∀ x ∈ part, x.isDigit = true) ∧
    ip.toList = a ++ '.' :: (b ++ '.' :: (c ++ '.' :: d))

/-- `scheme://[userinfo@]ip[:port]/segment[/rest]`. -/
structure StreamUrl where
  scheme : String
  userinfo : Option String
  ip : String
  port : Option String
  segment : String
  rest : Option String
  scheme_letters : ∀ x ∈ scheme.toList, x.isAlpha = true
  userinfo_noSlash : ∀ t ∈ userinfo, '/' ∉ t.toList
  ip_dotted : DottedDecimal ip
  port_noSlash : ∀ t ∈ port, '/' ∉ t.toList
  segment_ne : segment ≠ ""
  segment_noSlash : '/' ∉ segment.toList

namespace StreamUrl

/-- The part in front of the address, after `scheme://`. -/
def user (u : StreamUrl) : String := u.userinfo.elim "" (· ++ "@")

/-- The part between the address and the path. -/
def portText (u : StreamUrl) : String := u.port.elim "" (":" ++ ·)

/-- The part after the stream number. -/
def tail (u : StreamUrl) : String := u.rest.elim "" ("/" ++ ·)

def text (u : StreamUrl) : String :=
  u.scheme ++ "://" ++ u.user ++ u.ip ++ u.portText ++ "/" ++ u.segment ++ u.tail

/-- The id of the stream. -/
def cameraId (u : StreamUrl) : String := u.ip ++ "/" ++ u.segment

/-- A slash follows the stream number, or it is `0`. -/
def NumberEnds (u : StreamUrl) : Prop := u.rest.isSome = true ∨ u.segment = "0"

end StreamUrl

/-- The item of a list has the URL, its address, and whatever else it has is of the right type. -/
structure Carries (item : Json) (u : StreamUrl) : Prop where
  isObject : item.isObject = true
  sourceUrl : item.value "source_url" "" = .ok u.text
  ip : item.value "ip" "" = .ok u.ip
  type : ∃ type : String, item.value "type" "" = .ok type
  isOnline : ∃ isOnline : Bool, item.value "is_online" false = .ok isOnline

/-- Both stores give the item the id. -/
def Assigned (item : Json) (cameraId : String) : Prop :=
  (∃ e, CameraStore.readItem item = .ok (some e) ∧ e.1.cameraId = cameraId) ∧
    ∃ c, DeviceStore.readCamera item = .ok (some c) ∧ c.cameraId = cameraId

/-- **The ids are derived**: each stream of a list gets its own. -/
def IdsDerived (items : List Json) : Prop :=
  (∀ item ∈ items, ∀ u, Carries item u → Assigned item u.cameraId) ∧
    ∀ item ∈ items, ∀ item' ∈ items, ∀ u u', Carries item u → Carries item' u' → u.ip = u'.ip →
      u.segment ≠ u'.segment → ∀ cameraId, ¬ (Assigned item cameraId ∧ Assigned item' cameraId)

/-! ## The first occurrence -/

theorem afterFirst_append {needle : List Char} (hne : needle ≠ []) {front : List Char}
    (h : ∀ c ∈ front, c ∉ needle) (cs : List Char) :
    afterFirst needle (front ++ cs) = afterFirst needle cs := by
  induction front with
  | nil => rfl
  | cons c front ih =>
    rw [List.forall_mem_cons] at h
    obtain ⟨n, ns, rfl⟩ := List.exists_cons_of_ne_nil hne
    have hhead : (n :: ns).isPrefixOf (c :: (front ++ cs)) = false := by
      have hnc : n ≠ c := fun he => h.1 (he ▸ List.mem_cons_self)
      simp [List.isPrefixOf, hnc]
    rw [List.cons_append, afterFirst, if_neg (by rw [hhead]; decide)]
    exact ih h.2

/-- **The first occurrence** ends no later than any other. -/
theorem exists_afterFirst (needle back : List Char) (front : List Char) :
    ∃ mid, afterFirst needle (front ++ (needle ++ back)) = some (mid ++ back) ∧
      mid ⊆ front ++ needle := by
  induction front with
  | nil =>
    refine ⟨[], ?_, List.nil_subset _⟩
    rw [List.nil_append, List.nil_append]
    cases hcs : needle ++ back with
    | nil =>
      obtain ⟨rfl, rfl⟩ := List.append_eq_nil_iff.mp hcs
      rfl
    | cons c cs =>
      rw [afterFirst, ← hcs, if_pos (by simp), List.drop_left]
  | cons c front ih =>
    rw [List.cons_append, afterFirst]
    split_ifs
    · refine ⟨(c :: (front ++ needle)).drop needle.length, ?_, ?_⟩
      · rw [← List.append_assoc, ← List.cons_append, List.drop_append_of_le_length (by simp; omega)]
      · exact fun x hx => List.mem_of_mem_drop hx
    · obtain ⟨mid, hmid, hsub⟩ := ih
      exact ⟨mid, hmid, fun x hx => List.mem_cons_of_mem c (hsub hx)⟩

/-! ## The stream number -/

theorem not_isDigit_of_isAlpha {x : Char} (h : x.isAlpha = true) : ¬ x.isDigit = true := by
  intro hd
  delta Char.isAlpha Char.isUpper Char.isLower at h
  delta Char.isDigit at hd
  simp only [Bool.or_eq_true, Bool.and_eq_true, decide_eq_true_eq, ge_iff_le,
    UInt32.le_iff_toNat_le] at h hd
  have h9 : ('9').val.toNat = 57 := rfl
  have hA : ('A').val.toNat = 65 := rfl
  have ha : ('a').val.toNat = 97 := rfl
  omega

theorem DottedDecimal.chars {ip : String} (h : DottedDecimal ip) :
    ip.toList ≠ [] ∧ ∀ x ∈ ip.toList, x.isDigit = true ∨ x = '.' := by
  obtain ⟨a, b, c, d, hparts, hip⟩ := h
  rw [hip]
  refine ⟨by simp, fun x hx => ?_⟩
  simp only [List.mem_append, List.mem_cons] at hx
  simp only [List.forall_mem_cons] at hparts
  obtain ⟨⟨-, ha⟩, ⟨-, hb⟩, ⟨-, hc⟩, ⟨-, hd⟩, -⟩ := hparts
  rcases hx with hx | hx | hx | hx | hx | hx | hx
  · exact .inl (ha x hx)
  · exact .inr hx
  · exact .inl (hb x hx)
  · exact .inr hx
  · exact .inl (hc x hx)
  · exact .inr hx
  · exact .inl (hd x hx)

theorem between_slashes {front segment tail : List Char} (hfront : '/' ∉ front)
    (hsegment : '/' ∉ segment) (htail : tail = [] ∨ tail.head? = some '/') :
    (front ++ '/' :: (segment ++ tail)).dropWhile (· ≠ '/') = '/' :: (segment ++ tail) ∧
      ('/' ∈ segment ++ tail ↔ tail ≠ []) ∧
      (tail ≠ [] → (segment ++ tail).takeWhile (· ≠ '/') = segment) := by
  have hall : ∀ {l : List Char}, '/' ∉ l → ∀ c ∈ l, decide (c ≠ '/') = true := fun h c hc =>
    decide_eq_true fun he => h (he ▸ hc)
  refine ⟨?_, ?_, fun hne => ?_⟩
  · rw [List.dropWhile_append_of_pos (hall hfront), List.dropWhile_cons_of_neg (by simp)]
  · rw [List.mem_append, or_iff_right hsegment]
    constructor
    · exact List.ne_nil_of_mem
    · intro hne
      exact List.mem_of_mem_head? (htail.resolve_left hne)
  · obtain ⟨c, cs, rfl⟩ := List.exists_cons_of_ne_nil hne
    obtain rfl : c = '/' := Option.some.inj (htail.resolve_left hne)
    rw [List.takeWhile_append_of_pos (hall hsegment), List.takeWhile_cons_of_neg (by simp),
      List.append_nil]

namespace StreamUrl

variable (u : StreamUrl)

theorem noSlash_user : '/' ∉ u.user.toList := by
  unfold user
  cases hu : u.userinfo with
  | none => simp
  | some t => simpa using u.userinfo_noSlash t hu

theorem noSlash_portText : '/' ∉ u.portText.toList := by
  unfold portText
  cases hp : u.port with
  | none => simp
  | some t => simpa using u.port_noSlash t hp

theorem noSlash_ip : '/' ∉ u.ip.toList := fun h =>
  (u.ip_dotted.chars.2 _ h).elim (by decide) (by decide)

theorem tail_cases : u.tail.toList = [] ∨ u.tail.toList.head? = some '/' := by
  unfold tail
  cases u.rest with
  | none => exact .inl rfl
  | some t => exact .inr (by simp)

theorem tail_eq_nil_iff : u.tail.toList ≠ [] ↔ u.rest.isSome = true := by
  unfold tail
  cases u.rest with
  | none => simp
  | some t => simp

theorem scheme_notMem : ∀ x ∈ (u.scheme ++ "://").toList, x ∉ u.ip.toList := by
  intro x hx hip
  rw [String.toList_append, List.mem_append] at hx
  have hc := u.ip_dotted.chars.2 x hip
  rcases hx with hx | hx
  · have hletter := u.scheme_letters x hx
    rcases hc with hd | rfl
    · exact not_isDigit_of_isAlpha hletter hd
    · exact absurd hletter (by decide)
  · have hmem : x = ':' ∨ x = '/' := by simpa using hx
    rcases hmem with rfl | rfl <;> exact absurd hc (by decide)

/-- **The stream number** is found if and only if a slash follows it. -/
theorem streamNum_text : streamNum u.text u.ip =
    if u.rest.isSome = true then some u.segment else none := by
  have htext : u.text.toList = (u.scheme ++ "://").toList ++ (u.user.toList ++ (u.ip.toList ++
      (u.portText.toList ++ '/' :: (u.segment.toList ++ u.tail.toList)))) := by
    simp [text]
  obtain ⟨mid, hmid, hsub⟩ := exists_afterFirst u.ip.toList
    (u.portText.toList ++ '/' :: (u.segment.toList ++ u.tail.toList)) u.user.toList
  have hfront : '/' ∉ mid ++ u.portText.toList := fun h => by
    rcases List.mem_append.mp h with h | h
    · exact (List.mem_append.mp (hsub h)).elim u.noSlash_user u.noSlash_ip
    · exact u.noSlash_portText h
  obtain ⟨hdrop, hmem, htake⟩ := between_slashes hfront u.segment_noSlash u.tail_cases
  have hsegment : u.segment.toList ++ u.tail.toList ≠ [] := fun h =>
    u.segment_ne (String.toList_eq_nil_iff.mp (List.append_eq_nil_iff.mp h).1)
  obtain ⟨c, cs, hcs⟩ := List.exists_cons_of_ne_nil hsegment
  rw [streamNum, htext, afterFirst_append u.ip_dotted.chars.1 u.scheme_notMem, hmid]
  dsimp only
  rw [← List.append_assoc, hdrop]
  rw [hcs] at hmem htake ⊢
  dsimp only
  by_cases hrest : u.rest.isSome = true
  · have htail := u.tail_eq_nil_iff.mpr hrest
    rw [if_pos hrest, if_pos (hmem.mpr htail), htake htail, String.ofList_toList]
  · rw [if_neg hrest, if_neg fun h => hrest (u.tail_eq_nil_iff.mp (hmem.mp h))]

end StreamUrl

/-! ## The ids of a list -/

theorem cameraIdOf_text (u : StreamUrl) :
    cameraIdOf u.text u.ip = if u.rest.isSome = true then u.cameraId else u.ip ++ "/0" := by
  have htext : u.text ≠ "" := fun h => by
    have hslash : '/' ∈ u.text.toList := by simp [StreamUrl.text]
    rw [h] at hslash
    exact absurd hslash (by decide)
  have hip : u.ip ≠ "" := fun h => u.ip_dotted.chars.1 (by rw [h]; rfl)
  rw [cameraIdOf, if_neg htext, u.streamNum_text, if_neg hip]
  split_ifs <;> rfl

theorem id_inj (ip segment segment' : String) :
    ip ++ "/" ++ segment = ip ++ "/" ++ segment' ↔ segment = segment' := by
  rw [← String.toList_inj, String.toList_append, String.toList_append (t := segment'),
    List.append_cancel_left_eq, String.toList_inj]

/-- **The id of an item**, in both stores. -/
theorem assigned_iff {item : Json} {u : StreamUrl} (h : Carries item u) (cameraId : String) :
    Assigned item cameraId ↔ cameraIdOf u.text u.ip = cameraId := by
  obtain ⟨type, htype⟩ := h.type
  obtain ⟨isOnline, honline⟩ := h.isOnline
  have hip : u.ip ≠ "" := fun hh => u.ip_dotted.chars.1 (by rw [hh]; rfl)
  have hid : cameraIdOf u.text u.ip ≠ "" := by
    rw [cameraIdOf_text]
    split_ifs <;> simp [StreamUrl.cameraId]
  have hcamera : CameraStore.readItem item = .ok (some (⟨u.ip ++ " (" ++ type ++ ")", type,
      isOnline, cameraIdOf u.text u.ip, .zero⟩, u.text)) := by
    unfold CameraStore.readItem
    rw [h.isObject, h.sourceUrl, htype, honline, h.ip]
    exact if_neg hid
  have hdevice : DeviceStore.readCamera item =
      .ok (some ⟨u.ip, cameraIdOf u.text u.ip, type, isOnline⟩) := by
    unfold DeviceStore.readCamera
    rw [h.isObject, h.ip, h.sourceUrl, htype, honline]
    exact if_neg hip
  unfold Assigned
  rw [hcamera, hdevice]
  constructor
  · rintro ⟨⟨e, he, rfl⟩, -⟩
    rw [← Option.some.inj (Except.ok.inj he)]
  · rintro rfl
    exact ⟨⟨_, rfl, rfl⟩, _, rfl, rfl⟩

theorem cameraIdOf_eq_iff (u : StreamUrl) : cameraIdOf u.text u.ip = u.cameraId ↔ u.NumberEnds := by
  rw [cameraIdOf_text, StreamUrl.NumberEnds]
  by_cases hrest : u.rest.isSome = true
  · rw [if_pos hrest]
    exact iff_of_true rfl (.inl hrest)
  · have hzero : u.ip ++ "/0" = u.ip ++ "/" ++ "0" := by
      rw [String.append_assoc]
      rfl
    rw [if_neg hrest, or_iff_right hrest, hzero, StreamUrl.cameraId, id_inj]
    exact eq_comm

/-- **Camera ids, exactly.** Items get the ids of their streams, and different streams different
ones, if and only if every stream number but `0` is followed by a slash. -/
theorem camera_id_iff (items : List Json) :
    IdsDerived items ↔ ∀ item ∈ items, ∀ u, Carries item u → u.NumberEnds := by
  constructor
  · rintro ⟨hown, -⟩ item hi u hu
    exact (cameraIdOf_eq_iff u).mp ((assigned_iff hu _).mp (hown item hi u hu))
  · intro hends
    refine ⟨fun item hi u hu => ?_, fun item hi item' hi' u u' hu hu' hip hne cameraId => ?_⟩
    · exact (assigned_iff hu _).mpr ((cameraIdOf_eq_iff u).mpr (hends item hi u hu))
    · rintro ⟨ha, ha'⟩
      have hid := (cameraIdOf_eq_iff u).mpr (hends item hi u hu)
      have hid' := (cameraIdOf_eq_iff u').mpr (hends item' hi' u' hu')
      have hsame : u.cameraId = u'.cameraId := by
        rw [← hid, ← hid', (assigned_iff hu _).mp ha, (assigned_iff hu' _).mp ha']
      rw [StreamUrl.cameraId, StreamUrl.cameraId, hip, id_inj] at hsame
      exact hne hsame

/-- A stream of `10.0.0.1` with nothing after its number. -/
def sampleUrl (segment : String) (hne : segment ≠ "") (hslash : '/' ∉ segment.toList) :
    StreamUrl where
  scheme := "rtsp"
  userinfo := some "admin:10.0.0.1"
  ip := "10.0.0.1"
  port := some "554"
  segment := segment
  rest := none
  scheme_letters := List.all_eq_true.mp (by decide)
  userinfo_noSlash := by simp
  ip_dotted := ⟨['1', '0'], ['0'], ['0'], ['1'], by simp, by decide⟩
  port_noSlash := by simp
  segment_ne := hne
  segment_noSlash := hslash

def sampleItem (u : StreamUrl) : Json :=
  .object [("ip", .string u.ip), ("is_online", .bool true), ("source_url", .string u.text)]

theorem carries_sampleItem (u : StreamUrl) : Carries (sampleItem u) u :=
  ⟨rfl, rfl, rfl, ⟨"", rfl⟩, true, rfl⟩

/-- **Two streams, one id.** Their numbers end the URLs. -/
theorem camera_id_fails : ¬ IdsDerived
    [sampleItem (sampleUrl "1" (by decide) (by decide)),
      sampleItem (sampleUrl "2" (by decide) (by decide))] := by
  rintro ⟨-, hdistinct⟩
  refine hdistinct _ List.mem_cons_self _ (List.mem_cons_of_mem _ List.mem_cons_self) _ _
    (carries_sampleItem _) (carries_sampleItem _) rfl (by decide) "10.0.0.1/0" ⟨?_, ?_⟩
  · exact (assigned_iff (carries_sampleItem _) _).mpr (by decide +kernel)
  · exact (assigned_iff (carries_sampleItem _) _).mpr (by decide +kernel)

end Domain

end AnoMap
