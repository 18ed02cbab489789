import AnoMap.Lib.Json
import AnoMap.Lib.KeyMap
import AnoMap.Lib.Tiling

/-!
# Cameras

The camera store, what it hands to the model, and the kinds of split.

* `cameraIdOf`: the id of a stream, from its source URL and the address of its device.
* `CameraStore.updateFromJson`, `snapshot`, `updateDeviceInfo`, `updateAiInfo`, `getCameraStruct`,
  `clear`: the operations of the store. An update takes the parsed text; it returns the new store
  and how the call ends.
* `ListsCamera`: a list with an entry that has a camera id; `updateFromJson_cameras`: no other
  list makes the store hand on an entry.
* `updateFromJson_snd`: what an update hands on does not depend on the store.
* `listed`: the entries of an accepted list with their URLs; `updateFromJson_listed`: what the update
  makes of them.
* `setSourceUrls_eq_self_iff`, `entriesBefore`, `readItems_fst`: what a list that throws has put
  into the table.
-/

set_option autoImplicit false

namespace AnoMap

namespace Domain

/-- A `double`, in exact arithmetic. -/
abbrev Double := ℚ

structure DeviceInfo where
  hum : Double
  light : Double
  tilt : Double
  tmp : Double
  deriving DecidableEq, Repr

namespace DeviceInfo

/-- The default: every field `0.0`. -/
def zero : DeviceInfo := ⟨0, 0, 0, 0⟩

end DeviceInfo

structure CameraData where
  title : String
  cameraType : String
  isOnline : Bool
  cameraId : String
  deviceInfo : DeviceInfo
  deriving DecidableEq, Repr

structure AiInfo where
  img : List String
  personCount : List ℤ
  deriving DecidableEq, Repr

structure CameraStruct where
  deviceInfo : DeviceInfo
  aiInfo : AiInfo
  sourceUrl : String
  deriving DecidableEq, Repr

/-- `CameraStruct{}`. -/
instance : Inhabited CameraStruct := ⟨⟨.zero, ⟨[], []⟩, ""⟩⟩

inductive SplitDirection where
  | none | col | row | grid
  deriving DecidableEq, Repr

/-- How an update of a store ends: by an exception, or with the snapshot its callback is called
with, if it is called. -/
abbrev Outcome (δ : Type) := Except TypeError (Option δ)

/-- What follows the first `needle` in a text. -/
def afterFirst (needle : List Char) : List Char → Option (List Char)
  | [] => if needle = [] then some [] else none
  | c :: cs =>
    if needle.isPrefixOf (c :: cs) then some ((c :: cs).drop needle.length)
    else afterFirst needle cs

/-- The text between the first two slashes after the address. -/
def streamNum (sourceUrl ip : String) : Option String :=
  match afterFirst ip.toList sourceUrl.toList with
  | none => none
  | some rest =>
    match rest.dropWhile (· ≠ '/') with
    | [] | [_] => none
    | _ :: rest => if '/' ∈ rest then some (String.ofList (rest.takeWhile (· ≠ '/'))) else none

/-- The camera id of a list item, empty when it has neither a usable URL nor an address. -/
def cameraIdOf (sourceUrl ip : String) : String :=
  match if sourceUrl = "" then none else streamNum sourceUrl ip with
  | some num => ip ++ "/" ++ num
  | none => if ip = "" then "" else ip ++ "/0"

structure CameraStore where
  data : List CameraData
  table : KeyMap String CameraStruct

namespace CameraStore

def empty : CameraStore := ⟨[], ∅⟩

/-- One item of the list: the entry and its source URL, none when the item is skipped. -/
def readItem (item : Json) : Except TypeError (Option (CameraData × String)) := do
  if item.isObject = false then return none
  let sourceUrl ← item.value "source_url" ""
  let cameraType ← item.value "type" ""
  let isOnline ← item.value "is_online" false
  let ip ← item.value "ip" ""
  let cameraId := cameraIdOf sourceUrl ip
  if cameraId = "" then return none
  return some (⟨ip ++ " (" ++ cameraType ++ ")", cameraType, isOnline, cameraId, .zero⟩, sourceUrl)

/-- `table_[cameraId].sourceUrl = sourceUrl`. -/
def setSourceUrl (table : KeyMap String CameraStruct) (cameraId sourceUrl : String) :
    KeyMap String CameraStruct :=
  table.set cameraId { table.getD cameraId with sourceUrl := sourceUrl }

/-- The loop over the items. -/
def readItems : List Json → KeyMap String CameraStruct → List CameraData →
    KeyMap String CameraStruct × Except TypeError (List CameraData)
  | [], table, newData => (table, .ok newData)
  | item :: items, table, newData =>
    match readItem item with
    | .error e => (table, .error e)
    | .ok none => readItems items table newData
    | .ok (some (d, sourceUrl)) =>
      readItems items (setSourceUrl table d.cameraId sourceUrl) (newData ++ [d])

def updateFromJson (s : CameraStore) (parsed : Json) : CameraStore × Outcome (List CameraData) :=
  match parsed with
  | .array items =>
    match readItems items s.table [] with
    | (table, .error e) => ({ s with table := table }, .error e)
    | (table, .ok newData) => (⟨newData, table⟩, .ok (some newData))
  | _ => (s, .ok none)

def snapshot (s : CameraStore) : List CameraData :=
  s.data.map fun d =>
    match s.table.get? d.cameraId with
    | some c => { d with deviceInfo := c.deviceInfo }
    | none => d

def updateDeviceInfo (s : CameraStore) (cameraId : String) (info : DeviceInfo) : CameraStore :=
  { s with table := s.table.set cameraId { s.table.getD cameraId with deviceInfo := info } }

def updateAiInfo (s : CameraStore) (cameraId : String) (info : AiInfo) : CameraStore :=
  { s with table := s.table.set cameraId { s.table.getD cameraId with aiInfo := info } }

def getCameraStruct (s : CameraStore) (cameraId : String) : CameraStruct := s.table.getD cameraId

theorem getCameraStruct_updateDeviceInfo (s : CameraStore) (cameraId id : String)
    (info : DeviceInfo) : (s.updateDeviceInfo cameraId info).getCameraStruct id =
      if id = cameraId then { s.getCameraStruct id with deviceInfo := info }
      else s.getCameraStruct id := by
  rw [updateDeviceInfo, getCameraStruct, KeyMap.getD_set]
  split_ifs with h
  · rw [h]; rfl
  · rfl

theorem getCameraStruct_updateAiInfo (s : CameraStore) (cameraId id : String) (info : AiInfo) :
    (s.updateAiInfo cameraId info).getCameraStruct id =
      if id = cameraId then { s.getCameraStruct id with aiInfo := info }
      else s.getCameraStruct id := by
  rw [updateAiInfo, getCameraStruct, KeyMap.getD_set]
  split_ifs with h
  · rw [h]; rfl
  · rfl

/-- A list all of whose items read well and one of which gives an entry. -/
def ListsCamera (parsed : Json) : Prop :=
  ∃ items, parsed = .array items ∧ (∀ item ∈ items, ∃ r, readItem item = .ok r) ∧
    ∃ item ∈ items, ∃ e, readItem item = .ok (some e)

theorem readItems_ok {items : List Json} {table table' : KeyMap String CameraStruct}
    {newData out : List CameraData} (h : readItems items table newData = (table', .ok out)) :
    (∀ item ∈ items, ∃ r, readItem item = .ok r) ∧
      (newData ≠ out → ∃ item ∈ items, ∃ e, readItem item = .ok (some e)) := by
  induction items generalizing table newData with
  | nil =>
    obtain rfl : newData = out := Except.ok.inj (Prod.mk.inj h).2
    exact ⟨fun item hi => absurd hi List.not_mem_nil, fun hne => absurd rfl hne⟩
  | cons item items ih =>
    unfold readItems at h
    cases hr : readItem item with
    | error e =>
      rw [hr] at h
      cases (Prod.mk.inj h).2
    | ok r =>
      rw [hr] at h
      cases r with
      | none =>
        obtain ⟨hall, hex⟩ := ih h
        refine ⟨List.forall_mem_cons.mpr ⟨⟨none, hr⟩, hall⟩, fun hne => ?_⟩
        obtain ⟨item', hi, he⟩ := hex hne
        exact ⟨item', List.mem_cons_of_mem item hi, he⟩
      | some e =>
        exact ⟨List.forall_mem_cons.mpr ⟨⟨some e, hr⟩, (ih h).1⟩,
          fun _ => ⟨item, List.mem_cons_self, e, hr⟩⟩

/-- **No entries.** A text that lists no camera makes the store hand on no entry. -/
theorem updateFromJson_cameras {s : CameraStore} {parsed : Json} {data : List CameraData}
    (hl : ¬ ListsCamera parsed) (h : (s.updateFromJson parsed).2 = .ok (some data)) :
    data = [] := by
  unfold updateFromJson at h
  split at h
  · next items =>
    split at h
    · cases h
    · next table newData hr =>
      obtain rfl : newData = data := Option.some.inj (Except.ok.inj h)
      obtain ⟨hall, hex⟩ := readItems_ok hr
      by_contra hne
      exact hl ⟨items, rfl, hall, hex fun he => hne he.symm⟩
  · cases h

theorem readItems_snd (items : List Json) (table table' : KeyMap String CameraStruct)
    (newData : List CameraData) :
    (readItems items table newData).2 = (readItems items table' newData).2 := by
  induction items generalizing table table' newData with
  | nil => rfl
  | cons item items ih =>
    unfold readItems
    cases readItem item with
    | error e => rfl
    | ok r =>
      cases r with
      | none => exact ih table table' newData
      | some e => exact ih _ _ _

/-- **Snapshots.** What an update hands on comes from the text alone. -/
theorem updateFromJson_snd (s s' : CameraStore) (parsed : Json) :
    (s.updateFromJson parsed).2 = (s'.updateFromJson parsed).2 := by
  cases parsed with
  | array items =>
    have h := readItems_snd items s.table s'.table []
    unfold updateFromJson
    dsimp only
    cases hr : readItems items s.table [] with
    | mk table r =>
    cases hr' : readItems items s'.table [] with
    | mk table' r' =>
      rw [hr, hr'] at h
      obtain rfl : r = r' := h
      cases r <;> rfl
  | _ => rfl

/-! ## Accepted lists -/

/-- The entries of the items with their URLs, those skipped left out. -/
def listedItems : List Json → Except TypeError (List (CameraData × String))
  | [] => .ok []
  | item :: items =>
    match readItem item with
    | .error e => .error e
    | .ok r => (listedItems items).map (r.toList ++ ·)

/-- The entries of an accepted list. -/
def listed : Json → Option (List (CameraData × String))
  | .array items => (listedItems items).toOption
  | _ => none

theorem cameraId_readItem {item : Json} {e : CameraData × String}
    (h : readItem item = .ok (some e)) : e.1.cameraId ≠ "" := by
  unfold readItem at h
  by_cases ho : item.isObject = false
  · rw [if_pos ho] at h
    cases Except.ok.inj h
  · rw [if_neg ho] at h
    simp only [Json.bind_eq_ok] at h
    obtain ⟨sourceUrl, -, cameraType, -, isOnline, -, ip, -, h⟩ := h
    by_cases hid : cameraIdOf sourceUrl ip = ""
    · rw [if_pos hid] at h
      cases Except.ok.inj h
    · rw [if_neg hid] at h
      cases Option.some.inj (Except.ok.inj h)
      exact hid

theorem cameraId_of_mem_listedItems {items : List Json} {es : List (CameraData × String)}
    (h : listedItems items = .ok es) : ∀ e ∈ es, e.1.cameraId ≠ "" := by
  induction items generalizing es with
  | nil =>
    cases h
    exact nofun
  | cons item items ih =>
    rw [listedItems] at h
    cases hr : readItem item with
    | error e =>
      rw [hr] at h
      cases h
    | ok r =>
      rw [hr] at h
      cases hi : listedItems items with
      | error e =>
        rw [hi] at h
        cases h
      | ok es' =>
        rw [hi] at h
        cases h
        rw [List.forall_mem_append]
        refine ⟨fun e he => ?_, ih hi⟩
        obtain rfl := Option.mem_toList.mp he
        exact cameraId_readItem hr

theorem cameraId_of_mem_listed {parsed : Json} {es : List (CameraData × String)}
    (h : listed parsed = some es) : ∀ e ∈ es, e.1.cameraId ≠ "" := by
  cases parsed with
  | array items =>
    cases hi : listedItems items with
    | error e =>
      rw [listed, hi] at h
      cases h
    | ok es' =>
      rw [listed, hi] at h
      cases h
      exact cameraId_of_mem_listedItems hi
  | _ => cases h

/-- The URLs of some entries are put into the table. -/
def setSourceUrls (table : KeyMap String CameraStruct) (es : List (CameraData × String)) :
    KeyMap String CameraStruct :=
  es.foldl (fun table e => setSourceUrl table e.1.cameraId e.2) table

theorem readItems_listed {items : List Json} {es : List (CameraData × String)}
    (h : listedItems items = .ok es) (table : KeyMap String CameraStruct)
    (newData : List CameraData) :
    readItems items table newData = (setSourceUrls table es, .ok (newData ++ es.map Prod.fst)) := by
  induction items generalizing es table newData with
  | nil =>
    cases h
    rw [readItems, List.map_nil, List.append_nil]
    rfl
  | cons item items ih =>
    rw [listedItems] at h
    cases hr : readItem item with
    | error e =>
      rw [hr] at h
      cases h
    | ok r =>
      rw [hr] at h
      obtain ⟨es', he, rfl⟩ : ∃ es', listedItems items = .ok es' ∧ r.toList ++ es' = es := by
        cases hi : listedItems items with
        | error e =>
          rw [hi] at h
          cases h
        | ok es' =>
          rw [hi] at h
          exact ⟨es', rfl, Except.ok.inj h⟩
      cases r with
      | none =>
        rw [readItems, hr]
        exact ih he table newData
      | some e =>
        rw [readItems, hr]
        show readItems items _ (newData ++ [e.1]) = _
        rw [ih he, List.append_assoc]
        rfl

theorem readItems_not_listed {items : List Json} {e : TypeError}
    (h : listedItems items = .error e) (table : KeyMap String CameraStruct)
    (newData : List CameraData) : (readItems items table newData).2 = .error e := by
  induction items generalizing table newData with
  | nil => cases h
  | cons item items ih =>
    rw [listedItems] at h
    cases hr : readItem item with
    | error e' =>
      rw [hr] at h
      rw [readItems, hr]
      exact congrArg _ (Except.error.inj h)
    | ok r =>
      rw [hr] at h
      have he : listedItems items = .error e := by
        cases hi : listedItems items with
        | error e' =>
          rw [hi] at h
          exact congrArg _ (Except.error.inj h)
        | ok es =>
          rw [hi] at h
          cases h
      cases r with
      | none =>
        rw [readItems, hr]
        exact ih he table newData
      | some e' =>
        rw [readItems, hr]
        exact ih he _ _

/-- **An accepted list** replaces the entries and puts its URLs into the table. -/
theorem updateFromJson_listed {parsed : Json} {es : List (CameraData × String)}
    (h : listed parsed = some es) (s : CameraStore) : s.updateFromJson parsed =
      (⟨es.map Prod.fst, setSourceUrls s.table es⟩, .ok (some (es.map Prod.fst))) := by
  cases parsed with
  | array items =>
    cases hi : listedItems items with
    | error e =>
      rw [listed, hi] at h
      cases h
    | ok es' =>
      rw [listed, hi] at h
      cases h
      rw [updateFromJson, readItems_listed hi]
      rfl
  | _ => cases h

/-- Any other text hands nothing on: it ends in an exception, or leaves the store as it was. -/
theorem updateFromJson_not_listed {parsed : Json} (h : listed parsed = none) (s : CameraStore) :
    (∃ e, (s.updateFromJson parsed).2 = .error e) ∨ s.updateFromJson parsed = (s, .ok none) := by
  cases parsed with
  | array items =>
    cases hi : listedItems items with
    | error e =>
      refine Or.inl ⟨e, ?_⟩
      have hr := readItems_not_listed hi s.table []
      rw [updateFromJson]
      cases hread : readItems items s.table [] with
      | mk table r =>
        rw [hread] at hr
        obtain rfl : r = .error e := hr
        rfl
    | ok es =>
      rw [listed, hi] at h
      cases h
  | _ => exact Or.inr rfl

/-- The last entry of a camera. -/
def lastListed (es : List (CameraData × String)) (cameraId : String) :
    Option (CameraData × String) :=
  es.reverse.find? fun e => e.1.cameraId = cameraId

theorem lastListed_concat (es : List (CameraData × String)) (e : CameraData × String)
    (cameraId : String) : lastListed (es ++ [e]) cameraId =
      if e.1.cameraId = cameraId then some e else lastListed es cameraId := by
  unfold lastListed
  rw [List.reverse_append, List.reverse_singleton, List.singleton_append, List.find?_cons]
  by_cases h : e.1.cameraId = cameraId <;> simp [h]

theorem get?_setSourceUrls (table : KeyMap String CameraStruct) (es : List (CameraData × String))
    (cameraId : String) : (setSourceUrls table es).get? cameraId =
      match lastListed es cameraId with
      | some e => some { table.getD cameraId with sourceUrl := e.2 }
      | none => table.get? cameraId := by
  induction es using List.reverseRecOn with
  | nil => rfl
  | append_singleton es e ih =>
    rw [setSourceUrls, List.foldl_append, lastListed_concat, List.foldl_cons, List.foldl_nil,
      setSourceUrl, KeyMap.get?_set]
    by_cases h : e.1.cameraId = cameraId
    · rw [if_pos h, if_pos h.symm]
      subst h
      have hget : (es.foldl (fun table e => setSourceUrl table e.1.cameraId e.2) table).get?
          e.1.cameraId = _ := ih
      rw [KeyMap.getD, hget]
      cases lastListed es e.1.cameraId <;> rfl
    · rw [if_neg h, if_neg (Ne.symm h)]
      exact ih

theorem sourceUrl_setSourceUrls (table : KeyMap String CameraStruct)
    (es : List (CameraData × String)) (cameraId : String) :
    ((setSourceUrls table es).getD cameraId).sourceUrl =
      ((lastListed es cameraId).map Prod.snd).getD (table.getD cameraId).sourceUrl := by
  rw [KeyMap.getD, get?_setSourceUrls]
  cases lastListed es cameraId <;> rfl

theorem setSourceUrls_eq_self_iff {table : KeyMap String CameraStruct}
    {es : List (CameraData × String)} : setSourceUrls table es = table ↔
      ∀ cameraId e, lastListed es cameraId = some e →
        ∃ c, table.get? cameraId = some c ∧ c.sourceUrl = e.2 := by
  constructor
  · intro h cameraId e he
    have hget := get?_setSourceUrls table es cameraId
    rw [h, he] at hget
    exact ⟨_, hget, rfl⟩
  · intro h
    refine Finmap.ext_lookup fun cameraId => ?_
    have hget := get?_setSourceUrls table es cameraId
    cases hl : lastListed es cameraId with
    | none =>
      rw [hl] at hget
      exact hget
    | some e =>
      obtain ⟨c, hc, hurl⟩ := h cameraId e hl
      have hsame : { table.getD cameraId with sourceUrl := e.2 } = c := by
        rw [KeyMap.getD, hc, ← hurl]
        rfl
      rw [hl] at hget
      exact hget.trans ((congrArg some hsame).trans hc.symm)

/-! ## Lists that throw -/

/-- The entries up to the first item that throws. -/
def entriesBefore : List Json → List (CameraData × String)
  | [] => []
  | item :: items =>
    match readItem item with
    | .error _ => []
    | .ok r => r.toList ++ entriesBefore items

/-- **The table of a call**, whether it throws or not, has the URLs up to the item that throws. -/
theorem readItems_fst (items : List Json) (table : KeyMap String CameraStruct)
    (newData : List CameraData) :
    (readItems items table newData).1 = setSourceUrls table (entriesBefore items) := by
  induction items generalizing table newData with
  | nil => rfl
  | cons item items ih =>
    rw [readItems, entriesBefore]
    cases readItem item with
    | error e => rfl
    | ok r =>
      cases r with
      | none => exact ih table newData
      | some e => exact ih _ _

end CameraStore

end Domain

end AnoMap
