import AnoMap.Lib.Json
import AnoMap.Lib.KeyMap
import AnoMap.Lib.Machine

/-!
# Settings

`SettingsController` keeps the settings of the window in a `QSettings`, and reads the others from
`Settings.json`. The window saves after every change. `QString::toInt` is a parameter.

* `load`, `save` and the setters; `Installation`, `step`: changes and restarts, over one file.
* `Alike`: the same settings, all but the default resolution, which is never saved.
* `Stored`: what is in memory is what a start would load.
* **`restarts_invisible`**: a run and the one without its restarts end with the same settings, and
  every restart takes the default resolution back to the one the first start found.
-/

set_option autoImplicit false

namespace AnoMap

namespace Controllers

/-- The texts of a settings file. -/
abbrev QSettings := KeyMap String String

/-- `QVariant::toBool` of a text. -/
def textBool (s : String) : Bool := s.toLower ∉ ["", "0", "false"]

/-- The text a bool is stored as. -/
def boolText (b : Bool) : String := if b then "true" else "false"

theorem textBool_boolText (b : Bool) : textBool (boolText b) = b := by
  cases b <;> decide +kernel

/-- `QJsonValue::toString`: the empty text for anything that is no text. -/
def jsonText : Json → String
  | .string s => s
  | _ => ""

/-- `QJsonValue::toArray`. -/
def jsonArray : Json → List Json
  | .array items => items
  | _ => []

structure SettingsController where
  darkMode : Bool
  alarmSound : Bool
  defaultGrid : Int32
  logLevel : String
  resolutions : List String
  defaultResolution : String
  serverIp : String
  fps : Int32
  deriving DecidableEq

namespace SettingsController

/-- The member initialisers. -/
def new : SettingsController := ⟨true, true, 4, "INFO", [], "", "192.168.0.58", 30⟩

def setDarkMode (c : SettingsController) (v : Bool) : SettingsController :=
  if c.darkMode = v then c else { c with darkMode := v }

def setAlarmSound (c : SettingsController) (v : Bool) : SettingsController :=
  if c.alarmSound = v then c else { c with alarmSound := v }

def setDefaultGrid (c : SettingsController) (v : Int32) : SettingsController :=
  if c.defaultGrid = v then c else { c with defaultGrid := v }

def setLogLevel (c : SettingsController) (v : String) : SettingsController :=
  if c.logLevel = v then c else { c with logLevel := v }

def setDefaultResolution (c : SettingsController) (v : String) : SettingsController :=
  if c.defaultResolution = v then c else { c with defaultResolution := v }

def save (c : SettingsController) (s : QSettings) : QSettings :=
  (((s.set "ui/darkMode" (boolText c.darkMode)).set "ui/alarmSound" (boolText c.alarmSound)).set
    "ui/defaultGrid" c.defaultGrid.toInt.repr).set "ui/logLevel" c.logLevel

variable (parseInt : String → Int32)

/-- What is read from the `QSettings` first. -/
def loadSettings (s : QSettings) (c : SettingsController) : SettingsController :=
  { c with
    darkMode := (s.get? "ui/darkMode").elim false textBool
    alarmSound := (s.get? "ui/alarmSound").elim true textBool
    defaultGrid := (s.get? "ui/defaultGrid").elim 4 parseInt
    logLevel := (s.get? "ui/logLevel").getD "INFO" }

/-- What is read from the object in `Settings.json`. -/
def loadJson (members : List (String × Json)) (c : SettingsController) : SettingsController :=
  let c := match members.lookup "ServerIP" with
    | some v => { c with serverIp := jsonText v }
    | none => c
  let c := match members.lookup "FPS" with
    | some v => { c with fps := if parseInt (jsonText v) ≤ 0 then 30 else parseInt (jsonText v) }
    | none => c
  match members.lookup "Resolution" with
  | some v => { c with resolutions := (jsonArray v).map jsonText }
  | none => c

/-- `file`: what `Settings.json` parses to, if it is there. -/
def loadFile (file : Option Json) (c : SettingsController) : SettingsController :=
  match file with
  | some (.object members) => c.loadJson parseInt members
  | _ => c

/-- The stored default resolution, or the first of the list; the first where it is not listed. -/
def resolutionOf (s : QSettings) (resolutions : List String) : String :=
  let resolution := (s.get? "ui/defaultResolution").getD (resolutions.headD "192.168.0.58")
  if resolution ∉ resolutions ∧ resolutions ≠ [] then resolutions.headD "" else resolution

def load (file : Option Json) (s : QSettings) (c : SettingsController) : SettingsController :=
  let c := (c.loadSettings parseInt s).loadFile parseInt file
  { c with defaultResolution := resolutionOf s c.resolutions }

end SettingsController

/-- The settings file and the running program. -/
structure Installation where
  settings : QSettings
  app : SettingsController

namespace Installation

inductive Event where
  | darkMode (v : Bool)
  | alarmSound (v : Bool)
  | defaultGrid (v : Int32)
  | logLevel (v : String)
  | defaultResolution (v : String)
  | restart
  deriving DecidableEq

variable (parseInt : String → Int32) (file : Option Json)

/-- A start of the program. -/
def start (settings : QSettings) : Installation :=
  ⟨settings, SettingsController.new.load parseInt file settings⟩

/-- A change in the window is followed by `save`. -/
def changed (t : Installation) (app : SettingsController) : Installation :=
  ⟨app.save t.settings, app⟩

def step (t : Installation) : Event → Installation × List Empty
  | .darkMode v => (t.changed (t.app.setDarkMode v), [])
  | .alarmSound v => (t.changed (t.app.setAlarmSound v), [])
  | .defaultGrid v => (t.changed (t.app.setDefaultGrid v), [])
  | .logLevel v => (t.changed (t.app.setLogLevel v), [])
  | .defaultResolution v => (t.changed (t.app.setDefaultResolution v), [])
  | .restart => (start parseInt file t.settings, [])

end Installation

/-! ## What is saved and what is not -/

namespace SettingsController

/-- The settings that are saved. -/
def kept (c : SettingsController) : Bool × Bool × Int32 × String :=
  (c.darkMode, c.alarmSound, c.defaultGrid, c.logLevel)

/-- The settings of `Settings.json`. -/
def filed (c : SettingsController) : List String × String × Int32 :=
  (c.resolutions, c.serverIp, c.fps)

/-- The same settings, all but the default resolution. -/
def Alike (c c' : SettingsController) : Prop := c.kept = c'.kept ∧ c.filed = c'.filed

theorem Alike.trans {c c' c'' : SettingsController} (h : c.Alike c') (h' : c'.Alike c'') :
    c.Alike c'' := ⟨h.1.trans h'.1, h.2.trans h'.2⟩

theorem Alike.symm {c c' : SettingsController} (h : c.Alike c') : c'.Alike c :=
  ⟨h.1.symm, h.2.symm⟩

@[simp] theorem kept_setDarkMode (c : SettingsController) (v : Bool) :
    (c.setDarkMode v).kept = (v, c.kept.2) := by
  unfold setDarkMode
  split_ifs with h
  · rw [← h]; rfl
  · rfl

@[simp] theorem kept_setAlarmSound (c : SettingsController) (v : Bool) :
    (c.setAlarmSound v).kept = (c.kept.1, v, c.kept.2.2) := by
  unfold setAlarmSound
  split_ifs with h
  · rw [← h]; rfl
  · rfl

@[simp] theorem kept_setDefaultGrid (c : SettingsController) (v : Int32) :
    (c.setDefaultGrid v).kept = (c.kept.1, c.kept.2.1, v, c.kept.2.2.2) := by
  unfold setDefaultGrid
  split_ifs with h
  · rw [← h]; rfl
  · rfl

@[simp] theorem kept_setLogLevel (c : SettingsController) (v : String) :
    (c.setLogLevel v).kept = (c.kept.1, c.kept.2.1, c.kept.2.2.1, v) := by
  unfold setLogLevel
  split_ifs with h
  · rw [← h]; rfl
  · rfl

@[simp] theorem kept_setDefaultResolution (c : SettingsController) (v : String) :
    (c.setDefaultResolution v).kept = c.kept := by
  unfold setDefaultResolution
  split_ifs <;> rfl

@[simp] theorem filed_setDarkMode (c : SettingsController) (v : Bool) :
    (c.setDarkMode v).filed = c.filed := by
  unfold setDarkMode
  split_ifs <;> rfl

@[simp] theorem filed_setAlarmSound (c : SettingsController) (v : Bool) :
    (c.setAlarmSound v).filed = c.filed := by
  unfold setAlarmSound
  split_ifs <;> rfl

@[simp] theorem filed_setDefaultGrid (c : SettingsController) (v : Int32) :
    (c.setDefaultGrid v).filed = c.filed := by
  unfold setDefaultGrid
  split_ifs <;> rfl

@[simp] theorem filed_setLogLevel (c : SettingsController) (v : String) :
    (c.setLogLevel v).filed = c.filed := by
  unfold setLogLevel
  split_ifs <;> rfl

@[simp] theorem filed_setDefaultResolution (c : SettingsController) (v : String) :
    (c.setDefaultResolution v).filed = c.filed := by
  unfold setDefaultResolution
  split_ifs <;> rfl

theorem get?_save (c : SettingsController) (s : QSettings) {key : String}
    (hkey : key ∉ ["ui/darkMode", "ui/alarmSound", "ui/defaultGrid", "ui/logLevel"]) :
    (c.save s).get? key = s.get? key := by
  simp only [List.mem_cons, List.not_mem_nil, or_false, not_or] at hkey
  obtain ⟨h₁, h₂, h₃, h₄⟩ := hkey
  unfold save
  rw [KeyMap.get?_set_ne _ _ h₄, KeyMap.get?_set_ne _ _ h₃, KeyMap.get?_set_ne _ _ h₂,
    KeyMap.get?_set_ne _ _ h₁]

variable (parseInt : String → Int32) (file : Option Json)

theorem kept_loadJson (members : List (String × Json)) (c : SettingsController) :
    (c.loadJson parseInt members).kept = c.kept := by
  unfold loadJson
  cases members.lookup "ServerIP" <;> cases members.lookup "FPS" <;>
    cases members.lookup "Resolution" <;> rfl

theorem kept_load (s : QSettings) (c : SettingsController) :
    (c.load parseInt file s).kept = (c.loadSettings parseInt s).kept := by
  unfold load loadFile
  cases file with
  | none => rfl
  | some json =>
    cases json with
    | object members => exact kept_loadJson parseInt members _
    | _ => rfl

theorem filed_loadJson (members : List (String × Json)) {c c' : SettingsController}
    (h : c.filed = c'.filed) :
    (c.loadJson parseInt members).filed = (c'.loadJson parseInt members).filed := by
  obtain ⟨h₁, h₂, h₃⟩ :
      c.resolutions = c'.resolutions ∧ c.serverIp = c'.serverIp ∧ c.fps = c'.fps := by
    simpa [filed] using h
  unfold loadJson
  cases members.lookup "ServerIP" <;> cases members.lookup "FPS" <;>
    cases members.lookup "Resolution" <;> simp [filed, h₁, h₂, h₃]

theorem filed_load (s s' : QSettings) (c : SettingsController) :
    (c.load parseInt file s).filed = (c.load parseInt file s').filed := by
  unfold load loadFile
  cases file with
  | none => rfl
  | some json =>
    cases json with
    | object members =>
      have h : (c.loadSettings parseInt s).filed = (c.loadSettings parseInt s').filed := rfl
      exact filed_loadJson parseInt members h
    | _ => rfl

theorem defaultResolution_load {s s' : QSettings}
    (h : s.get? "ui/defaultResolution" = s'.get? "ui/defaultResolution") (c : SettingsController) :
    (c.load parseInt file s).defaultResolution = (c.load parseInt file s').defaultResolution := by
  have hlist : (c.load parseInt file s).resolutions = (c.load parseInt file s').resolutions :=
    congrArg Prod.fst (filed_load parseInt file s s' c)
  calc (c.load parseInt file s).defaultResolution
      = resolutionOf s (c.load parseInt file s).resolutions := rfl
    _ = resolutionOf s' (c.load parseInt file s').resolutions := by
      unfold resolutionOf
      rw [hlist, h]
    _ = (c.load parseInt file s').defaultResolution := rfl

/-- The default resolution a start finds is one of those `Settings.json` lists, if it lists any. -/
theorem defaultResolution_mem (s : QSettings) (c : SettingsController)
    (h : (c.load parseInt file s).resolutions ≠ []) :
    (c.load parseInt file s).defaultResolution ∈ (c.load parseInt file s).resolutions := by
  change resolutionOf s (c.load parseInt file s).resolutions ∈ _
  generalize (c.load parseInt file s).resolutions = resolutions at h
  unfold resolutionOf
  cases resolutions with
  | nil => exact absurd rfl h
  | cons first rest =>
    dsimp only
    split_ifs with hnot
    · exact List.mem_cons_self
    · by_contra hmem
      exact hnot ⟨hmem, h⟩

theorem fps_loadJson (members : List (String × Json)) {c : SettingsController} (h : 0 < c.fps) :
    0 < (c.loadJson parseInt members).fps := by
  have hread : ∀ n : Int32, 0 < if n ≤ 0 then 30 else n := by
    intro n
    split_ifs with hn
    · decide
    · exact Int32.not_le.mp hn
  unfold loadJson
  cases members.lookup "ServerIP" <;> cases members.lookup "FPS" <;>
    cases members.lookup "Resolution" <;> first | exact h | exact hread _

theorem fps_load (s : QSettings) {c : SettingsController} (h : 0 < c.fps) :
    0 < (c.load parseInt file s).fps := by
  unfold load loadFile
  cases file with
  | none => exact h
  | some json =>
    cases json with
    | object members => exact fps_loadJson parseInt members (c := c.loadSettings parseInt s) h
    | _ => exact h

theorem kept_load_save {parseInt : String → Int32}
    (hparse : ∀ n : Int32, parseInt n.toInt.repr = n) (c c' : SettingsController) (s : QSettings) :
    (c'.load parseInt file (c.save s)).kept = c.kept := by
  rw [kept_load]
  simp [loadSettings, save, kept, KeyMap.get?_set, textBool_boolText, hparse]

end SettingsController

/-! ## Starts -/

namespace Installation

open SettingsController

variable (parseInt : String → Int32) (file : Option Json)

/-- A start would load what is in memory, and the default resolution is stored as in `s`. -/
structure Stored (s : QSettings) (t : Installation) : Prop where
  loads : (start parseInt file t.settings).app.Alike t.app
  resolution : t.settings.get? "ui/defaultResolution" = s.get? "ui/defaultResolution"

theorem stored_start {s s' : QSettings}
    (h : s'.get? "ui/defaultResolution" = s.get? "ui/defaultResolution") :
    Stored parseInt file s (start parseInt file s') := ⟨⟨rfl, rfl⟩, h⟩

variable {parseInt} (hparse : ∀ n : Int32, parseInt n.toInt.repr = n)

include hparse

theorem Stored.changed {s : QSettings} {t : Installation} (ht : Stored parseInt file s t)
    {app : SettingsController} (hfiled : app.filed = t.app.filed) :
    Stored parseInt file s (t.changed app) where
  loads := by
    constructor
    · exact kept_load_save file hparse app new t.settings
    · calc (start parseInt file (app.save t.settings)).app.filed
          = (start parseInt file t.settings).app.filed := filed_load parseInt file _ _ new
        _ = t.app.filed := ht.loads.2
        _ = app.filed := hfiled.symm
  resolution := (get?_save app t.settings (by decide)).trans ht.resolution

/-- **Step.** A change is stored, and a restart finds what was stored. -/
theorem Stored.step {s : QSettings} {t : Installation} (ht : Stored parseInt file s t) (e : Event) :
    Stored parseInt file s (step parseInt file t e).1 := by
  cases e with
  | darkMode v => exact ht.changed file hparse (filed_setDarkMode t.app v)
  | alarmSound v => exact ht.changed file hparse (filed_setAlarmSound t.app v)
  | defaultGrid v => exact ht.changed file hparse (filed_setDefaultGrid t.app v)
  | logLevel v => exact ht.changed file hparse (filed_setLogLevel t.app v)
  | defaultResolution v => exact ht.changed file hparse (filed_setDefaultResolution t.app v)
  | restart => exact stored_start parseInt file ht.resolution

theorem stored_final (s : QSettings) (es : List Event) :
    Stored parseInt file s (Machine.final (step parseInt file) (start parseInt file s) es) :=
  Machine.invariant (step parseInt file) (Stored parseInt file s) (fun _ => True)
    (stored_start parseInt file rfl) (fun _ e _ ht => ht.step file hparse e) es fun _ _ => trivial

omit hparse in
theorem alike_step {t u : Installation} (h : t.app.Alike u.app) {e : Event} (he : e ≠ .restart) :
    (step parseInt file t e).1.app.Alike (step parseInt file u e).1.app := by
  obtain ⟨hkept, hfiled⟩ := h
  cases e with
  | restart => exact absurd rfl he
  | _ => constructor <;> simp [step, changed, hkept, hfiled]

/-- **Run.** The restarts of a run can be left out. -/
theorem alike_final (s : QSettings) (es : List Event) :
    (Machine.final (step parseInt file) (start parseInt file s) es).app.Alike
      (Machine.final (step parseInt file) (start parseInt file s)
        (es.filter (· ≠ .restart))).app := by
  induction es using List.reverseRecOn with
  | nil => exact ⟨rfl, rfl⟩
  | append_singleton es e ih =>
    rw [Machine.final_concat, List.filter_append]
    by_cases he : e = .restart
    · have hstored := stored_final file hparse s es
      rw [he, List.filter_cons_of_neg (by simp), List.filter_nil, List.append_nil]
      exact hstored.loads.trans ih
    · rw [List.filter_cons_of_pos (by simpa using he), List.filter_nil, Machine.final_concat]
      exact alike_step file ih he

/-- **Restarts.** However often the program is started anew, its settings are those of a run without
a restart. Only the default resolution is lost, to the one the first start found. -/
theorem restarts_invisible (s : QSettings) (es : List Event) :
    let t := Machine.final (step parseInt file) (start parseInt file s) es
    let u := Machine.final (step parseInt file) (start parseInt file s)
      (es.filter (· ≠ .restart))
    let anew := (step parseInt file t .restart).1
    t.app.kept = u.app.kept ∧ t.app.filed = u.app.filed ∧ 0 < t.app.fps ∧
      anew.app.kept = t.app.kept ∧
      anew.app.defaultResolution = (start parseInt file s).app.defaultResolution ∧
      (anew.app.resolutions ≠ [] → anew.app.defaultResolution ∈ anew.app.resolutions) := by
  intro t u anew
  have halike := alike_final file hparse s es
  have hstored := stored_final file hparse s es
  have hfps : anew.app.fps = t.app.fps := congrArg (fun f => f.2.2) hstored.loads.2
  refine ⟨halike.1, halike.2, ?_, hstored.loads.1, ?_, ?_⟩
  · rw [← hfps]
    exact fps_load parseInt file t.settings (by decide)
  · exact defaultResolution_load parseInt file hstored.resolution new
  · exact defaultResolution_mem parseInt file t.settings new

omit hparse

/-- A `toInt` that reads decimal texts. -/
def decimal (s : String) : Int32 :=
  if s.toList.head? = some '-' then .ofInt (-(Nat.ofDigitChars 10 s.toList.tail 0 : ℤ))
  else .ofInt (Nat.ofDigitChars 10 s.toList 0)

theorem decimal_natRepr (n : ℕ) : decimal n.repr = .ofInt n := by
  have hhead : (Nat.toDigits 10 n).head? ≠ some '-' := by
    intro h
    have hdigit :=
      Nat.isDigit_of_mem_toDigits (b := 10) (by decide) (by decide) (List.mem_of_head? h)
    exact absurd hdigit (by decide)
  unfold decimal
  rw [Nat.toList_repr, if_neg hhead, Nat.ofDigitChars_ten_toDigits]

theorem decimal_repr (n : Int32) : decimal n.toInt.repr = n := by
  have h : ∀ m : ℤ, decimal m.repr = .ofInt m := by
    intro m
    cases m with
    | ofNat k => exact decimal_natRepr k
    | negSucc k =>
      have htext : (Int.negSucc k).repr.toList = '-' :: Nat.toDigits 10 (k + 1) := by
        rw [Int.repr, String.toList_append, Nat.toList_repr]
        rfl
      unfold decimal
      rw [htext, List.head?_cons, if_pos rfl, List.tail_cons, Nat.ofDigitChars_ten_toDigits]
      rfl
  rw [h, Int32.ofInt_toInt]

/-- A grid of three columns is set, the program restarts, and the dark mode is set. -/
theorem restarts_invisible_once :
    (Machine.final (step decimal none) (start decimal none ∅)
      [.defaultGrid 3, .restart, .darkMode true]).app.kept = (true, true, 3, "INFO") :=
  (restarts_invisible none decimal_repr ∅ [.defaultGrid 3, .restart, .darkMode true]).1

end Installation

end Controllers

end AnoMap
