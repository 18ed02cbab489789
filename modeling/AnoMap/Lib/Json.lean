import Mathlib.Data.Rat.Floor

/-!
# JSON values

The values a parser makes of a JSON text, and the typed reads of their members.

* `Json`: a value; `discarded` is what a text that is not JSON parses to.
* `FromJson`: the types a value converts to; a conversion from the wrong kind of value is a
  `TypeError`.
* `Json.value`: the member of an object under a key, or the default; an error on anything that is
  no object.
* `bind_eq_ok`: how a sequence of reads succeeds.
* `Fits`: the member under a key has the right type, if it is there; `exists_value_iff`: exactly then
  a read of an object succeeds.
-/

set_option autoImplicit false

inductive Json where
  | null
  | bool (b : Bool)
  | integer (n : ℤ)
  | float (x : ℚ)
  | string (s : String)
  | array (items : List Json)
  | object (members : List (String × Json))
  | discarded

inductive TypeError where
  | typeMustBe (kind : String)
  | cannotUseValue
  deriving DecidableEq, Repr

/-- The types a value converts to. -/
class FromJson (α : Type) where
  get : Json → Except TypeError α

namespace Json

instance : FromJson String where
  get
    | .string s => .ok s
    | _ => .error (.typeMustBe "string")

instance : FromJson Bool where
  get
    | .bool b => .ok b
    | _ => .error (.typeMustBe "boolean")

/-- Conversion to a `double`. -/
instance : FromJson ℚ where
  get
    | .integer n => .ok n
    | .float x => .ok x
    | _ => .error (.typeMustBe "number")

/-- Conversion to a 32-bit `int`: integers wrap, fractions are cut off, booleans are numbers. -/
instance : FromJson ℤ where
  get
    | .integer n => .ok (n.bmod (2 ^ 32))
    | .float x => .ok (if 0 ≤ x then ⌊x⌋ else ⌈x⌉)
    | .bool b => .ok (if b then 1 else 0)
    | _ => .error (.typeMustBe "number")

/-- Conversion to a 64-bit `long long`: integers wrap, fractions are cut off. -/
instance : FromJson Int64 where
  get
    | .integer n => .ok (.ofInt n)
    | .float x => .ok (.ofInt (if 0 ≤ x then ⌊x⌋ else ⌈x⌉))
    | _ => .error (.typeMustBe "number")

def isObject : Json → Bool
  | .object _ => true
  | _ => false

/-- The member under a key. -/
def member? (j : Json) (key : String) : Option Json :=
  match j with
  | .object members => members.lookup key
  | _ => none

/-- `value(key, default)`. -/
def value {α : Type} [FromJson α] (j : Json) (key : String) (default : α) : Except TypeError α :=
  match j with
  | .object members =>
    match members.lookup key with
    | some v => FromJson.get v
    | none => .ok default
  | _ => .error .cannotUseValue

theorem bind_eq_ok {α β : Type} {x : Except TypeError α} {f : α → Except TypeError β} {b : β} :
    x >>= f = .ok b ↔ ∃ a, x = .ok a ∧ f a = .ok b := by
  cases x with
  | error e => exact ⟨fun h => (nomatch h), fun ⟨_, h, _⟩ => (nomatch h)⟩
  | ok a => exact ⟨fun h => ⟨a, rfl, h⟩, fun ⟨_, h, hf⟩ => Except.ok.inj h ▸ hf⟩

theorem exists_bind_iff {α β : Type} {x : Except TypeError α} {f : α → Except TypeError β} :
    (∃ b, x >>= f = .ok b) ↔ ∃ a, x = .ok a ∧ ∃ b, f a = .ok b := by
  simp only [bind_eq_ok]
  exact ⟨fun ⟨b, a, hx, hf⟩ => ⟨a, hx, b, hf⟩, fun ⟨a, hx, b, hf⟩ => ⟨b, a, hx, hf⟩⟩

/-- The member under the key converts to `α`, if there is one. -/
def Fits (α : Type) [FromJson α] (j : Json) (key : String) : Prop :=
  ∀ v, j.member? key = some v → ∃ a : α, FromJson.get v = .ok a

/-- **Typed reads.** A read succeeds on objects whose member, if any, has the right type. -/
theorem exists_value_iff {α : Type} [FromJson α] {j : Json} {key : String} {default : α} :
    (∃ a, j.value key default = .ok a) ↔ j.isObject = true ∧ j.Fits α key := by
  unfold Fits
  cases j with
  | object members =>
    simp only [value, isObject, member?, true_and]
    cases members.lookup key with
    | none => simp
    | some v => simp
  | _ => exact ⟨fun ⟨_, h⟩ => (nomatch h), fun h => absurd h.1 Bool.false_ne_true⟩

theorem exists_mapM_iff {β : Type} {f : Json → Except TypeError β} {items : List Json} :
    (∃ out, items.mapM f = .ok out) ↔ ∀ item ∈ items, ∃ b, f item = .ok b := by
  induction items with
  | nil => exact ⟨fun _ item h => absurd h List.not_mem_nil, fun _ => ⟨[], rfl⟩⟩
  | cons item items ih =>
    rw [List.forall_mem_cons, ← ih, List.mapM_cons, exists_bind_iff]
    constructor
    · rintro ⟨b, hb, h⟩
      obtain ⟨out, ho, -⟩ := exists_bind_iff.mp h
      exact ⟨⟨b, hb⟩, out, ho⟩
    · rintro ⟨⟨b, hb⟩, out, ho⟩
      exact ⟨b, hb, exists_bind_iff.mpr ⟨out, ho, b :: out, rfl⟩⟩

end Json
