import AnoMap.Lib.Json

/-!
# JSON texts

The grammar of RFC 8259: which values a text stands for. Each rule reads a value off the front of a
list of characters and leaves the rest.

* `Chars`: the inside of a string and what it says; `Str`, `Num`, `Parses`, `IsText`: strings,
  numbers, values and whole texts. An escaped half of a surrogate pair stands for no character.
* `Chars.length_le`, `Chars.quote`: the inside is at least as long as what it says, and a quote in it
  says a quote further left.
* **`eq_of_chars`**: characters that are read as themselves need no escape.
* `str_of_unescaped`, `eq_of_str`: a string of such characters is read in one way.
* `parses_quote`, `parses_object`: what starts as a string is one; what an object holds.
-/

set_option autoImplicit false

namespace Json

/-- White space between tokens. -/
def isWs (c : Char) : Bool := c = ' ' || c = '\t' || c = '\n' || c = '\r'

/-- `ws`. -/
def Ws (inp rest : List Char) : Prop := ∃ w, inp = w ++ rest ∧ ∀ c ∈ w, isWs c = true

/-! ## Strings -/

/-- `unescaped = %x20-21 / %x23-5B / %x5D-10FFFF`. -/
def Unescaped (c : Char) : Prop := 0x20 ≤ c.toNat ∧ c ≠ '"' ∧ c ≠ '\\'

instance (c : Char) : Decidable (Unescaped c) := inferInstanceAs (Decidable (_ ∧ _ ∧ _))

/-- The character a one-letter escape stands for. -/
def escape? : Char → Option Char
  | '"' => some '"'
  | '\\' => some '\\'
  | '/' => some '/'
  | 'b' => some '\x08'
  | 'f' => some '\x0c'
  | 'n' => some '\n'
  | 'r' => some '\r'
  | 't' => some '\t'
  | _ => none

def hexDigit? (c : Char) : Option ℕ :=
  if '0' ≤ c ∧ c ≤ '9' then some (c.toNat - '0'.toNat)
  else if 'a' ≤ c ∧ c ≤ 'f' then some (c.toNat - 'a'.toNat + 10)
  else if 'A' ≤ c ∧ c ≤ 'F' then some (c.toNat - 'A'.toNat + 10)
  else none

/-- The code unit of `4HEXDIG`. -/
def codeUnit? : List Char → Option ℕ
  | [a, b, c, d] => do
    let a ← hexDigit? a
    let b ← hexDigit? b
    let c ← hexDigit? c
    let d ← hexDigit? d
    return ((a * 16 + b) * 16 + c) * 16 + d
  | _ => none

/-- The inside of a string, and the characters it says. -/
inductive Chars : List Char → List Char → Prop
  | nil : Chars [] []
  | unescaped {c : Char} {u w : List Char} (hc : Unescaped c) (h : Chars u w) :
    Chars (c :: u) (c :: w)
  | escape {e c : Char} {u w : List Char} (he : escape? e = some c) (h : Chars u w) :
    Chars ('\\' :: e :: u) (c :: w)
  | unicode {ds u w : List Char} {n : ℕ} (hn : codeUnit? ds = some n)
    (hs : n < 0xD800 ∨ 0xDFFF < n) (h : Chars u w) :
    Chars ('\\' :: 'u' :: (ds ++ u)) (Char.ofNat n :: w)
  | surrogates {ds es u w : List Char} {hi lo : ℕ} (hhi : codeUnit? ds = some hi)
    (hlo : codeUnit? es = some lo) (hs : 0xD800 ≤ hi ∧ hi ≤ 0xDBFF ∧ 0xDC00 ≤ lo ∧ lo ≤ 0xDFFF)
    (h : Chars u w) :
    Chars ('\\' :: 'u' :: (ds ++ '\\' :: 'u' :: (es ++ u)))
      (Char.ofNat (0x10000 + (hi - 0xD800) * 0x400 + (lo - 0xDC00)) :: w)

/-- `string`. -/
def Str (inp : List Char) (s : String) (rest : List Char) : Prop :=
  ∃ u w, inp = '"' :: (u ++ '"' :: rest) ∧ Chars u w ∧ s = String.ofList w

theorem codeUnit?_eq_some {ds : List Char} {n : ℕ} (h : codeUnit? ds = some n) :
    ds.length = 4 ∧ '"' ∉ ds := by
  have hquote : hexDigit? '"' = none := by decide
  match ds, h with
  | [a, b, c, d], h =>
    simp only [codeUnit?, Option.bind_eq_bind, Option.bind_eq_some_iff] at h
    obtain ⟨_, ha, _, hb, _, hc, _, hd, -⟩ := h
    refine ⟨rfl, fun hmem => ?_⟩
    simp only [List.mem_cons, List.not_mem_nil, or_false] at hmem
    rcases hmem with rfl | rfl | rfl | rfl
    · rw [hquote] at ha; cases ha
    · rw [hquote] at hb; cases hb
    · rw [hquote] at hc; cases hc
    · rw [hquote] at hd; cases hd

theorem getElem?_append_quote (es : List Char) {u : List Char} {p : ℕ} (hes : '"' ∉ es)
    (h : (es ++ u)[p]? = some '"') : ∃ r, p = es.length + r ∧ u[r]? = some '"' := by
  rcases lt_or_ge p es.length with hp | hp
  · rw [List.getElem?_append_left hp] at h
    exact absurd (List.mem_of_getElem? h) hes
  · rw [List.getElem?_append_right hp] at h
    exact ⟨p - es.length, by omega, h⟩

namespace Chars

variable {u w : List Char}

theorem of_unescaped (h : ∀ c ∈ w, Unescaped c) : Chars w w := by
  induction w with
  | nil => exact nil
  | cons c w ih =>
    rw [List.forall_mem_cons] at h
    exact unescaped h.1 (ih h.2)

theorem length_le (h : Chars u w) : w.length ≤ u.length := by
  induction h with
  | nil => exact le_rfl
  | unescaped hc h ih => exact Nat.succ_le_succ ih
  | escape he h ih => simp only [List.length_cons]; omega
  | unicode hn hs h ih => simp only [List.length_cons, List.length_append]; omega
  | surrogates hhi hlo hs h ih => simp only [List.length_cons, List.length_append]; omega

theorem eq_of_length_eq (h : Chars u w) (hlen : u.length = w.length) :
    u = w ∧ ∀ c ∈ w, Unescaped c := by
  induction h with
  | nil => exact ⟨rfl, fun c hc => absurd hc List.not_mem_nil⟩
  | unescaped hc h ih =>
    obtain ⟨rfl, hw⟩ := ih (Nat.succ_injective hlen)
    exact ⟨rfl, List.forall_mem_cons.mpr ⟨hc, hw⟩⟩
  | escape he h ih =>
    have := h.length_le
    simp only [List.length_cons] at hlen
    omega
  | unicode hn hs h ih =>
    have := h.length_le
    simp only [List.length_cons, List.length_append] at hlen
    omega
  | surrogates hhi hlo hs h ih =>
    have := h.length_le
    simp only [List.length_cons, List.length_append] at hlen
    omega

/-- Every quote inside a string says a quote, further left. -/
theorem quote (h : Chars u w) {p : ℕ} (hp : u[p]? = some '"') : ∃ d < p, w[d]? = some '"' := by
  induction h generalizing p with
  | nil => cases hp
  | @unescaped c u w hc h ih =>
    obtain ⟨r, rfl, hr⟩ := getElem?_append_quote [c]
      (fun hmem => hc.2.1 (List.mem_singleton.mp hmem).symm) hp
    obtain ⟨d, hd, hw⟩ := ih hr
    exact ⟨d + 1, by simp only [List.length_singleton]; omega, hw⟩
  | @escape e c u w he h ih =>
    by_cases hquote : e = '"'
    · subst hquote
      cases Option.some.inj he
      rcases p with - | p
      · cases hp
      · exact ⟨0, Nat.succ_pos p, rfl⟩
    · obtain ⟨r, rfl, hr⟩ := getElem?_append_quote ['\\', e]
        (by simp [Ne.symm hquote]) hp
      obtain ⟨d, hd, hw⟩ := ih hr
      exact ⟨d + 1, by simp only [List.length_cons]; omega, hw⟩
  | @unicode ds u w n hn hs h ih =>
    obtain ⟨r, rfl, hr⟩ := getElem?_append_quote ('\\' :: 'u' :: ds)
      (by simp [(codeUnit?_eq_some hn).2]) hp
    obtain ⟨d, hd, hw⟩ := ih hr
    exact ⟨d + 1, by simp only [List.length_cons]; omega, hw⟩
  | @surrogates ds es u w hi lo hhi hlo hs h ih =>
    obtain ⟨r, rfl, hr⟩ := getElem?_append_quote ('\\' :: 'u' :: (ds ++ '\\' :: 'u' :: es))
      (by simp [(codeUnit?_eq_some hhi).2, (codeUnit?_eq_some hlo).2]) (by simpa using hp)
    obtain ⟨d, hd, hw⟩ := ih hr
    exact ⟨d + 1, by simp only [List.length_cons]; omega, hw⟩

end Chars

/-- **A text read as itself.** If a string whose text starts as `w` and a quote says `w`, then it ends
at that quote and no character of `w` needs an escape. -/
theorem eq_of_chars {u w rest tail : List Char} (h : Chars u w)
    (heq : u ++ '"' :: rest = w ++ '"' :: tail) :
    rest = tail ∧ ∀ c ∈ w, Unescaped c := by
  rcases h.length_le.eq_or_lt with hlen | hlen
  · obtain ⟨rfl, hw⟩ := h.eq_of_length_eq hlen.symm
    exact ⟨(List.cons.inj (List.append_cancel_left heq)).2, hw⟩
  · -- the quote after `w` is inside `u`, where each quote needs one further left in `w`, so in `u`
    have htext : ∀ d < u.length, u[d]? = (w ++ '"' :: tail)[d]? := fun d hd => by
      rw [← heq, List.getElem?_append_left hd]
    have hleft : ∀ d < w.length, u[d]? = w[d]? := fun d hd => by
      rw [htext d (hd.trans hlen), List.getElem?_append_left hd]
    have hend : u[w.length]? = some '"' := by
      rw [htext _ hlen, List.getElem?_append_right le_rfl, Nat.sub_self]
      rfl
    have hnone : ∀ p ≤ w.length, u[p]? ≠ some '"' := by
      intro p
      induction p using Nat.strong_induction_on with
      | _ p ih =>
        intro hp hquote
        obtain ⟨d, hd, hw⟩ := h.quote hquote
        exact ih d hd (by omega) (by rw [hleft d (by omega), hw])
    exact absurd hend (hnone _ le_rfl)

theorem str_of_unescaped {s : String} (h : ∀ c ∈ s.toList, Unescaped c) (rest : List Char) :
    Str ('"' :: (s.toList ++ '"' :: rest)) s rest :=
  ⟨s.toList, s.toList, rfl, .of_unescaped h, (String.ofList_toList).symm⟩

theorem eq_of_unescaped {u v w rest tail : List Char} (hw : ∀ c ∈ w, Unescaped c) (h : Chars u v)
    (heq : u ++ '"' :: rest = w ++ '"' :: tail) : v = w ∧ rest = tail := by
  have hescape : ∀ {w x : List Char}, (∀ c ∈ w, Unescaped c) → '\\' :: x ≠ w ++ '"' :: tail := by
    intro w x hw hx
    rcases w with - | ⟨c, w⟩
    · cases hx
    · cases hx
      exact (hw _ List.mem_cons_self).2.2 rfl
  induction h generalizing w with
  | nil =>
    rcases w with - | ⟨c, w⟩
    · exact ⟨rfl, (List.cons.inj heq).2⟩
    · exact absurd (List.cons.inj heq).1.symm (hw c List.mem_cons_self).2.1
  | @unescaped c u v hc h ih =>
    rcases w with - | ⟨d, w⟩
    · exact absurd (List.cons.inj heq).1 hc.2.1
    · obtain ⟨rfl, htl⟩ := List.cons.inj heq
      rw [List.forall_mem_cons] at hw
      obtain ⟨rfl, htail⟩ := ih hw.2 htl
      exact ⟨rfl, htail⟩
  | escape he h ih => exact absurd heq (hescape hw)
  | unicode hn hs h ih => exact absurd heq (hescape hw)
  | surrogates hhi hlo hs h ih => exact absurd heq (hescape hw)

theorem eq_of_str {s t : String} {rest tail : List Char} (hs : ∀ c ∈ s.toList, Unescaped c)
    (h : Str ('"' :: (s.toList ++ '"' :: tail)) t rest) : t = s ∧ rest = tail := by
  obtain ⟨u, w, heq, hchars, rfl⟩ := h
  obtain ⟨rfl, hrest⟩ := eq_of_unescaped hs hchars (List.cons.inj heq).2.symm
  exact ⟨String.ofList_toList, hrest⟩

/-! ## Values -/

def Digits (ds : List Char) : Prop := ds ≠ [] ∧ ∀ c ∈ ds, c.isDigit = true

/-- `int`, which has no leading zero. -/
def IntDigits (ds : List Char) : Prop := Digits ds ∧ (ds = ['0'] ∨ ds.head? ≠ some '0')

def natOf (ds : List Char) : ℕ := ds.foldl (fun n c => 10 * n + (c.toNat - '0'.toNat)) 0

def minus (neg : Bool) : List Char := if neg then ['-'] else []

/-- `[ exp ]`, with the exponent. -/
inductive Exp : List Char → ℤ → Prop
  | none : Exp [] 0
  | unsigned {e : Char} {ds : List Char} (he : e = 'e' ∨ e = 'E') (hd : Digits ds) :
    Exp (e :: ds) (natOf ds)
  | plus {e : Char} {ds : List Char} (he : e = 'e' ∨ e = 'E') (hd : Digits ds) :
    Exp (e :: '+' :: ds) (natOf ds)
  | minus {e : Char} {ds : List Char} (he : e = 'e' ∨ e = 'E') (hd : Digits ds) :
    Exp (e :: '-' :: ds) (-natOf ds)

/-- `number`: an integer, or one with a fraction or an exponent. -/
inductive Num : List Char → Json → Prop
  | integer (neg : Bool) {ds : List Char} (hd : IntDigits ds) :
    Num (minus neg ++ ds) (.integer (if neg then -natOf ds else natOf ds))
  | exponent (neg : Bool) {ds es : List Char} {e : ℤ} (hd : IntDigits ds) (he : Exp es e)
    (hne : es ≠ []) :
    Num (minus neg ++ (ds ++ es)) (.float ((if neg then -1 else 1) * natOf ds * 10 ^ e))
  | fraction (neg : Bool) {ds fs es : List Char} {e : ℤ} (hd : IntDigits ds) (hf : Digits fs)
    (he : Exp es e) :
    Num (minus neg ++ (ds ++ '.' :: (fs ++ es)))
      (.float ((if neg then -1 else 1) * natOf (ds ++ fs) * 10 ^ (e - fs.length)))

mutual

/-- `value`. -/
inductive Parses : List Char → Json → List Char → Prop
  | null (rest : List Char) : Parses ('n' :: 'u' :: 'l' :: 'l' :: rest) .null rest
  | true (rest : List Char) : Parses ('t' :: 'r' :: 'u' :: 'e' :: rest) (.bool true) rest
  | false (rest : List Char) : Parses ('f' :: 'a' :: 'l' :: 's' :: 'e' :: rest) (.bool false) rest
  | number {inp n rest : List Char} {v : Json} (h : Num n v) (hi : inp = n ++ rest) :
    Parses inp v rest
  | string {inp rest : List Char} {s : String} (h : Str inp s rest) : Parses inp (.string s) rest
  | emptyArray {inp rest : List Char} (h : Ws inp (']' :: rest)) :
    Parses ('[' :: inp) (.array []) rest
  | array {inp a b rest : List Char} {items : List Json} (h₁ : Ws inp a) (h₂ : Elements a items b)
    (h₃ : Ws b (']' :: rest)) : Parses ('[' :: inp) (.array items) rest
  | emptyObject {inp rest : List Char} (h : Ws inp ('}' :: rest)) :
    Parses ('{' :: inp) (.object []) rest
  | object {inp a b rest : List Char} {members : List (String × Json)} (h₁ : Ws inp a)
    (h₂ : Members a members b) (h₃ : Ws b ('}' :: rest)) :
    Parses ('{' :: inp) (.object members) rest

inductive Elements : List Char → List Json → List Char → Prop
  | one {inp rest : List Char} {v : Json} (h : Parses inp v rest) : Elements inp [v] rest
  | cons {inp a b c rest : List Char} {v : Json} {vs : List Json} (h₁ : Parses inp v a)
    (h₂ : Ws a (',' :: b)) (h₃ : Ws b c) (h₄ : Elements c vs rest) : Elements inp (v :: vs) rest

inductive Members : List Char → List (String × Json) → List Char → Prop
  | one {inp a b c rest : List Char} {key : String} {v : Json} (h₁ : Str inp key a)
    (h₂ : Ws a (':' :: b)) (h₃ : Ws b c) (h₄ : Parses c v rest) : Members inp [(key, v)] rest
  | cons {inp a b c d e f rest : List Char} {key : String} {v : Json} {ms : List (String × Json)}
    (h₁ : Str inp key a) (h₂ : Ws a (':' :: b)) (h₃ : Ws b c) (h₄ : Parses c v d)
    (h₅ : Ws d (',' :: e)) (h₆ : Ws e f) (h₇ : Members f ms rest) :
    Members inp ((key, v) :: ms) rest

end

/-! ## Reading -/

@[simp] theorem ws_nil (inp : List Char) : Ws inp inp :=
  ⟨[], rfl, fun _ hc => absurd hc List.not_mem_nil⟩

theorem Ws.eq {c : Char} {inp rest : List Char} (h : Ws (c :: inp) rest) (hc : isWs c = false) :
    rest = c :: inp := by
  obtain ⟨w, heq, hw⟩ := h
  rcases w with - | ⟨d, w⟩
  · exact heq.symm
  · obtain ⟨rfl, -⟩ := List.cons.inj heq
    rw [hw c List.mem_cons_self] at hc
    cases hc

theorem Num.head {n : List Char} {v : Json} (h : Num n v) :
    ∃ c x, n = c :: x ∧ (c = '-' ∨ c.isDigit = true) := by
  have hint : ∀ (neg : Bool) {ds : List Char}, IntDigits ds → ∀ x,
      ∃ c y, minus neg ++ (ds ++ x) = c :: y ∧ (c = '-' ∨ c.isDigit = true) := by
    intro neg ds hd x
    cases neg with
    | true => exact ⟨'-', ds ++ x, rfl, Or.inl rfl⟩
    | false =>
      obtain ⟨c, ds, rfl⟩ := List.exists_cons_of_ne_nil hd.1.1
      exact ⟨c, ds ++ x, rfl, Or.inr (hd.1.2 c List.mem_cons_self)⟩
  cases h with
  | integer neg hd => simpa using hint neg hd []
  | exponent neg hd he hne => exact hint neg hd _
  | fraction neg hd hf he => exact hint neg hd _

theorem parses_quote {inp rest : List Char} {v : Json} (h : Parses ('"' :: inp) v rest) :
    ∃ s, v = .string s ∧ Str ('"' :: inp) s rest := by
  cases h with
  | number h hi =>
    obtain ⟨_, x, rfl, hc⟩ := h.head
    obtain ⟨rfl, -⟩ := List.cons.inj hi
    rcases hc with hc | hc <;> cases hc
  | string h => exact ⟨_, rfl, h⟩

theorem parses_object {inp rest : List Char} {members : List (String × Json)}
    (h : Parses ('{' :: inp) (.object members) rest) :
    (members = [] ∧ Ws inp ('}' :: rest)) ∨
      ∃ a b, Ws inp a ∧ Members a members b ∧ Ws b ('}' :: rest) := by
  cases h with
  | number h hi => cases h
  | emptyObject h => exact Or.inl ⟨rfl, h⟩
  | object h₁ h₂ h₃ => exact Or.inr ⟨_, _, h₁, h₂, h₃⟩

/-- `JSON-text = ws value ws`. -/
def IsText (text : String) (v : Json) : Prop :=
  ∃ a b, Ws text.toList a ∧ Parses a v b ∧ Ws b []

end Json
