import BlockPool.Config.Setting
import Mathlib

/-!
# BlockPool — the grammar of settings

What a text says is told here without the reader: white space, then a number or a switch, then white
space. The reader accepts these texts and no others, and what is written in decimal is read back.

* `Setting.Numeral`, `Setting.Switch` — the texts of a number and of a switch.
* `Setting.Written` — a text with white space around it.
* `Setting.lookup_cases` — a variable says something, is not set, or is refused as it stands.
* `Setting.written_write` — what is written with white space, a plus sign and zeros is read back.
-/

namespace BlockPool

namespace Text

-- ---------------------------------------------------------------------------
-- White space at the ends
-- ---------------------------------------------------------------------------

/-- Nothing but white space. -/
def Blank (text : List Char) : Prop := ∀ c ∈ text, isBlank c = true

theorem blank_takeWhile (text : List Char) : Blank (text.takeWhile isBlank) :=
  fun _ hc => List.mem_takeWhile_imp hc

/-- Only white space is trimmed off. -/
theorem exists_trim (text : List Char) :
    ∃ left right, text = left ++ trim text ++ right ∧ Blank left ∧ Blank right := by
  refine ⟨text.takeWhile isBlank,
    ((text.dropWhile isBlank).reverse.takeWhile isBlank).reverse, ?_, blank_takeWhile _,
    fun c hc => blank_takeWhile _ c (List.mem_reverse.mp hc)⟩
  rw [trim, List.append_assoc, ← List.reverse_append, List.takeWhile_append_dropWhile,
    List.reverse_reverse, List.takeWhile_append_dropWhile]

theorem dropWhile_eq_self {text : List Char} (h : ∀ c ∈ text, isBlank c = false) :
    text.dropWhile isBlank = text := by
  cases text with
  | nil => rfl
  | cons c rest => rw [List.dropWhile_cons_of_neg (by simp [h c])]

/-- White space around a text without any is all that is trimmed off. -/
theorem trim_append {left core right : List Char} (hLeft : Blank left) (hRight : Blank right)
    (hCore : ∀ c ∈ core, isBlank c = false) : trim (left ++ core ++ right) = core := by
  have hBack : ∀ c ∈ core.reverse, isBlank c = false := fun c hc => hCore c (List.mem_reverse.mp hc)
  have hEnd : Blank right.reverse := fun c hc => hRight c (List.mem_reverse.mp hc)
  rw [trim, List.append_assoc, List.dropWhile_append_of_pos hLeft]
  cases core with
  | nil => rw [List.nil_append, List.dropWhile_eq_nil_iff.mpr hRight]; rfl
  | cons c rest =>
    rw [List.cons_append, List.dropWhile_cons_of_neg (by simp [hCore c]), ← List.cons_append,
      List.reverse_append, List.dropWhile_append_of_pos hEnd, dropWhile_eq_self hBack,
      List.reverse_reverse]

/-- No visible character of the ASCII range is white space. -/
theorem isBlank_of_visible {c : Char} (hLow : 33 ≤ c.toNat) (hHigh : c.toNat ≤ 126) :
    isBlank c = false := by
  simp only [isBlank, inRanges, blankRanges, List.any_cons, List.any_nil, Bool.or_false,
    Bool.or_eq_false_iff, Bool.and_eq_false_iff, decide_eq_false_iff_not]
  omega

theorem isBlank_of_isDigit {c : Char} (h : c.isDigit = true) : isBlank c = false := by
  simp only [Char.isDigit, Bool.and_eq_true, decide_eq_true_eq] at h
  have hLow : 48 ≤ c.toNat := h.1
  have hHigh : c.toNat ≤ 57 := h.2
  exact isBlank_of_visible (by omega) (by omega)

end Text

namespace Setting

open Text

-- ---------------------------------------------------------------------------
-- Numbers and switches
-- ---------------------------------------------------------------------------

/-- An optional plus sign and one or more digits, with a value that fits a word. -/
def Numeral (text : List Char) (n : Nat) : Prop :=
  ∃ sign digits, text = sign ++ digits ∧ (sign = [] ∨ sign = ['+']) ∧ digits ≠ [] ∧
    (∀ c ∈ digits, c.isDigit = true) ∧ Nat.ofDigitChars 10 digits 0 = n ∧ n < 2 ^ 64

/-- One of two words. -/
def Switch (text : List Char) (on : Bool) : Prop :=
  text = (if on then "true" else "false").toList

theorem digit?_eq_some_iff {c : Char} {d : Nat} :
    digit? c = some d ↔ c.isDigit = true ∧ c.toNat - '0'.toNat = d := by
  have hDigit : c.isDigit = true ↔ '0' ≤ c ∧ c ≤ '9' := by
    rw [Char.isDigit, Bool.and_eq_true, decide_eq_true_eq, decide_eq_true_eq]
    rfl
  rw [digit?, hDigit]
  by_cases h : '0' ≤ c ∧ c ≤ '9' <;> simp [h]

theorem decimalFrom?_eq_some_iff {digits : List Char} {value n : Nat} :
    decimalFrom? value digits = some n ↔
      (∀ c ∈ digits, c.isDigit = true) ∧ Nat.ofDigitChars 10 digits value = n := by
  induction digits generalizing value with
  | nil => simp [decimalFrom?]
  | cons c rest ih =>
    rw [decimalFrom?, Option.bind_eq_bind, Option.bind_eq_some_iff, List.forall_mem_cons,
      Nat.ofDigitChars_cons]
    constructor
    · rintro ⟨d, hDigit, hRest⟩
      obtain ⟨hFirst, rfl⟩ := digit?_eq_some_iff.mp hDigit
      obtain ⟨hDigits, hValue⟩ := ih.mp hRest
      exact ⟨⟨hFirst, hDigits⟩, hValue⟩
    · rintro ⟨⟨hFirst, hDigits⟩, hValue⟩
      exact ⟨_, digit?_eq_some_iff.mpr ⟨hFirst, rfl⟩, ih.mpr ⟨hDigits, hValue⟩⟩

theorem decimal?_eq_some_iff {digits : List Char} {n : Nat} :
    decimal? digits = some n ↔
      digits ≠ [] ∧ (∀ c ∈ digits, c.isDigit = true) ∧ Nat.ofDigitChars 10 digits 0 = n := by
  cases digits with
  | nil => simp [decimal?]
  | cons c rest =>
    rw [decimal?, decimalFrom?_eq_some_iff]
    · simp
    · exact nofun

/-- The reader of numbers knows the numerals and nothing else. -/
theorem word?_eq_some_iff {text : List Char} {n : Nat} : word? text = some n ↔ Numeral text n := by
  have hLimit : Word.limit = 2 ^ 64 := by decide
  unfold word?
  rw [Option.filter_eq_some_iff, decide_eq_true_eq, decimal?_eq_some_iff, hLimit, Numeral]
  split
  · rename_i rest
    constructor
    · rintro ⟨⟨hSome, hDigits, hValue⟩, hFits⟩
      exact ⟨['+'], rest, rfl, .inr rfl, hSome, hDigits, hValue, hFits⟩
    · rintro ⟨sign, digits, hText, rfl | rfl, hSome, hDigits, hValue, hFits⟩
      · -- a plus sign is no digit
        rw [List.nil_append] at hText
        exact absurd (hDigits '+' (hText ▸ List.mem_cons_self)) (by decide)
      · obtain rfl := (List.cons.inj hText).2
        exact ⟨⟨hSome, hDigits, hValue⟩, hFits⟩
  · rename_i hPlain
    constructor
    · rintro ⟨⟨hSome, hDigits, hValue⟩, hFits⟩
      exact ⟨[], text, rfl, .inl rfl, hSome, hDigits, hValue, hFits⟩
    · rintro ⟨sign, digits, hText, rfl | rfl, hSome, hDigits, hValue, hFits⟩
      · rw [List.nil_append] at hText
        exact ⟨⟨hText ▸ hSome, hText ▸ hDigits, hText ▸ hValue⟩, hFits⟩
      · exact absurd hText (hPlain digits)

/-- The reader of switches knows the two words and nothing else. -/
theorem switch?_eq_some_iff {text : List Char} {on : Bool} :
    switch? text = some on ↔ Switch text on := by
  rw [switch?, Switch]
  split
  · rename_i hTrue
    subst hTrue
    cases on <;> simp
  · rename_i hTrue
    split
    · rename_i hFalse
      subst hFalse
      cases on <;> simp
    · rename_i hFalse
      cases on with
      | false => exact ⟨nofun, fun hText => absurd hText hFalse⟩
      | true => exact ⟨nofun, fun hText => absurd hText hTrue⟩

theorem Numeral.not_blank {text : List Char} {n : Nat} (h : Numeral text n) :
    ∀ c ∈ text, isBlank c = false := by
  obtain ⟨sign, digits, rfl, hSign, -, hDigits, -⟩ := h
  intro c hc
  rcases List.mem_append.mp hc with hPlus | hDigit
  · rcases hSign with rfl | rfl
    · exact absurd hPlus List.not_mem_nil
    · rw [List.mem_singleton.mp hPlus]
      exact isBlank_of_visible (by decide) (by decide)
  · exact isBlank_of_isDigit (hDigits c hDigit)

theorem Switch.not_blank {text : List Char} {on : Bool} (h : Switch text on) :
    ∀ c ∈ text, isBlank c = false := by
  have hLetters : text = ['t', 'r', 'u', 'e'] ∨ text = ['f', 'a', 'l', 's', 'e'] := by
    cases on with
    | false => exact .inr (by simpa [Switch] using h)
    | true => exact .inl (by simpa [Switch] using h)
  have hVisible : ∀ c ∈ text, 33 ≤ c.toNat ∧ c.toNat ≤ 126 := by
    rcases hLetters with rfl | rfl <;> simp
  exact fun c hc => isBlank_of_visible (hVisible c hc).1 (hVisible c hc).2

-- ---------------------------------------------------------------------------
-- Texts of variables
-- ---------------------------------------------------------------------------

/-- What the texts of a variable are about. -/
inductive Kind where
  | number
  | switch

/-- The values of a variable. -/
abbrev Kind.Value : Kind → Type
  | .number => Nat
  | .switch => Bool

/-- The texts of a value. -/
def Kind.Spells : (k : Kind) → List Char → k.Value → Prop
  | .number => Numeral
  | .switch => Switch

/-- The reader of values. -/
def Kind.read? : (k : Kind) → List Char → Option k.Value
  | .number => word?
  | .switch => switch?

variable {k : Kind} {value other : k.Value} {raw key : String} {env : Environment}

theorem Kind.read?_eq_some_iff {text : List Char} :
    k.read? text = some value ↔ k.Spells text value := by
  cases k with
  | number => exact word?_eq_some_iff
  | switch => exact switch?_eq_some_iff

theorem Kind.not_blank_of_spells {text : List Char} (h : k.Spells text value) :
    ∀ c ∈ text, isBlank c = false := by
  cases k with
  | number => exact Numeral.not_blank h
  | switch => exact Switch.not_blank h

/-- The text is that of the value, with white space around it. -/
def Written (k : Kind) (raw : String) (value : k.Value) : Prop :=
  ∃ left core right, raw.toList = left ++ core ++ right ∧ Blank left ∧ Blank right ∧
    k.Spells core value

/-- Reading what is left of a text without the white space around it is reading the text. -/
theorem read?_trim_eq_some_iff :
    k.read? (trim raw.toList) = some value ↔ Written k raw value := by
  constructor
  · intro hRead
    obtain ⟨left, right, hText, hLeft, hRight⟩ := exists_trim raw.toList
    exact ⟨left, _, right, hText, hLeft, hRight, Kind.read?_eq_some_iff.mp hRead⟩
  · rintro ⟨left, core, right, hText, hLeft, hRight, hSpells⟩
    rw [hText, trim_append hLeft hRight (Kind.not_blank_of_spells hSpells)]
    exact Kind.read?_eq_some_iff.mpr hSpells

theorem Written.unique (h : Written k raw value) (h' : Written k raw other) : value = other :=
  Option.some.inj
    ((read?_trim_eq_some_iff.mpr h).symm.trans (read?_trim_eq_some_iff.mpr h'))

/-- The variable is set to a text that is none of its kind. -/
def Malformed (k : Kind) (env : Environment) (key raw : String) : Prop :=
  env key = some raw ∧ ∀ value, ¬ Written k raw value

/-- The variable stands for the value: it is not set and the value is the default, or its text is
that of the value. -/
def Says (k : Kind) (env : Environment) (key : String) (default value : k.Value) : Prop :=
  match env key with
  | none => value = default
  | some raw => Written k raw value

/-- A variable is refused as it stands, or says something. -/
theorem lookup_cases (k : Kind) (env : Environment) (key : String) (default : k.Value) :
    (∃ raw, Malformed k env key raw ∧ lookup k.read? env key = .error (.parse key raw)) ∨
      ∃ found, lookup k.read? env key = .ok found ∧ Says k env key default (found.getD default) := by
  unfold lookup Malformed Says
  cases hKey : env key with
  | none => exact .inr ⟨none, rfl, rfl⟩
  | some raw =>
    cases hRead : k.read? (trim raw.toList) with
    | none =>
      refine .inl ⟨raw, ⟨rfl, fun value hWritten => ?_⟩, by simp only [hRead]⟩
      rw [read?_trim_eq_some_iff.mpr hWritten] at hRead
      exact absurd hRead nofun
    | some value =>
      exact .inr ⟨some value, by simp only [hRead], read?_trim_eq_some_iff.mp hRead⟩

theorem Says.not_malformed {default : k.Value} (h : Says k env key default value) :
    ¬ Malformed k env key raw := by
  rintro ⟨hKey, hNone⟩
  rw [Says, hKey] at h
  exact hNone value h

theorem Says.unique {default : k.Value} (h : Says k env key default value)
    (h' : Says k env key default other) : value = other := by
  rw [Says] at h h'
  split at h
  · rename_i hKey
    rw [hKey] at h'
    exact h.trans h'.symm
  · rename_i hKey
    rw [hKey] at h'
    exact h.unique h'

-- ---------------------------------------------------------------------------
-- Writing
-- ---------------------------------------------------------------------------

/-- How a value may be written: with white space around it, and a number with a plus sign and
leading zeros. -/
structure Style where
  left : List Char
  right : List Char
  plus : Bool
  zeros : Nat
  blank_left : Blank left
  blank_right : Blank right

namespace Style

/-- A number in decimal. -/
def number (style : Style) (n : Nat) : List Char :=
  (if style.plus then ['+'] else []) ++ (List.replicate style.zeros '0' ++ Nat.toDigits 10 n)

/-- A switch is one word. -/
def core (style : Style) : (k : Kind) → k.Value → List Char
  | .number, n => style.number n
  | .switch, on => (if on then "true" else "false").toList

/-- The value, written in the style. -/
def write (style : Style) (k : Kind) (value : k.Value) : String :=
  String.ofList (style.left ++ style.core k value ++ style.right)

end Style

/-- The numbers of a word, and both switches. -/
def Kind.Fits : (k : Kind) → k.Value → Prop
  | .number, n => n < 2 ^ 64
  | .switch, _ => True

theorem ofDigitChars_replicate_zero (zeros : Nat) (digits : List Char) :
    Nat.ofDigitChars 10 (List.replicate zeros '0' ++ digits) 0 = Nat.ofDigitChars 10 digits 0 := by
  induction zeros with
  | zero => rfl
  | succ zeros ih =>
    rw [List.replicate_succ, List.cons_append, Nat.ofDigitChars_cons]
    exact ih

theorem numeral_number (style : Style) {n : Nat} (h : n < 2 ^ 64) :
    Numeral (style.number n) n := by
  refine ⟨_, _, rfl, ?_, ?_, ?_, ?_, h⟩
  · cases style.plus with
    | false => exact .inl rfl
    | true => exact .inr rfl
  · exact List.append_ne_nil_of_right_ne_nil _ Nat.toDigits_ne_nil
  · intro c hc
    rcases List.mem_append.mp hc with hZero | hDigit
    · rw [List.eq_of_mem_replicate hZero]
      rfl
    · exact Nat.isDigit_of_mem_toDigits (by decide) (by decide) hDigit
  · rw [ofDigitChars_replicate_zero]
    exact Nat.ofDigitChars_toDigits (by decide) (by decide)

/-- What is written in any style says what was written. -/
theorem written_write (style : Style) (h : k.Fits value) :
    Written k (style.write k value) value := by
  refine ⟨style.left, style.core k value, style.right, String.toList_ofList, style.blank_left,
    style.blank_right, ?_⟩
  cases k with
  | number => exact numeral_number style h
  | switch => rfl

end Setting

end BlockPool
