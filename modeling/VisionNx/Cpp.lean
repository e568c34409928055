import Mathlib.Data.Nat.Digits.Defs
import VisionNx.Json
import VisionNx.Library.BinaryFloats

/-! # C++'s numbers

`float` and `double`, and the conversions of the standard library that the agent applies
to texts, in the "C" locale and with glibc's treatment of numbers that are too small. -/

namespace VisionNx.Cpp

open BinaryFloats

def float : Format := { fractionBits := 23, maxExponent := 127 }

def double : Format := { fractionBits := 52, maxExponent := 1023 }

/-! ## Numerals -/

/-- `std::isspace`. -/
def isSpace (c : Char) : Bool := c = ' ' || (9 ≤ c.toNat && c.toNat ≤ 13)

def digitValue (c : Char) : Option ℕ :=
  if '0' ≤ c ∧ c ≤ '9' then some (c.toNat - 48)
  else if 'a' ≤ c ∧ c ≤ 'f' then some (c.toNat - 87)
  else if 'A' ≤ c ∧ c ≤ 'F' then some (c.toNat - 55)
  else none

/-- The digits that a text begins with, and the rest. -/
def scanDigits (base : ℕ) : List Char → List ℕ × List Char
  | [] => ([], [])
  | c :: rest =>
    match digitValue c with
    | some d =>
      if d < base then
        let (ds, rest) := scanDigits base rest
        (d :: ds, rest)
      else ([], c :: rest)
    | none => ([], c :: rest)

def digitsValue (base : ℕ) (ds : List ℕ) : ℕ := Nat.ofDigits base ds.reverse

/-- Whether there is a minus sign, and the text after the sign. -/
def scanSign : List Char → Bool × List Char
  | '-' :: rest => (true, rest)
  | '+' :: rest => (false, rest)
  | text => (false, text)

def signed {α : Type} [Neg α] (negative : Bool) (x : α) : α := if negative then -x else x

/-- Digits with at most one point, and the rest; there must be a digit. -/
def scanMantissa (base : ℕ) (text : List Char) : Option (ℚ × List Char) :=
  let (whole, rest) := scanDigits base text
  let (fraction, rest) := match rest with
    | '.' :: rest => scanDigits base rest
    | rest => ([], rest)
  let ds := whole ++ fraction
  if ds.isEmpty then none else some (digitsValue base ds / base ^ fraction.length, rest)

/-- The exponent that follows; without digits it is none, and nothing is scaled. -/
def scanExponent (mark : Char) : List Char → ℤ
  | c :: rest =>
    if c.toLower = mark then
      let (negative, rest) := scanSign rest
      signed negative (digitsValue 10 (scanDigits 10 rest).1 : ℤ)
    else 0
  | [] => 0

def scanScaled (digits base : ℕ) (mark : Char) (text : List Char) : Option ℚ :=
  (scanMantissa digits text).map fun scanned => scanned.1 * base ^ scanExponent mark scanned.2

/-- The number that a text without a sign begins with. -/
def scanMagnitude (text : List Char) : Option ℚ :=
  match text with
  | '0' :: x :: rest =>
    if x.toLower = 'x' then (scanScaled 16 2 'p' rest).or (scanScaled 10 10 'e' text)
    else scanScaled 10 10 'e' text
  | _ => scanScaled 10 10 'e' text

/-! ## Conversions -/

/-- Whether a text without a sign begins with this word, in either case. -/
def beginsWith (word : String) (text : List Char) : Bool := word.toList.isPrefixOf (text.map Char.toLower)

/-- The text of a number that `stof` reads as infinite or as no number. -/
def spellsNonFinite (s : String) : Bool :=
  let text := (scanSign (s.toList.dropWhile isSpace)).2
  beginsWith "inf" text || beginsWith "nan" text

/-- `std::stof`; `none` is an exception, which results out of range raise as well. -/
def stof (s : String) : Option Floating :=
  let (negative, text) := scanSign (s.toList.dropWhile isSpace)
  if beginsWith "inf" text then some (.infinite negative)
  else if beginsWith "nan" text then some .nan
  else
    (scanMagnitude text).bind fun magnitude =>
      let x := signed negative magnitude
      if !(float.round x).isFinite || float.underflows x then none else some (float.round x)

/-- `std::stoi`. -/
def stoi (s : String) : Option ℤ :=
  let (negative, text) := scanSign (s.toList.dropWhile isSpace)
  let ds := (scanDigits 10 text).1
  let n : ℤ := signed negative (digitsValue 10 ds : ℤ)
  if ds.isEmpty ∨ n < -2 ^ 31 ∨ 2 ^ 31 ≤ n then none else some n

example : stoi " -12abc" = some (-12) := by decide

/-- `static_cast<float>(v.number_value())`, where the value has been read as a `double`. -/
def floatValue (v : Json) : Floating := (double.round v.numberValue).convert float

/-- A number as `nx::kit::Json` writes it. -/
def jsonNumber : Floating → Json
  | .finite x => .num x
  | _ => .null

/-! ## What is finite -/

theorem stof_cases {s : String} {v : Floating} (read : stof s = some v) :
    (spellsNonFinite s = true ∧ v.isFinite = false) ∨
      (spellsNonFinite s = false ∧ ∃ x, v = float.round x ∧ v.isFinite = true) := by
  simp only [stof] at read
  unfold spellsNonFinite
  split at read
  next inf =>
    cases read
    exact .inl ⟨by simp only [inf, Bool.true_or], rfl⟩
  next not_inf =>
    split at read
    next nan =>
      cases read
      exact .inl ⟨by simp only [nan, Bool.or_true], rfl⟩
    next not_nan =>
      obtain ⟨magnitude, -, rounded⟩ := Option.bind_eq_some_iff.mp read
      split at rounded
      · cases rounded
      next fits =>
        cases rounded
        simp only [Bool.or_eq_true, not_or, Bool.not_eq_true', Bool.not_eq_false] at fits
        exact .inr ⟨by simp only [not_inf, not_nan, Bool.or_self], _, rfl, fits.1⟩

theorem not_spellsNonFinite_of_none {s : String} (raises : stof s = none) : spellsNonFinite s = false := by
  simp only [stof] at raises
  unfold spellsNonFinite
  split at raises
  · cases raises
  next not_inf =>
    split at raises
    · cases raises
    next not_nan => simp only [not_inf, not_nan, Bool.or_self]

theorem floatValue_ne_nan (v : Json) : floatValue v ≠ .nan := by
  simp only [floatValue, Format.round]
  split
  · simp only [Floating.convert, Format.round]
    split <;> simp
  · simp [Floating.convert]

/-- The numerals whose value a `float` holds: half a unit of `double` less than where `float`
    overflows. -/
def InFloatRange (x : ℚ) : Prop := |x| < 2 ^ 128 - 2 ^ 103 - 2 ^ 74

theorem floatValue_isFinite_iff (v : Json) : (floatValue v).isFinite = true ↔ InFloatRange v.numberValue := by
  -- The bound of `float` is an even multiple of the unit of `double` at its exponent.
  have unit_double : double.unit 127 = 2 ^ 75 := by norm_num [Format.unit, double]
  have unit_float : float.unit 127 = 2 ^ 104 := by norm_num [Format.unit, float]
  have reached : |double.snap v.numberValue| < 2 ^ 128 - 2 ^ 103 ↔ InFloatRange v.numberValue := by
    have bound := @Format.snap_lt_iff double |v.numberValue| (abs_nonneg _) 127 (2 ^ 53 - 2 ^ 28)
      (by norm_num [double]) (by norm_num) (by norm_num [double]) (by norm_num [double])
    rw [unit_double, ← Format.abs_snap] at bound
    norm_num at bound
    norm_num [InFloatRange]
    exact bound
  have in_float (x : ℚ) : (float.round x).isFinite = true ↔ |x| < 2 ^ 128 - 2 ^ 103 := by
    rw [Format.round_isFinite_iff]
    have : (float.maxExponent : ℤ) = 127 := rfl
    rw [this, unit_float]
    norm_num [float]
  rw [floatValue, Format.round, ← reached]
  split
  next => exact in_float _
  next overflows =>
    refine iff_of_false (by simp [Floating.convert, Floating.isFinite]) fun small => overflows ?_
    calc |double.snap v.numberValue| < 2 ^ 128 - 2 ^ 103 := small
      _ < 2 ^ 128 := by norm_num
      _ ≤ 2 ^ (double.maxExponent + 1) := pow_le_pow_right₀ (by norm_num) (by norm_num [double])

end VisionNx.Cpp
