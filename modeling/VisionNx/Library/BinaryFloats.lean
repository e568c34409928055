import Mathlib.Data.Int.Log
import VisionNx.Python

/-! # Binary floating point

The numbers of a binary format, rounded to nearest and from halfway to the even one.  A
finite number is a rational, so a zero has no sign. -/

namespace VisionNx.BinaryFloats

open Python

inductive Floating where
  | finite (x : ℚ)
  | infinite (negative : Bool)
  | nan
  deriving DecidableEq

def Floating.isFinite : Floating → Bool
  | finite _ => true
  | _ => false

/-- A format with an implicit leading bit: `fractionBits` bits below it, exponents up to
    `maxExponent` and from `1 - maxExponent`. -/
structure Format where
  fractionBits : ℕ
  maxExponent : ℕ
  maxExponent_pos : 0 < maxExponent := by decide

namespace Format

variable (f : Format)

/-- The multiple of `unit` that is nearest to `x`. -/
def snapTo (unit x : ℚ) : ℚ := roundEven (x / unit) * unit

/-- The distance of the format's numbers at an exponent. -/
def unit (exponent : ℤ) : ℚ := 2 ^ (exponent - f.fractionBits)

/-- Rounding without a largest number.  Below the smallest normal number the distance stays
    the same. -/
def snap (x : ℚ) : ℚ := snapTo (f.unit (max (Int.log 2 |x|) (1 - f.maxExponent))) x

def round (x : ℚ) : Floating :=
  if |f.snap x| < 2 ^ (f.maxExponent + 1) then .finite (f.snap x) else .infinite (decide (x < 0))

/-- Tiny after rounding and not exact. -/
def underflows (x : ℚ) : Bool :=
  f.snap x ≠ x ∧ |snapTo (f.unit (Int.log 2 |x|)) x| < 2 ^ (1 - f.maxExponent : ℤ)

end Format

/-! ## Operations -/

namespace Floating

/-- The value in another format. -/
def convert (f : Format) : Floating → Floating
  | finite x => f.round x
  | v => v

/-- `v / n` for a positive `n`. -/
def divNat (f : Format) (v : Floating) (n : ℕ) : Floating :=
  match v with
  | finite x => f.round (x / n)
  | v => v

def sub (f : Format) : Floating → Floating → Floating
  | nan, _ | _, nan => nan
  | finite x, finite y => f.round (x - y)
  | finite _, infinite negative => infinite (!negative)
  | infinite negative, finite _ => infinite negative
  | infinite negative, infinite negative' => if negative = negative' then nan else infinite negative

def lt : Floating → Floating → Bool
  | nan, _ | _, nan => false
  | finite x, finite y => decide (x < y)
  | finite _, infinite negative => !negative
  | infinite negative, finite _ => negative
  | infinite negative, infinite negative' => negative && !negative'

def min (a b : Floating) : Floating := if b.lt a then b else a

def max (a b : Floating) : Floating := if a.lt b then b else a

end Floating

/-! ## Rounding to an integer -/

theorem roundEven_neg (x : ℚ) : roundEven (-x) = -roundEven x := by
  have floor_le := Int.floor_le x
  have lt_floor := Int.lt_floor_add_one x
  by_cases whole : x = ⌊x⌋
  · rw [whole, ← Int.cast_neg, roundEven_intCast, roundEven_intCast]
  · -- Off the integers the floor of `-x` is the mirror image of the next integer.
    have strict : (⌊x⌋ : ℚ) < x := lt_of_le_of_ne floor_le (Ne.symm whole)
    have mirrored : ⌊-x⌋ = -(⌊x⌋ + 1) := by
      rw [Int.floor_eq_iff]
      push_cast
      constructor <;> linarith
    simp only [roundEven, mirrored]
    push_cast
    split_ifs <;> first | omega | (exfalso; linarith)

theorem le_roundEven {x : ℚ} {n : ℤ} (le : (n : ℚ) ≤ x) : n ≤ roundEven x := by
  have mirrored : roundEven (-x) ≤ -n := roundEven_le (by push_cast; linarith)
  rw [roundEven_neg] at mirrored
  omega

/-- From halfway up, rounding reaches an even integer. -/
theorem roundEven_lt_iff {n : ℤ} (even : n % 2 = 0) (x : ℚ) : roundEven x < n ↔ x < n - 1 / 2 := by
  have floor_le := Int.floor_le x
  have lt_floor := Int.lt_floor_add_one x
  constructor
  · intro lt
    by_contra above
    have near := (abs_le.mp (abs_roundEven_sub_le x)).1
    by_cases tie : x = n - 1 / 2
    · have floor_eq : ⌊x⌋ = n - 1 := by
        rw [Int.floor_eq_iff]
        push_cast
        constructor <;> linarith
      simp only [roundEven, floor_eq] at lt
      push_cast at lt
      split_ifs at lt <;> first | omega | linarith
    · have strict : (n : ℚ) - 1 / 2 < x := lt_of_le_of_ne (not_lt.mp above) (Ne.symm tie)
      have : (n : ℚ) - 1 < roundEven x := by linarith
      have : n - 1 < roundEven x := by exact_mod_cast this
      omega
  · intro below
    have near := (abs_le.mp (abs_roundEven_sub_le x)).2
    have : (roundEven x : ℚ) < n := by linarith
    exact_mod_cast this

/-! ## Rounding in a format -/

namespace Format

variable {f : Format} {x : ℚ}

theorem unit_pos (f : Format) (exponent : ℤ) : 0 < f.unit exponent := zpow_pos (by norm_num) _

/-- The significands of an exponent and its units. -/
theorem mul_unit (f : Format) (exponent : ℤ) : 2 ^ f.fractionBits * f.unit exponent = 2 ^ exponent := by
  rw [unit, ← zpow_natCast, ← zpow_add₀ (by norm_num)]
  congr 1
  omega

theorem snapTo_neg (unit x : ℚ) : snapTo unit (-x) = -snapTo unit x := by
  rw [snapTo, snapTo, neg_div, roundEven_neg]
  push_cast
  ring

theorem snap_neg (f : Format) (x : ℚ) : f.snap (-x) = -f.snap x := by
  rw [snap, snap, abs_neg, snapTo_neg]

theorem le_snapTo {unit : ℚ} (pos : 0 < unit) {n : ℤ} (le : n * unit ≤ x) : n * unit ≤ snapTo unit x := by
  have : n ≤ roundEven (x / unit) := le_roundEven ((le_div_iff₀ pos).mpr le)
  exact mul_le_mul_of_nonneg_right (by exact_mod_cast this) pos.le

theorem snapTo_le {unit : ℚ} (pos : 0 < unit) {n : ℤ} (le : x ≤ n * unit) : snapTo unit x ≤ n * unit := by
  have : roundEven (x / unit) ≤ n := roundEven_le ((div_le_iff₀ pos).mpr le)
  exact mul_le_mul_of_nonneg_right (by exact_mod_cast this) pos.le

theorem snapTo_lt_iff {unit : ℚ} (pos : 0 < unit) {n : ℤ} (even : n % 2 = 0) (x : ℚ) :
    snapTo unit x < n * unit ↔ x < (n - 1 / 2) * unit := by
  rw [snapTo, mul_lt_mul_iff_left₀ pos, Int.cast_lt, roundEven_lt_iff even, div_lt_iff₀ pos]

theorem snap_nonneg (nonneg : 0 ≤ x) : 0 ≤ f.snap x := by
  have := @le_snapTo x _ (f.unit_pos (max (Int.log 2 |x|) (1 - f.maxExponent))) 0 (by simpa using nonneg)
  rwa [Int.cast_zero, zero_mul] at this

theorem abs_snap (f : Format) (x : ℚ) : |f.snap x| = f.snap |x| := by
  cases le_total 0 x with
  | inl nonneg => rw [abs_of_nonneg nonneg, abs_of_nonneg (snap_nonneg nonneg)]
  | inr nonpos =>
    have mirrored : 0 ≤ f.snap (-x) := snap_nonneg (by linarith)
    rw [snap_neg] at mirrored
    rw [abs_of_nonpos nonpos, snap_neg, abs_of_nonpos (by linarith)]

/-- A power of two is a multiple of the units below it. -/
theorem zpow_eq_units {k exponent : ℤ} (le : exponent ≤ k) :
    (2 : ℚ) ^ k = ((2 ^ ((k - exponent).toNat + f.fractionBits) : ℤ) : ℚ) * f.unit exponent := by
  have split_exponent : k = ((k - exponent).toNat : ℤ) + exponent := by omega
  rw [pow_add, Int.cast_mul, mul_assoc, Int.cast_pow, Int.cast_pow, Int.cast_ofNat, mul_unit, ← zpow_natCast,
    ← zpow_add₀ (by norm_num), ← split_exponent]

/-- Rounding does not pass a power of two. -/
theorem snap_le_zpow (nonneg : 0 ≤ x) {k : ℤ} (normal : 1 - f.maxExponent ≤ k) (le : x ≤ 2 ^ k) :
    f.snap x ≤ 2 ^ k := by
  cases nonneg.eq_or_lt with
  | inl zero =>
    rw [← zero, snap, snapTo, zero_div, ← Int.cast_zero, roundEven_intCast, Int.cast_zero, zero_mul]
    exact (zpow_pos (by norm_num) k).le
  | inr pos =>
    have log_le : Int.log 2 x ≤ k := by
      have := @Int.log_mono_right ℚ _ _ _ _ 2 x (2 ^ k) pos le
      have log_power : Int.log 2 ((2 : ℚ) ^ k) = k := by exact_mod_cast @Int.log_zpow ℚ _ _ _ _ 2 (by norm_num) k
      rwa [log_power] at this
    rw [snap, abs_of_pos pos, zpow_eq_units (max_le log_le normal)]
    exact snapTo_le (f.unit_pos _) (by rwa [← zpow_eq_units (max_le log_le normal)])

theorem zpow_le_snap {k : ℤ} (normal : 1 - f.maxExponent ≤ k) (le : 2 ^ k ≤ x) : 2 ^ k ≤ f.snap x := by
  have pos : 0 < x := lt_of_lt_of_le (zpow_pos (by norm_num) k) le
  have le_log : k ≤ Int.log 2 x := (Int.zpow_le_iff_le_log (by norm_num) pos).mp (by exact_mod_cast le)
  have own_power : (2 : ℚ) ^ Int.log 2 x ≤ x := by exact_mod_cast Int.zpow_log_le_self (by norm_num) pos
  rw [snap, abs_of_pos pos, max_eq_left (normal.trans le_log)]
  calc (2 : ℚ) ^ k ≤ 2 ^ Int.log 2 x := zpow_le_zpow_right₀ (by norm_num) le_log
    _ = ((2 ^ ((Int.log 2 x - Int.log 2 x).toNat + f.fractionBits) : ℤ) : ℚ) * f.unit (Int.log 2 x) :=
      zpow_eq_units le_rfl
    _ ≤ snapTo (f.unit (Int.log 2 x)) x := le_snapTo (f.unit_pos _) (by rwa [← zpow_eq_units le_rfl])

/-- A number between two powers of two that is an even multiple of the unit there is reached
    from half a unit below. -/
theorem snap_lt_iff (nonneg : 0 ≤ x) {k n : ℤ} (normal : 1 - f.maxExponent ≤ k) (even : n % 2 = 0)
    (above : 2 ^ f.fractionBits < n) (below : n ≤ 2 ^ (f.fractionBits + 1)) :
    f.snap x < n * f.unit k ↔ x < (n - 1 / 2) * f.unit k := by
  have pos := f.unit_pos k
  have lower : (2 : ℚ) ^ k ≤ (n - 1) * f.unit k := by
    rw [← mul_unit f k]
    have : (2 : ℚ) ^ f.fractionBits + 1 ≤ n := by exact_mod_cast above
    exact mul_le_mul_of_nonneg_right (by linarith) pos.le
  have upper : n * f.unit k ≤ (2 : ℚ) ^ (k + 1) := by
    rw [zpow_add_one₀ (by norm_num), ← mul_unit f k, mul_right_comm, ← pow_succ]
    exact mul_le_mul_of_nonneg_right (by exact_mod_cast below) pos.le
  cases lt_or_ge x (2 ^ k) with
  | inl small =>
    have := snap_le_zpow nonneg normal small.le
    constructor <;> intro <;> nlinarith
  | inr reaches =>
    cases lt_or_ge x (2 ^ (k + 1)) with
    | inl inside =>
      have x_pos : 0 < x := lt_of_lt_of_le (zpow_pos (by norm_num) k) reaches
      have exponent : Int.log 2 x = k := by
        have le_log : k ≤ Int.log 2 x := (Int.zpow_le_iff_le_log (by norm_num) x_pos).mp (by exact_mod_cast reaches)
        have log_lt : Int.log 2 x < k + 1 := (Int.lt_zpow_iff_log_lt (by norm_num) x_pos).mp (by exact_mod_cast inside)
        omega
      rw [snap, abs_of_pos x_pos, exponent, max_eq_left normal, snapTo_lt_iff pos even]
    | inr large =>
      have := @zpow_le_snap f x (k + 1) (by omega) large
      constructor <;> intro <;> nlinarith

/-- The first power of two that is out of range. -/
theorem overflow_eq (f : Format) : 2 ^ (f.fractionBits + 1) * f.unit f.maxExponent = 2 ^ (f.maxExponent + 1) := by
  rw [pow_succ, mul_right_comm, mul_unit, zpow_natCast, ← pow_succ]

/-- A number overflows from half a unit below the first power of two that is out of range. -/
theorem round_isFinite_iff (f : Format) (x : ℚ) :
    (f.round x).isFinite = true ↔ |x| < (2 ^ (f.fractionBits + 1) - 1 / 2) * f.unit f.maxExponent := by
  have even : (2 : ℤ) ^ (f.fractionBits + 1) % 2 = 0 := by rw [pow_succ, Int.mul_emod_left]
  have above : (2 : ℤ) ^ f.fractionBits < 2 ^ (f.fractionBits + 1) := pow_lt_pow_right₀ (by norm_num) (by omega)
  have normal : 1 - (f.maxExponent : ℤ) ≤ f.maxExponent := by
    have := f.maxExponent_pos
    omega
  have bound := @snap_lt_iff f |x| (abs_nonneg x) f.maxExponent _ normal even above le_rfl
  push_cast at bound
  rw [overflow_eq, ← abs_snap] at bound
  rw [← bound, round]
  split
  next fits => exact iff_of_true rfl fits
  next overflows => exact iff_of_false (by simp [Floating.isFinite]) overflows

/-- Division keeps a number in range. -/
theorem divNat_isFinite (f : Format) (x : ℚ) {n : ℕ} (large : 2 ≤ n) :
    ((f.round x).divNat f n).isFinite = (f.round x).isFinite := by
  cases rounded : f.round x with
  | nan => rfl
  | infinite negative => rfl
  | finite y =>
    have below : |y| < 2 ^ (f.maxExponent + 1) := by
      rw [round] at rounded
      split at rounded
      next fits =>
        cases rounded
        exact fits
      next => cases rounded
    rw [Floating.divNat, Floating.isFinite, round_isFinite_iff, abs_div, Nat.abs_cast]
    have pos := f.unit_pos f.maxExponent
    have one_le : (1 : ℚ) ≤ 2 ^ f.fractionBits := one_le_pow₀ (by norm_num)
    calc |y| / n ≤ |y| / 2 := div_le_div_of_nonneg_left (abs_nonneg y) (by norm_num) (by exact_mod_cast large)
      _ < 2 ^ (f.maxExponent + 1) / 2 := div_lt_div_of_pos_right below (by norm_num)
      _ = 2 ^ f.fractionBits * f.unit f.maxExponent := by
        rw [← overflow_eq, pow_succ]
        ring
      _ ≤ (2 ^ (f.fractionBits + 1) - 1 / 2) * f.unit f.maxExponent :=
        mul_le_mul_of_nonneg_right (by rw [pow_succ]; linarith) pos.le

end Format

/-! ## Order -/

namespace Floating

/-- Of two numbers, the smaller and the larger are finite if both are. -/
theorem min_max_isFinite {a b : Floating} (number : a ≠ nan) (number' : b ≠ nan) :
    ((a.min b).isFinite = true ∧ (a.max b).isFinite = true) ↔ (a.isFinite = true ∧ b.isFinite = true) := by
  cases a with
  | nan => exact absurd rfl number
  | finite x =>
    cases b with
    | nan => exact absurd rfl number'
    | finite y =>
      refine iff_of_true ⟨?_, ?_⟩ ⟨rfl, rfl⟩
      · unfold min
        split <;> rfl
      · unfold max
        split <;> rfl
    | infinite negative => cases negative <;> simp [min, max, lt, isFinite]
  | infinite negative =>
    cases b with
    | nan => exact absurd rfl number'
    | finite y => cases negative <;> simp [min, max, lt, isFinite]
    | infinite negative' => cases negative <;> cases negative' <;> simp [min, max, lt, isFinite]

end Floating

end VisionNx.BinaryFloats
