import Mathlib.Algebra.Order.Round
import Mathlib.Data.Rat.Floor
import Mathlib.Tactic.Linarith

/-! # Python's strings and numbers

The built-ins that the worker applies to the texts and numbers it is sent.  Floats
are read as rationals. -/

namespace VisionNx.Python

/-! ## Strings -/

/-- The code points that `str.isspace` accepts, which is what `str.strip` drops. -/
def isSpace (c : Char) : Bool :=
  let n := c.toNat
  (9 ≤ n && n ≤ 13) || (28 ≤ n && n ≤ 32) || n == 0x85 || n == 0xa0 || n == 0x1680 ||
    (0x2000 ≤ n && n ≤ 0x200a) || n == 0x2028 || n == 0x2029 || n == 0x202f ||
    n == 0x205f || n == 0x3000

/-- `str.strip()`. -/
def strip (s : String) : String :=
  String.ofList ((s.toList.dropWhile isSpace).reverse.dropWhile isSpace).reverse

/-- `str.lower()` on one character.  Every text the worker compares with is ASCII, and so
    are OpenVINO's names of devices, which `env_probe.py` only lists; so only the letters
    with an ASCII lower case are here: `A`–`Z` and the Kelvin sign. -/
def lowerChar (c : Char) : Char :=
  if c = Char.ofNat 0x212a then 'k' else c.toLower

/-- `str.lower()`. -/
def lower (s : String) : String :=
  String.ofList (s.toList.map lowerChar)

example : lower (strip " Vehicle_Group\n") = "vehicle_group" := by decide

/-- `str.upper()` of an ASCII text. -/
def upper (s : String) : String := String.ofList (s.toList.map Char.toUpper)

/-! ## Numbers -/

/-- `int(x)`: towards zero. -/
def toInt (x : ℚ) : ℤ := if x < 0 then ⌈x⌉ else ⌊x⌋

/-- `round(x)`: to the nearest integer, from halfway to the even one. -/
def roundEven (x : ℚ) : ℤ :=
  let below := ⌊x⌋
  if x - below < 1 / 2 then below
  else if 1 / 2 < x - below then below + 1
  else if below % 2 = 0 then below
  else below + 1

/-- `min(xs)` of a non-empty list. -/
def minOf : List ℚ → ℚ
  | [] => 0
  | x :: xs => xs.foldl min x

/-- `max(xs)` of a non-empty list. -/
def maxOf : List ℚ → ℚ
  | [] => 0
  | x :: xs => xs.foldl max x

@[simp] theorem toInt_intCast (n : ℤ) : toInt n = n := by
  unfold toInt
  split <;> simp

@[simp] theorem roundEven_intCast (n : ℤ) : roundEven n = n := by
  simp [roundEven]

theorem foldl_max_spec (x : ℚ) (xs : List ℚ) : xs.foldl max x ∈ x :: xs ∧ ∀ y ∈ x :: xs, y ≤ xs.foldl max x := by
  induction xs generalizing x with
  | nil => simp
  | cons x' xs ih =>
    obtain ⟨mem, upper⟩ := ih (max x x')
    obtain ⟨first, rest⟩ := List.forall_mem_cons.mp upper
    refine ⟨?_, ?_⟩
    · rw [List.foldl_cons]
      cases List.mem_cons.mp mem with
      | inl is =>
        rw [is]
        cases max_choice x x' with
        | inl left => simp [left]
        | inr right => simp [right]
      | inr later => exact List.mem_cons_of_mem _ (List.mem_cons_of_mem _ later)
    · intro y y_mem
      rw [List.foldl_cons]
      cases List.mem_cons.mp y_mem with
      | inl is => exact is ▸ (le_max_left x x').trans first
      | inr y_mem =>
        cases List.mem_cons.mp y_mem with
        | inl is => exact is ▸ (le_max_right x x').trans first
        | inr later => exact rest y later

theorem maxOf_mem {xs : List ℚ} (nonempty : xs ≠ []) : maxOf xs ∈ xs := by
  cases xs with
  | nil => exact absurd rfl nonempty
  | cons x xs => exact (foldl_max_spec x xs).1

theorem le_maxOf {xs : List ℚ} {x : ℚ} (mem : x ∈ xs) : x ≤ maxOf xs := by
  cases xs with
  | nil => cases mem
  | cons x' xs => exact (foldl_max_spec x' xs).2 x mem

theorem abs_roundEven_sub_le (x : ℚ) : |(roundEven x : ℚ) - x| ≤ 1 / 2 := by
  have lower := Int.floor_le x
  have upper := Int.lt_floor_add_one x
  simp only [roundEven, abs_le]
  split
  · constructor <;> linarith
  · split
    · push_cast
      constructor <;> linarith
    · split <;> push_cast <;> constructor <;> linarith

/-- Rounding does not pass an integer. -/
theorem roundEven_le {x : ℚ} {n : ℤ} (le : x ≤ n) : roundEven x ≤ n := by
  have near := (abs_le.mp (abs_roundEven_sub_le x)).2
  have : (roundEven x : ℚ) < n + 1 := by linarith
  exact Int.lt_add_one_iff.mp (by exact_mod_cast this)

end VisionNx.Python
