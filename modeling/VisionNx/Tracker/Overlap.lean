import Mathlib.Tactic.Linarith
import Mathlib.Tactic.Positivity
import VisionNx.Tracker.Basic

/-! # Overlap of two boxes

What `_iou_matrix` says of two boxes over the rationals: the IoU is at most 1, and 1 only
for a box with area and itself.  Along each axis a box has an extent, two boxes share
one, and the shared extent is at most that of either box.  `OverlapMeasure` collects what
follows for the matrix: it does not depend on where the boxes are or on the units. -/

namespace VisionNx.Tracker

/-! ## One axis -/

/-- `np.clip(hi - lo, 0.0, None)`. -/
def extent (lo hi : ℚ) : ℚ := max (hi - lo) 0

/-- The extent of what two intervals have in common. -/
def sharedExtent (lo hi lo' hi' : ℚ) : ℚ := extent (max lo lo') (min hi hi')

theorem extent_nonneg (lo hi : ℚ) : 0 ≤ extent lo hi := le_max_right _ _

theorem extent_pos_iff {lo hi : ℚ} : 0 < extent lo hi ↔ lo < hi := by
  simp [extent]

theorem sharedExtent_comm (lo hi lo' hi' : ℚ) : sharedExtent lo hi lo' hi' = sharedExtent lo' hi' lo hi := by
  rw [sharedExtent, sharedExtent, max_comm, min_comm]

theorem sharedExtent_le (lo hi lo' hi' : ℚ) : sharedExtent lo hi lo' hi' ≤ extent lo hi := by
  apply max_le_max_right
  have right : min hi hi' ≤ hi := min_le_left _ _
  have left : lo ≤ max lo lo' := le_max_left _ _
  linarith

/-- An interval that is shared as a whole lies inside the other one. -/
theorem inside_of_sharedExtent_eq {lo hi lo' hi' : ℚ} (proper : lo < hi)
    (whole : sharedExtent lo hi lo' hi' = extent lo hi) : lo' ≤ lo ∧ hi ≤ hi' := by
  have wide : 0 < hi - lo := sub_pos.mpr proper
  rw [sharedExtent, extent, extent, max_eq_left wide.le] at whole
  have same : min hi hi' - max lo lo' = hi - lo := by
    cases max_choice (min hi hi' - max lo lo') 0 with
    | inl kept => rw [← kept, whole]
    | inr zero =>
      rw [zero] at whole
      exact absurd whole wide.ne
  have right : min hi hi' ≤ hi := min_le_left _ _
  have right' : min hi hi' ≤ hi' := min_le_right _ _
  have left : lo ≤ max lo lo' := le_max_left _ _
  have left' : lo' ≤ max lo lo' := le_max_right _ _
  constructor
  · linarith
  · linarith

/-! ## Boxes -/

def area (b : Xyxy) : ℚ := extent b.x1 b.x2 * extent b.y1 b.y2

def interArea (a b : Xyxy) : ℚ := sharedExtent a.x1 a.x2 b.x1 b.x2 * sharedExtent a.y1 a.y2 b.y1 b.y2

def HasArea (b : Xyxy) : Prop := b.x1 < b.x2 ∧ b.y1 < b.y2

theorem iouEntry_eq (a b : Xyxy) :
    iouEntry a b = interArea a b /
      if area a + area b - interArea a b ≤ 0 then 1 / 10 ^ 9 else area a + area b - interArea a b := rfl

theorem area_nonneg (b : Xyxy) : 0 ≤ area b := mul_nonneg (extent_nonneg _ _) (extent_nonneg _ _)

theorem area_pos_iff {b : Xyxy} : 0 < area b ↔ HasArea b := by
  rw [HasArea, ← @extent_pos_iff b.x1, ← @extent_pos_iff b.y1, area]
  constructor
  · exact fun pos => ⟨pos_of_mul_pos_left pos (extent_nonneg _ _), pos_of_mul_pos_right pos (extent_nonneg _ _)⟩
  · exact fun ⟨x, y⟩ => mul_pos x y

theorem interArea_comm (a b : Xyxy) : interArea a b = interArea b a := by
  rw [interArea, interArea, sharedExtent_comm, sharedExtent_comm a.y1]

theorem interArea_nonneg (a b : Xyxy) : 0 ≤ interArea a b := mul_nonneg (extent_nonneg _ _) (extent_nonneg _ _)

theorem interArea_le (a b : Xyxy) : interArea a b ≤ area a :=
  mul_le_mul (sharedExtent_le _ _ _ _) (sharedExtent_le _ _ _ _) (extent_nonneg _ _) (extent_nonneg _ _)

/-- A box that is shared as a whole lies inside the other one. -/
theorem inside_of_interArea_eq {a b : Xyxy} (solid : HasArea a) (whole : interArea a b = area a) :
    (b.x1 ≤ a.x1 ∧ a.x2 ≤ b.x2) ∧ b.y1 ≤ a.y1 ∧ a.y2 ≤ b.y2 := by
  have x := sharedExtent_le a.x1 a.x2 b.x1 b.x2
  have y := sharedExtent_le a.y1 a.y2 b.y1 b.y2
  have pos : 0 < interArea a b := by
    rw [whole]
    exact area_pos_iff.mpr solid
  have wide : 0 < sharedExtent a.x1 a.x2 b.x1 b.x2 := pos_of_mul_pos_left pos (extent_nonneg _ _)
  have high : 0 < extent a.y1 a.y2 := extent_pos_iff.mpr solid.2
  have sides := (mul_eq_mul_iff_eq_and_eq_of_pos x y wide high).mp whole
  exact ⟨inside_of_sharedExtent_eq solid.1 sides.1, inside_of_sharedExtent_eq solid.2 sides.2⟩

/-- Where the guard is taken neither box has area, and they share none. -/
theorem interArea_eq_zero {a b : Xyxy} (empty : area a + area b - interArea a b ≤ 0) : interArea a b = 0 := by
  have in_a := interArea_le a b
  have in_b := interArea_le b a
  rw [interArea_comm] at in_b
  linarith [interArea_nonneg a b]

theorem iouEntry_le_one (a b : Xyxy) : iouEntry a b ≤ 1 := by
  have in_a := interArea_le a b
  have in_b := interArea_le b a
  rw [interArea_comm] at in_b
  rw [iouEntry_eq]
  split
  next empty => simp [interArea_eq_zero empty]
  next solid =>
    rw [div_le_one (not_le.mp solid)]
    linarith

theorem iouEntry_self {b : Xyxy} (solid : HasArea b) : iouEntry b b = 1 := by
  have shared : interArea b b = area b := by
    simp [interArea, area, sharedExtent]
  have pos := area_pos_iff.mpr solid
  rw [iouEntry_eq, shared, add_sub_cancel_right, if_neg (not_le.mpr pos), div_self pos.ne']

/-- Two different boxes do not overlap completely. -/
theorem eq_of_iouEntry_eq_one {a b : Xyxy} (one : iouEntry a b = 1) : HasArea a ∧ a = b := by
  have in_a := interArea_le a b
  have in_b := interArea_le b a
  have comm := interArea_comm a b
  rw [iouEntry_eq] at one
  split at one
  next empty => simp [interArea_eq_zero empty] at one
  next solid =>
    rw [div_eq_one_iff_eq (not_le.mp solid).ne'] at one
    have whole_a : interArea a b = area a := by linarith
    have whole_b : interArea b a = area b := by linarith
    have pos : 0 < area a := by linarith [not_le.mp solid]
    have solid_a : HasArea a := area_pos_iff.mp pos
    have solid_b : HasArea b := area_pos_iff.mp (by linarith)
    obtain ⟨⟨x1, x2⟩, y1, y2⟩ := inside_of_interArea_eq solid_a whole_a
    obtain ⟨⟨x1', x2'⟩, y1', y2'⟩ := inside_of_interArea_eq solid_b whole_b
    refine ⟨solid_a, ?_⟩
    cases a
    cases b
    simp only [Xyxy.mk.injEq]
    exact ⟨le_antisymm x1' x1, le_antisymm y1' y1, le_antisymm x2 x2', le_antisymm y2 y2'⟩

theorem iouEntry_eq_one_iff {a b : Xyxy} : iouEntry a b = 1 ↔ HasArea a ∧ a = b := by
  constructor
  · exact eq_of_iouEntry_eq_one
  · rintro ⟨solid, rfl⟩
    exact iouEntry_self solid

/-! ## The division -/

/-- What `_iou_matrix` divides by. -/
def guardedUnion (a b : Xyxy) : ℚ :=
  if area a + area b - interArea a b ≤ 0 then 1 / 10 ^ 9 else area a + area b - interArea a b

theorem iouEntry_eq_div (a b : Xyxy) : iouEntry a b = interArea a b / guardedUnion a b := iouEntry_eq a b

theorem guardedUnion_pos (a b : Xyxy) : 0 < guardedUnion a b := by
  rw [guardedUnion]
  split
  next => positivity
  next solid => exact not_le.mp solid

theorem iouEntry_nonneg (a b : Xyxy) : 0 ≤ iouEntry a b := by
  rw [iouEntry_eq_div]
  exact div_nonneg (interArea_nonneg a b) (guardedUnion_pos a b).le

theorem iouEntry_comm (a b : Xyxy) : iouEntry a b = iouEntry b a := by
  rw [iouEntry_eq, iouEntry_eq, interArea_comm a b, add_comm (area a)]

/-- An inverted box has no area, whichever axis it is inverted along. -/
theorem area_eq_zero {b : Xyxy} (empty : ¬ HasArea b) : area b = 0 := by
  rw [← area_pos_iff, not_lt] at empty
  exact le_antisymm empty (area_nonneg b)

theorem iouEntry_eq_zero {a b : Xyxy} (empty : ¬ HasArea a ∨ ¬ HasArea b) : iouEntry a b = 0 := by
  have in_a := interArea_le a b
  have in_b := interArea_le b a
  rw [interArea_comm] at in_b
  have none : interArea a b = 0 := by
    apply le_antisymm _ (interArea_nonneg a b)
    cases empty with
    | inl empty_a => rwa [area_eq_zero empty_a] at in_a
    | inr empty_b => rwa [area_eq_zero empty_b] at in_b
  rw [iouEntry_eq_div, none, zero_div]

/-! ## Moving and scaling -/

/-- The box moved by a vector. -/
def translate (dx dy : ℚ) (b : Xyxy) : Xyxy := ⟨b.x1 + dx, b.y1 + dy, b.x2 + dx, b.y2 + dy⟩

/-- The box in another unit on each axis. -/
def scale (sx sy : ℚ) (b : Xyxy) : Xyxy := ⟨sx * b.x1, sy * b.y1, sx * b.x2, sy * b.y2⟩

theorem extent_add (d lo hi : ℚ) : extent (lo + d) (hi + d) = extent lo hi := by
  rw [extent, extent, add_sub_add_right_eq_sub]

theorem sharedExtent_add (d lo hi lo' hi' : ℚ) :
    sharedExtent (lo + d) (hi + d) (lo' + d) (hi' + d) = sharedExtent lo hi lo' hi' := by
  rw [sharedExtent, max_add_add_right, min_add_add_right, extent_add, sharedExtent]

theorem extent_mul {s : ℚ} (pos : 0 < s) (lo hi : ℚ) : extent (s * lo) (s * hi) = s * extent lo hi := by
  rw [extent, extent, mul_max_of_nonneg _ _ pos.le, mul_zero, mul_sub]

theorem sharedExtent_mul {s : ℚ} (pos : 0 < s) (lo hi lo' hi' : ℚ) :
    sharedExtent (s * lo) (s * hi) (s * lo') (s * hi') = s * sharedExtent lo hi lo' hi' := by
  rw [sharedExtent, sharedExtent, ← mul_max_of_nonneg _ _ pos.le, ← mul_min_of_nonneg _ _ pos.le, extent_mul pos]

theorem iouEntry_translate (dx dy : ℚ) (a b : Xyxy) :
    iouEntry (translate dx dy a) (translate dx dy b) = iouEntry a b := by
  have shared : interArea (translate dx dy a) (translate dx dy b) = interArea a b := by
    simp only [interArea, translate, sharedExtent_add]
  have own : ∀ c, area (translate dx dy c) = area c := by
    intro c
    simp only [area, translate, extent_add]
  rw [iouEntry_eq, iouEntry_eq, shared, own, own]

/-- Both areas are multiplied by one factor, which the division cancels. -/
theorem iouEntry_scale {sx sy : ℚ} (x_pos : 0 < sx) (y_pos : 0 < sy) (a b : Xyxy) :
    iouEntry (scale sx sy a) (scale sx sy b) = iouEntry a b := by
  have pos : 0 < sx * sy := mul_pos x_pos y_pos
  have shared : interArea (scale sx sy a) (scale sx sy b) = sx * sy * interArea a b := by
    simp only [interArea, scale, sharedExtent_mul x_pos, sharedExtent_mul y_pos]
    ring
  have own : ∀ c, area (scale sx sy c) = sx * sy * area c := by
    intro c
    simp only [area, scale, extent_mul x_pos, extent_mul y_pos]
    ring
  have union : area (scale sx sy a) + area (scale sx sy b) - interArea (scale sx sy a) (scale sx sy b) =
      sx * sy * (area a + area b - interArea a b) := by
    rw [shared, own, own]
    ring
  rw [iouEntry_eq, iouEntry_eq, union, shared]
  by_cases empty : area a + area b - interArea a b ≤ 0
  -- The guard is not scaled, but it divides 0.
  · simp [interArea_eq_zero empty]
  · have still : ¬ sx * sy * (area a + area b - interArea a b) ≤ 0 :=
      not_le.mpr (mul_pos pos (not_le.mp empty))
    rw [if_neg empty, if_neg still, mul_div_mul_left _ _ pos.ne']

/-! ## The matrix -/

/-- What makes a matrix of two lists of boxes a measure of their overlap. -/
structure OverlapMeasure (matrix : List Xyxy → List Xyxy → ℕ → ℕ → ℚ) : Prop where
  nonneg : ∀ a b i j, 0 ≤ matrix a b i j
  le_one : ∀ a b i j, matrix a b i j ≤ 1
  transpose : ∀ a b i j, matrix b a j i = matrix a b i j
  translated : ∀ a b dx dy i j,
    matrix (a.map (translate dx dy)) (b.map (translate dx dy)) i j = matrix a b i j
  scaled : ∀ a b sx sy, 0 < sx → 0 < sy → ∀ i j,
    matrix (a.map (scale sx sy)) (b.map (scale sx sy)) i j = matrix a b i j
  one_iff : ∀ a b i j x y, a[i]? = some x → b[j]? = some y →
    (matrix a b i j = 1 ↔ HasArea x ∧ HasArea y ∧ x = y)
  no_area : ∀ a b i j x y, a[i]? = some x → b[j]? = some y → ¬ HasArea x ∨ ¬ HasArea y →
    matrix a b i j = 0

theorem iouMatrix_some {a b : List Xyxy} {i j : ℕ} {x y : Xyxy} (row : a[i]? = some x)
    (col : b[j]? = some y) : iouMatrix a b i j = iouEntry x y := by
  simp only [iouMatrix, row, col]

/-- A law of all entries, and of the 0 that stands outside of the matrix, is one of the matrix. -/
theorem iouMatrix_induction {P : ℚ → Prop} (entry : ∀ x y, P (iouEntry x y)) (outside : P 0)
    (a b : List Xyxy) (i j : ℕ) : P (iouMatrix a b i j) := by
  unfold iouMatrix
  split
  · exact entry _ _
  · exact outside

/-- A map that leaves every entry as it is leaves the matrix as it is. -/
theorem iouMatrix_map {f : Xyxy → Xyxy} (entry : ∀ x y, iouEntry (f x) (f y) = iouEntry x y)
    (a b : List Xyxy) (i j : ℕ) : iouMatrix (a.map f) (b.map f) i j = iouMatrix a b i j := by
  simp only [iouMatrix, List.getElem?_map]
  cases a[i]? with
  | none => rfl
  | some x =>
    cases b[j]? with
    | none => rfl
    | some y => exact entry x y

theorem iouMatrix_transpose (a b : List Xyxy) (i j : ℕ) : iouMatrix b a j i = iouMatrix a b i j := by
  simp only [iouMatrix]
  cases a[i]? with
  | none => cases b[j]? <;> rfl
  | some x =>
    cases b[j]? with
    | none => rfl
    | some y => exact iouEntry_comm y x

/-- The matrix measures overlap, and no entry of it is a division by 0. -/
theorem iouMatrix_measures_overlap :
    OverlapMeasure iouMatrix ∧
      ∀ a b i j x y, a[i]? = some x → b[j]? = some y →
        iouMatrix a b i j = interArea x y / guardedUnion x y ∧ guardedUnion x y ≠ 0 := by
  constructor
  · exact {
      nonneg := @iouMatrix_induction (0 ≤ ·) iouEntry_nonneg le_rfl
      le_one := @iouMatrix_induction (· ≤ 1) iouEntry_le_one zero_le_one
      transpose := iouMatrix_transpose
      translated := fun a b dx dy => iouMatrix_map (iouEntry_translate dx dy) a b
      scaled := fun a b _ _ x_pos y_pos => iouMatrix_map (iouEntry_scale x_pos y_pos) a b
      one_iff := fun a b i j x y row col => by
        rw [iouMatrix_some row col, iouEntry_eq_one_iff]
        constructor
        · rintro ⟨solid, rfl⟩
          exact ⟨solid, solid, rfl⟩
        · exact fun ⟨solid, _, same⟩ => ⟨solid, same⟩
      no_area := fun a b i j x y row col empty => by
        rw [iouMatrix_some row col, iouEntry_eq_zero empty] }
  · intro a b i j x y row col
    rw [iouMatrix_some row col]
    exact ⟨iouEntry_eq_div x y, (guardedUnion_pos x y).ne'⟩

end VisionNx.Tracker
