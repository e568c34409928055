import Mathlib.Data.List.Basic
import Mathlib.Data.Rat.Defs

/-! # Images and boxes on them

An image is an `H × W × 3` array of bytes.  Its size is part of the value, since the
worker takes the sizes it computes with from `shape`. -/

namespace VisionNx

/-- The corners of a box, `"xyxy"`. -/
structure Xyxy where
  x1 : ℚ
  y1 : ℚ
  x2 : ℚ
  y2 : ℚ
  deriving DecidableEq, Repr

structure Rgb where
  r : UInt8
  g : UInt8
  b : UInt8
  deriving DecidableEq, Repr

structure Image where
  h : ℕ
  w : ℕ
  rows : List (List Rgb)
  height : rows.length = h
  width : ∀ row ∈ rows, row.length = w
  deriving DecidableEq

namespace Image

/-- The pixel in row `y` and column `x`. -/
def at? (img : Image) (y x : ℕ) : Option Rgb := img.rows[y]? >>= (·[x]?)

/-- `img[y1:y2, x1:x2]` for bounds that are not negative. -/
def slice (img : Image) (y1 y2 x1 x2 : ℕ) : Image where
  h := min (y2 - y1) (img.h - y1)
  w := min (x2 - x1) (img.w - x1)
  rows := ((img.rows.drop y1).take (y2 - y1)).map fun row => (row.drop x1).take (x2 - x1)
  height := by simp [img.height]
  width := by
    intro row mem
    obtain ⟨full, inside, rfl⟩ := List.mem_map.mp mem
    rw [List.length_take, List.length_drop, img.width full (List.mem_of_mem_drop (List.mem_of_mem_take inside))]

/-- `np.full((h, w, 3), color)`. -/
def full (h w : ℕ) (color : Rgb) : Image where
  h := h
  w := w
  rows := List.replicate h (List.replicate w color)
  height := by simp
  width := by simp

/-- `canvas[y:y+img.h, x:x+img.w] = img`; `none` when the region does not fit. -/
def paste (canvas img : Image) (y x : ℤ) : Option Image :=
  if fits : 0 ≤ y ∧ y + img.h ≤ canvas.h ∧ 0 ≤ x ∧ x + img.w ≤ canvas.w then
    some {
      h := canvas.h
      w := canvas.w
      rows := canvas.rows.mapIdx fun i row =>
        if y.toNat ≤ i then
          match img.rows[i - y.toNat]? with
          | some drawn => row.take x.toNat ++ drawn ++ row.drop (x.toNat + img.w)
          | none => row
        else row
      height := by simp [canvas.height]
      width := by
        intro row mem
        obtain ⟨i, hi, rfl⟩ := List.mem_mapIdx.mp mem
        have len := canvas.width _ (List.getElem_mem hi)
        split
        · split
          · rename_i drawn at_i
            have drawn_len := img.width drawn (List.mem_of_getElem? at_i)
            simp only [List.length_append, List.length_take, List.length_drop, len, drawn_len]
            omega
          · exact len
        · exact len }
  else none

/-- Pixel `(y, x)` of a slice is pixel `(y1 + y, x1 + x)` of the image. -/
theorem slice_at {img : Image} {y1 y2 x1 x2 y x : ℕ} (hy : y < y2 - y1) (hx : x < x2 - x1) :
    (img.slice y1 y2 x1 x2).at? y x = img.at? (y1 + y) (x1 + x) := by
  simp only [at?, slice, List.getElem?_map, List.getElem?_take, hy, if_true, List.getElem?_drop]
  cases img.rows[y1 + y]? with
  | none => rfl
  | some row => simp [hx]

theorem paste_size {canvas img pasted : Image} {y x : ℤ} (drawn : canvas.paste img y x = some pasted) :
    pasted.h = canvas.h ∧ pasted.w = canvas.w := by
  obtain ⟨fits, is⟩ := Option.dite_none_right_eq_some.mp drawn
  obtain rfl := Option.some.inj is
  exact ⟨rfl, rfl⟩

/-- What `paste` draws stands at its place. -/
theorem paste_at {canvas img pasted : Image} {y x : ℤ} (drawn : canvas.paste img y x = some pasted) {i j : ℕ}
    (hi : i < img.h) (hj : j < img.w) : pasted.at? (y.toNat + i) (x.toNat + j) = img.at? i j := by
  obtain ⟨fits, is⟩ := Option.dite_none_right_eq_some.mp drawn
  obtain rfl := Option.some.inj is
  have row_inside : y.toNat + i < canvas.rows.length := by
    rw [canvas.height]
    omega
  have wide : x.toNat ≤ (canvas.rows[y.toNat + i]).length := by
    rw [canvas.width _ (List.getElem_mem row_inside)]
    omega
  have in_img : i < img.rows.length := by rw [img.height]; exact hi
  have in_row : j < (img.rows[i]).length := by rw [img.width _ (List.getElem_mem in_img)]; exact hj
  simp only [at?, List.getElem?_mapIdx, List.getElem?_eq_getElem row_inside, Option.map_some, Nat.le_add_right, if_true,
    Nat.add_sub_cancel_left, List.getElem?_eq_getElem in_img, Option.bind_eq_bind, Option.bind_some]
  rw [List.append_assoc, List.getElem?_append_right (by rw [List.length_take_of_le wide]; omega),
    List.length_take_of_le wide, Nat.add_sub_cancel_left, List.getElem?_append_left in_row]

theorem exists_at (img : Image) {y x : ℕ} (hy : y < img.h) (hx : x < img.w) : ∃ p, img.at? y x = some p := by
  have row_inside : y < img.rows.length := by rw [img.height]; exact hy
  have pixel_inside : x < (img.rows[y]).length := by rw [img.width _ (List.getElem_mem row_inside)]; exact hx
  exact ⟨img.rows[y][x], by simp [at?, row_inside, pixel_inside]⟩

/-- An image is its size and its pixels. -/
theorem ext_at {img img' : Image} (height : img.h = img'.h) (width : img.w = img'.w)
    (pixel : ∀ y x, y < img.h → x < img.w → img.at? y x = img'.at? y x) : img = img' := by
  obtain ⟨h, w, rows, len, lens⟩ := img
  obtain ⟨h', w', rows', len', lens'⟩ := img'
  simp only at height width pixel
  subst height width
  have same : rows = rows' := by
    apply List.ext_getElem (len.trans len'.symm)
    intro y inside inside'
    have row := lens _ (List.getElem_mem inside)
    have row' := lens' _ (List.getElem_mem inside')
    apply List.ext_getElem (row.trans row'.symm)
    intro x at_x at_x'
    have := pixel y x (len ▸ inside) (row ▸ at_x)
    simpa [at?, inside, inside', at_x, at_x'] using this
  subst same
  rfl

end Image

end VisionNx
