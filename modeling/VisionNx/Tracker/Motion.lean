import Mathlib.Algebra.Order.Group.MinMax
import VisionNx.Tracker.Overlap
import VisionNx.Tracker.Recasting

/-! # Tracking does not depend on the coordinates

The tracker reads its boxes through their overlaps only.  A change of coordinates that
keeps every overlap therefore changes nothing but the coordinates: a run on moved boxes
gives out the same ids, in pixels or in fractions of the frame, shifted, mirrored or with
the axes exchanged. -/

namespace VisionNx.Tracker

/-! ## Changes of coordinates -/

/-- The box with its left and its right side exchanged. -/
def mirror (b : Xyxy) : Xyxy := ⟨-b.x2, b.y1, -b.x1, b.y2⟩

/-- The box with its axes exchanged. -/
def transpose (b : Xyxy) : Xyxy := ⟨b.y1, b.x1, b.y2, b.x2⟩

inductive Motion : (Xyxy → Xyxy) → Prop where
  | translate (dx dy : ℚ) : Motion (translate dx dy)
  | scale {sx sy : ℚ} (x_pos : 0 < sx) (y_pos : 0 < sy) : Motion (scale sx sy)
  | mirror : Motion mirror
  | transpose : Motion transpose
  | comp {f g : Xyxy → Xyxy} (outer : Motion f) (inner : Motion g) : Motion fun b => f (g b)

theorem extent_neg (lo hi : ℚ) : extent (-hi) (-lo) = extent lo hi := by
  rw [extent, extent, neg_sub_neg]

theorem sharedExtent_neg (lo hi lo' hi' : ℚ) :
    sharedExtent (-hi) (-lo) (-hi') (-lo') = sharedExtent lo hi lo' hi' := by
  rw [sharedExtent, sharedExtent, max_neg_neg, min_neg_neg, extent_neg]

theorem iouEntry_mirror (a b : Xyxy) : iouEntry (mirror a) (mirror b) = iouEntry a b := by
  have shared : interArea (mirror a) (mirror b) = interArea a b := by
    simp only [interArea, mirror, sharedExtent_neg]
  have own : ∀ c, area (mirror c) = area c := by
    intro c
    simp only [area, mirror, extent_neg]
  rw [iouEntry_eq, iouEntry_eq, shared, own, own]

theorem iouEntry_exchange (a b : Xyxy) : iouEntry (transpose a) (transpose b) = iouEntry a b := by
  have shared : interArea (transpose a) (transpose b) = interArea a b := mul_comm _ _
  have own : ∀ c, area (transpose c) = area c := fun c => mul_comm _ _
  rw [iouEntry_eq, iouEntry_eq, shared, own, own]

theorem Motion.iouEntry_eq {f : Xyxy → Xyxy} (motion : Motion f) (a b : Xyxy) :
    iouEntry (f a) (f b) = iouEntry a b := by
  induction motion generalizing a b with
  | translate dx dy => exact iouEntry_translate dx dy a b
  | scale x_pos y_pos => exact iouEntry_scale x_pos y_pos a b
  | mirror => exact iouEntry_mirror a b
  | transpose => exact iouEntry_exchange a b
  | comp _ _ outer inner => exact (outer _ _).trans (inner a b)

/-! ## Moved boxes, tracks and calls -/

def Box.move (f : Xyxy → Xyxy) (b : Box) : Box := { b with xyxy := f b.xyxy }

def Track.move (f : Xyxy → Xyxy) (trk : Track) : Track := { trk with xyxy := f trk.xyxy }

def ByteTrackLite.move (f : Xyxy → Xyxy) (t : ByteTrackLite) : ByteTrackLite :=
  { t with tracks := t.tracks.map (Track.move f) }

def Op.move (f : Xyxy → Xyxy) : Op → Op
  | .update boxes => .update (boxes.map (Box.move f))
  | .setParams maxAge matchMode => .setParams maxAge matchMode

/-- A change of coordinates that keeps the overlaps is not seen by the tracker. -/
def moving (f : Xyxy → Xyxy) : Recasting where
  box := Box.move f
  track := Track.move f
  stamp _ _ := rfl
  id _ := rfl
  time _ := rfl
  age _ := rfl
  refresh _ _ := rfl
  new _ _ := rfl

theorem op_move (f : Xyxy → Xyxy) : Op.move f = Op.recast (moving f) := by
  funext op
  cases op <;> rfl

/-- The moved boxes overlap the moved tracks as the boxes overlap the tracks. -/
theorem moving_hidden {f : Xyxy → Xyxy} (keeps : ∀ a b, iouEntry (f a) (f b) = iouEntry a b) (mode : MatchMode) :
    (moving f).Hidden mode := by
  intro boxes tracks
  funext i j
  have corners : (boxes.map (Box.move f)).map (·.xyxy) = (boxes.map (·.xyxy)).map f := by
    simp only [List.map_map]
    rfl
  have corners' : (tracks.map (Track.move f)).map (·.xyxy) = (tracks.map (·.xyxy)).map f := by
    simp only [List.map_map]
    rfl
  have keys : (boxes.map (Box.move f)).map (fun b => canonicalCls b.getCls mode) =
      boxes.map fun b => canonicalCls b.getCls mode := by
    simp only [List.map_map]
    rfl
  have keys' : (tracks.map (Track.move f)).map (fun trk => canonicalCls trk.cls mode) =
      tracks.map fun trk => canonicalCls trk.cls mode := by
    simp only [List.map_map]
    rfl
  simp only [matchingMatrix, moving, corners, corners', keys, keys', iouMatrix_map keeps]

/-! ## Runs -/

/-- Two runs of a fresh tracker, the second on the boxes of the first in other coordinates: it returns
    the first run's boxes in these coordinates with the same ids, and its tracks are those of the first
    run, each with the same id, age and hits. -/
theorem coordinates_do_not_matter {f : Xyxy → Xyxy} (motion : Motion f) (iouThr : IouThr) (maxAge : ℤ)
    (matchMode : String) (ops : List Op) :
    let t₀ := ByteTrackLite.init iouThr maxAge matchMode
    outputs t₀ (ops.map (Op.move f)) = (outputs t₀ ops).map (List.map (Box.move f)) ∧
      exec t₀ (ops.map (Op.move f)) = (exec t₀ ops).move f := by
  intro t₀
  have start : t₀.recast (moving f) = t₀ := by
    simp only [t₀, ByteTrackLite.init, ByteTrackLite.recast, List.map_nil]
  obtain ⟨outs, tracks⟩ := @run_recast (moving f) (fun _ => True) (fun mode _ => moving_hidden motion.iouEntry_eq mode)
    t₀ trivial ops fun op _ => by cases op <;> simp [Op.KeepsTo]
  rw [start, ← op_move] at outs tracks
  exact ⟨outs, tracks⟩

/-- A walker who steps aside, in a mirrored picture of 1920 by 1080 pixels. -/
theorem coordinates_do_not_matter_mirrored :
    let t₀ := ByteTrackLite.init ⟨3 / 10, by norm_num⟩ 90 "strict"
    let pixels := fun b => mirror (scale 1920 1080 b)
    let aside := walker.move (translate (1 / 100) 0)
    outputs t₀ ([[walker], [aside]].map (Op.move pixels ∘ .update)) =
        [[(walker.move pixels).stamp 1], [(aside.move pixels).stamp 1]] ∧
      (walker.move pixels).xyxy = ⟨-384, 108, -192, 324⟩ := by
  intro t₀ pixels aside
  have motion : Motion pixels := .comp .mirror (.scale (by norm_num) (by norm_num))
  obtain ⟨outs, -⟩ := coordinates_do_not_matter motion ⟨3 / 10, by norm_num⟩ 90 "strict" ([[walker], [aside]].map .update)
  have plain : outputs t₀ ([[walker], [aside]].map .update) = [[walker.stamp 1], [aside.stamp 1]] := by decide +kernel
  rw [List.map_map] at outs
  rw [outs, plain]
  exact ⟨rfl, by decide +kernel⟩

end VisionNx.Tracker
