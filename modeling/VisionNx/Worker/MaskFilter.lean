import VisionNx.Worker.LastConfig

/-! # The masks of the last config

The worker keeps the pixel polygons of every frame size in a cache that it empties with
each config.  Whatever came before, the tracker gets the boxes of a frame that pass the
masks of the last config, scaled to this frame. -/

namespace VisionNx.Worker

open Tracker TransitionRuns

variable {A : Type}

/-! ## What passes -/

/-- The polygon that the last config gives for `key`, in the pixels of a frame. -/
def pixelPolygon (messages : List Incoming) (key : String) (w h : ℤ) : Option (List (ℤ × ℤ)) :=
  normalizeToPixelPolygon (coercePoly (configured messages key)) w h

/-- A point of a polygon as JSON. -/
def pointJson (p : ℚ × ℚ) : Json := .arr [.num p.1, .num p.2]

/-- A point of a polygon in the pixels of a frame. -/
def pixelPoint (w h : ℤ) (p : ℚ × ℚ) : ℤ × ℤ :=
  (Python.toInt (max 0 (min 1 p.1) * w), Python.toInt (max 0 (min 1 p.2) * h))

/-- An array of at least three number pairs is read as these pairs. -/
theorem coercePoly_pairs {pts : List (ℚ × ℚ)} (polygon : 3 ≤ pts.length) :
    coercePoly (some (.arr (pts.map pointJson))) = some (pts.map fun p => [p.1, p.2]) := by
  have read : (pts.map pointJson).filterMap coercePoint = pts.map fun p => [p.1, p.2] := by
    rw [List.filterMap_map, ← List.filterMap_eq_map]
    exact List.filterMap_congr fun _ _ => rfl
  simp only [coercePoly, read, List.length_map]
  rw [if_neg (by omega)]

theorem normalizeToPixelPolygon_pairs {pts : List (ℚ × ℚ)} (polygon : 3 ≤ pts.length) (w h : ℤ) :
    normalizeToPixelPolygon (some (pts.map fun p => [p.1, p.2])) w h = some (pts.map (pixelPoint w h)) := by
  rw [normalizeToPixelPolygon, Option.bind_some, if_neg (by rw [List.length_map]; omega)]
  clear polygon
  induction pts with
  | nil => rfl
  | cons p pts ih =>
    rw [List.map_cons, List.mapM_cons, ih]
    rfl

/-- The centre of a box in the pixels of a frame. -/
def centre (w h : ℤ) (box : Box) : ℚ × ℚ :=
  ((box.xyxy.x1 + box.xyxy.x2) * (1 / 2) * w, (box.xyxy.y1 + box.xyxy.y2) * (1 / 2) * h)

/-- Inside the inclusive polygon, if there is one, and not inside the exclusive polygon. -/
def passesMasks (env : Env A) (inclusive exclusive : Option (List (ℤ × ℤ))) (w h : ℤ) (box : Box) : Bool :=
  inclusive.all (fun poly => env.pointPolygonTest poly (centre w h box)) &&
    exclusive.all fun poly => !env.pointPolygonTest poly (centre w h box)

/-! ## One frame -/

variable {env : Env A} {b : Behaviour A} {s : ServeState A}

theorem filter_unmasked (boxes : List Box) (w h : ℤ) : boxes.filter (passesMasks env none none w h) = boxes :=
  List.filter_eq_self.mpr fun _ _ => rfl

theorem filterBoxesByRegions_eq (boxes : List Box) (w h : ℤ) (inclusive exclusive : Option (List (ℤ × ℤ))) :
    filterBoxesByRegions env.pointPolygonTest Box.xyxy boxes w h none inclusive exclusive =
      boxes.filter (passesMasks env inclusive exclusive w h) := by
  have filtered : ∀ test : Box → Bool, (∀ box, test box = passesMasks env inclusive exclusive w h box) →
      boxes.filter test = boxes.filter (passesMasks env inclusive exclusive w h) :=
    fun test same => List.filter_congr fun box _ => same box
  cases inclusive with
  | none =>
    cases exclusive with
    | none => exact (filter_unmasked boxes w h).symm
    | some poly => exact filtered _ fun box => rfl
  | some poly =>
    cases exclusive with
    | none => exact filtered _ fun box => by simp [passesMasks, centre]
    | some poly' => exact filtered _ fun box => by simp [passesMasks, centre]

/-- Without polygons there is nothing to filter, so the test before the filter only saves
    work. -/
theorem applyMasks_boxes (env : Env A) (s : ServeState A) (w h : ℤ) (boxes : List Box)
    (computed : polyPx s w h = (normalizeToPixelPolygon s.inclusiveNorm w h, normalizeToPixelPolygon s.exclusiveNorm w h)) :
    (applyMasks env s w h boxes).1 = boxes.filter (passesMasks env (normalizeToPixelPolygon s.inclusiveNorm w h)
      (normalizeToPixelPolygon s.exclusiveNorm w h) w h) := by
  simp only [applyMasks]
  split
  next => rw [filterBoxesByRegions_eq, computed]
  next unmasked =>
    simp only [Bool.or_eq_true, not_or, Bool.not_eq_true, Option.isSome_eq_false_iff, Option.isNone_iff_eq_none] at unmasked
    simp only [unmasked, normalizeToPixelPolygon, Option.bind_none, filter_unmasked]

/-- What the tracker is updated with when the adapter has answered. -/
theorem handleFrame_updates {t : ByteTrackLite} {hdr : FrameHeader} {body : List UInt8} {boxes : List Box}
    (tracked : s.tracker = some t) (answered : (inferInput env s hdr body).bind (allBoxes b s hdr) = some boxes) :
    (handleFrame env b s hdr body).2.updates = [(applyMasks env s hdr.w hdr.h boxes).1] := by
  have masked := (applyMasks_state env s hdr.w hdr.h boxes).1.trans tracked
  have ticked : (maybeInfer env b s hdr body).trackerTicked = true ∧
      (maybeInfer env b s hdr body).updates = [(applyMasks env s hdr.w hdr.h boxes).1] := by
    rw [maybeInfer_eq, answered]
    simp only [FrameProgress.tick, masked, List.nil_append, and_self]
  simp only [handleFrame, ticked.1, if_true, ticked.2]

/-! ## Runs -/

/-- After any history of a connection, the tracker is updated with the boxes of the
    adapter that pass the masks of the last config at the size of this frame, in their
    order.  Points of a config make up a polygon if there are three of them. -/
theorem tracker_gets_masked (env : Env A) {events : List (Incoming × Behaviour A)} {s : ServeState A}
    (past : Run (Handles env) {} events s) (b : Behaviour A) (msg : List (String × Json)) (hdr : FrameHeader)
    (body : List UInt8) {given : A × Crop} {boxes : List Box} (called : inferInput env s hdr body = some given)
    (answered : allBoxes b s hdr given = some boxes) :
    (handle env b s (.frame msg hdr body)).map (fun after => after.2.updates) =
      some [boxes.filter (passesMasks env (pixelPolygon (events.map Prod.fst) "inclusive_mask" hdr.w hdr.h)
        (pixelPolygon (events.map Prod.fst) "exclusive_mask" hdr.w hdr.h) hdr.w hdr.h)] ∧
    ∀ (key : String) (pts : List (ℚ × ℚ)), 3 ≤ pts.length →
      configured (events.map Prod.fst) key = some (.arr (pts.map pointJson)) →
      pixelPolygon (events.map Prod.fst) key hdr.w hdr.h = some (pts.map (pixelPoint hdr.w hdr.h)) := by
  have inForce : InForce (events.map Prod.fst) s := by
    simpa using inForce_start.run past
  obtain ⟨t, tracked⟩ := Option.isSome_iff_exists.mp (inForce.tracker_first (by rw [inferInput_adapter called]; rfl))
  have updates := @handleFrame_updates A env b { s with cam := (Json.lookup "camera_uuid" msg).getD s.cam }
    t hdr body boxes tracked (Option.bind_eq_some_iff.mpr ⟨given, called, answered⟩)
  refine ⟨?_, fun key pts polygon is_key => ?_⟩
  · rw [handle, Option.map_some, updates, applyMasks_boxes _ _ _ _ _ ((inForce.cam _).polyPx hdr.w hdr.h)]
    simp only [pixelPolygon, ← inForce.inclusive, ← inForce.exclusive]
  · rw [pixelPolygon, is_key, coercePoly_pairs polygon, normalizeToPixelPolygon_pairs polygon]

/-- The point test for rectangles whose sides are parallel to the axes. -/
def rectangleEnv : Env Unit where
  hasSession _ := true
  pointPolygonTest poly p :=
    (poly.any fun v => (v.1 : ℚ) ≤ p.1) && (poly.any fun v => p.1 ≤ v.1) &&
      (poly.any fun v => (v.2 : ℚ) ≤ p.2) && poly.any fun v => p.2 ≤ v.2

/-- The left half of a frame. -/
def leftCorners : List (ℚ × ℚ) := [(0, 0), (1 / 2, 0), (1 / 2, 1), (0, 1)]

/-- The left half of the frame is the inclusive mask. -/
def leftMask : List (String × Json) :=
  [("type", .str "config"), ("model_path", .str "yolo26n.onnx"), ("inclusive_mask", .arr (leftCorners.map pointJson))]

def afterLeftMask : ServeState Unit :=
  ((handle rectangleEnv (carOrRaise true) {} (.message leftMask)).map Prod.fst).getD {}

def carAt (x1 x2 : ℚ) : Box := { xyxy := ⟨x1, 0, x2, 1⟩, score := 9 / 10, cls := some 2 }

/-- An adapter that finds a car in each half of the frame. -/
def twoCars : Behaviour Unit := { carOrRaise true with infer := fun _ _ _ _ _ => some [carAt 0 (1 / 2), carAt (1 / 2) 1] }

/-- The car on the left passes, the one on the right does not. -/
theorem tracker_gets_masked_left_half :
    (handle rectangleEnv twoCars afterLeftMask (.frame [] ⟨16, 8, 48, 1⟩ (List.replicate 384 90))).map
        (fun after => after.2.updates) = some [[carAt 0 (1 / 2)]] ∧
      pixelPolygon [.message leftMask] "inclusive_mask" 16 8 = some [(0, 0), (8, 0), (8, 8), (0, 8)] := by
  have configured : Run (Handles rectangleEnv) {} [(.message leftMask, carOrRaise true)] afterLeftMask := by
    refine .cons ?_ (.nil _)
    obtain ⟨after, handled⟩ := Option.isSome_iff_exists.mp
      (show (handle rectangleEnv (carOrRaise true) {} (.message leftMask)).isSome = true by decide +kernel)
    exact ⟨after.2, by simp only [afterLeftMask, handled, Option.map_some, Option.getD_some, Prod.mk.eta]⟩
  have found : (inferInput rectangleEnv afterLeftMask ⟨16, 8, 48, 1⟩ (List.replicate 384 90)).bind
      (allBoxes twoCars afterLeftMask ⟨16, 8, 48, 1⟩) = some [carAt 0 (1 / 2), carAt (1 / 2) 1] := by
    decide +kernel
  obtain ⟨given, called, answered⟩ := Option.bind_eq_some_iff.mp found
  obtain ⟨masked, read⟩ := tracker_gets_masked rectangleEnv configured twoCars [] _ _ called answered
  exact ⟨masked.trans (by decide +kernel),
    (read "inclusive_mask" leftCorners (by decide) rfl).trans (by decide +kernel)⟩

end VisionNx.Worker
