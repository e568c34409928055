import Mathlib.Data.Rat.Floor
import Mathlib.Data.List.MinMax
import VisionNx.Image
import VisionNx.Python

/-! # The ByteTrack-lite tracker

`python/tracker.py`: one `ByteTrackLite` per connection pairs the detections of a
frame with the live tracks by greedy IoU, ages the tracks it did not see and opens a
track for every detection left over.

Coordinates, scores and thresholds are read as rationals.  `np.asarray(…,
dtype=np.int32)` raises on a wider class id, so a box carries an `Int32`.  The
`while True` loop of `update` only ends for thresholds above the mask value `-1`;
`IouThr` carries that bound, and `greedyLoop` gets as many rounds as the loop can
take (`greedyMatch_stops`).
-/

namespace VisionNx.Tracker

open VisionNx.Python

/-! ## Boxes and tracks -/

/-- A detection dict; an absent key is `none`. -/
structure Box where
  xyxy : Xyxy
  score : ℚ
  cls : Option Int32
  trackId : Option ℕ := none
  deriving DecidableEq, Repr

/-- `int(b.get("cls", 0))`. -/
def Box.getCls (b : Box) : Int32 := b.cls.getD 0

/-- `b["track_id"] = tid`. -/
def Box.stamp (b : Box) (tid : ℕ) : Box := { b with trackId := some tid }

@[simp] theorem Box.stamp_xyxy (b : Box) (tid : ℕ) : (b.stamp tid).xyxy = b.xyxy := rfl
@[simp] theorem Box.stamp_score (b : Box) (tid : ℕ) : (b.stamp tid).score = b.score := rfl
@[simp] theorem Box.stamp_cls (b : Box) (tid : ℕ) : (b.stamp tid).cls = b.cls := rfl
@[simp] theorem Box.stamp_getCls (b : Box) (tid : ℕ) : (b.stamp tid).getCls = b.getCls := rfl
@[simp] theorem Box.stamp_trackId (b : Box) (tid : ℕ) : (b.stamp tid).trackId = some tid := rfl

structure Track where
  id : ℕ
  xyxy : Xyxy
  cls : Int32
  timeSinceUpdate : ℕ
  hits : ℕ
  deriving DecidableEq, Repr

/-- A track as `_Track.__init__` makes it. -/
def Track.new (id : ℕ) (xyxy : Xyxy) (cls : Int32) : Track := ⟨id, xyxy, cls, 0, 1⟩

def Track.refresh (trk : Track) (b : Box) : Track :=
  { trk with xyxy := b.xyxy, cls := b.getCls, timeSinceUpdate := 0, hits := trk.hits + 1 }

def Track.age (trk : Track) : Track :=
  { trk with timeSinceUpdate := trk.timeSinceUpdate + 1 }

@[simp] theorem Track.refresh_id (trk : Track) (b : Box) : (trk.refresh b).id = trk.id := rfl
@[simp] theorem Track.age_id (trk : Track) : trk.age.id = trk.id := rfl

/-! ## Class keys -/

inductive MatchMode where
  | strict
  | vehicleGroup
  | any
  deriving DecidableEq, Repr

def normalizeMode (m : String) : MatchMode :=
  let m := lower (strip m)
  if m = "strict" then .strict
  else if m = "vehicle_group" then .vehicleGroup
  else if m = "any" then .any
  -- The empty string and whatever is unknown.
  else .vehicleGroup

def vehicleGroup4W : List Int32 := [2, 5, 7]

def vehicleGroup2W : List Int32 := [1, 3]

def canonicalCls (clsId : Int32) : MatchMode → Int32
  | .any => -1
  | .vehicleGroup =>
    if clsId ∈ vehicleGroup4W then -100
    else if clsId ∈ vehicleGroup2W then -101
    else clsId
  | .strict => clsId

/-! ## The IoU matrix -/

/-- One entry of `_iou_matrix`. -/
def iouEntry (a b : Xyxy) : ℚ :=
  let interW := max (min a.x2 b.x2 - max a.x1 b.x1) 0
  let interH := max (min a.y2 b.y2 - max a.y1 b.y1) 0
  let interArea := interW * interH
  let aArea := max (a.x2 - a.x1) 0 * max (a.y2 - a.y1) 0
  let bArea := max (b.x2 - b.x1) 0 * max (b.y2 - b.y1) 0
  let union := aArea + bArea - interArea
  -- The guard against two boxes without area.
  interArea / if union ≤ 0 then 1 / 10 ^ 9 else union

/-- `_iou_matrix`, as its entries; it has a row for each of `a`, a column for each
    of `b` and no other entries. -/
def iouMatrix (a b : List Xyxy) (i j : ℕ) : ℚ :=
  match a[i]?, b[j]? with
  | some x, some y => iouEntry x y
  | _, _ => 0

/-- The matrix the greedy loop starts from: IoU, with the pairs of different
    canonical class driven to 0 unless the mode is `any`. -/
def matchingMatrix (mode : MatchMode) (boxes : List Box) (tracks : List Track) (i j : ℕ) : ℚ :=
  let iou := iouMatrix (boxes.map (·.xyxy)) (tracks.map (·.xyxy)) i j
  if mode = .any then iou
  else
    let detCanon := boxes.map fun b => canonicalCls b.getCls mode
    let trkCanon := tracks.map fun t => canonicalCls t.cls mode
    iou * if detCanon[i]? = trkCanon[j]? then 1 else 0

/-! ## The greedy loop -/

/-- `np.argmax` of an `n × m` array: the flat index of the first maximal entry. -/
def argmax (n m : ℕ) (iou : ℕ → ℕ → ℚ) : ℕ :=
  ((List.range (n * m)).argmax fun k => iou (k / m) (k % m)).getD 0

structure GreedyState where
  iou : ℕ → ℕ → ℚ
  detMatched : ℕ → Bool := fun _ => false
  trkMatched : ℕ → Bool := fun _ => false
  detToTrack : ℕ → Option ℕ := fun _ => none

def GreedyState.lock (s : GreedyState) (di ti : ℕ) : GreedyState where
  -- The row and the column of the pair are masked.
  iou := fun i j => if i = di ∨ j = ti then -1 else s.iou i j
  detMatched := fun i => if i = di then true else s.detMatched i
  trkMatched := fun j => if j = ti then true else s.trkMatched j
  detToTrack := fun i => if i = di then some ti else s.detToTrack i

/-- One round of `while True`; `none` is the `break`. -/
def greedyRound (thr : ℚ) (n m : ℕ) (s : GreedyState) : Option GreedyState :=
  let idx := argmax n m s.iou
  let best := s.iou (idx / m) (idx % m)
  if best < thr then none
  else
    let di := idx / m
    let ti := idx % m
    -- The defensive branch, which `greedyRound_cases` excludes.
    if s.detMatched di || s.trkMatched ti then
      some { s with iou := fun i j => if i = di ∧ j = ti then -1 else s.iou i j }
    else some (s.lock di ti)

def greedyLoop (thr : ℚ) (n m : ℕ) : ℕ → GreedyState → GreedyState
  | 0, s => s
  | fuel + 1, s =>
    match greedyRound thr n m s with
    | none => s
    | some s' => greedyLoop thr n m fuel s'

def greedyMatch (thr : ℚ) (n m : ℕ) (iou : ℕ → ℕ → ℚ) : GreedyState :=
  -- A round that goes on uses up a row and a column; one more finds nothing left.
  greedyLoop thr n m (min n m + 1) { iou }

/-! ## The tracker -/

/-- Thresholds for which the greedy loop ends. -/
abbrev IouThr := {q : ℚ // -1 < q}

structure ByteTrackLite where
  nextId : ℕ
  tracks : List Track
  iouThr : IouThr
  maxAge : ℤ
  matchMode : MatchMode
  deriving DecidableEq, Repr

namespace ByteTrackLite

def init (iouThr : IouThr := ⟨3 / 10, by norm_num⟩) (maxAge : ℤ := 90)
    (matchMode : String := "vehicle_group") : ByteTrackLite :=
  ⟨1, [], iouThr, maxAge, normalizeMode matchMode⟩

def setParams (t : ByteTrackLite) (iouThr : Option IouThr) (maxAge : Option ℤ)
    (matchMode : Option String) : ByteTrackLite :=
  { t with
    iouThr := iouThr.getD t.iouThr
    maxAge := maxAge.getD t.maxAge
    matchMode := (matchMode.map normalizeMode).getD t.matchMode }

def liveCount (t : ByteTrackLite) : ℕ := t.tracks.length

def newTrack (t : ByteTrackLite) (xyxy : Xyxy) (cls : Int32) : ByteTrackLite × ℕ :=
  ({ t with nextId := t.nextId + 1, tracks := t.tracks ++ [Track.new t.nextId xyxy cls] },
    t.nextId)

def prune (maxAge : ℤ) (tracks : List Track) : List Track :=
  tracks.filter fun trk => decide ((trk.timeSinceUpdate : ℤ) ≤ maxAge)

def ageAndPrune (t : ByteTrackLite) : ByteTrackLite :=
  { t with tracks := prune t.maxAge (t.tracks.map Track.age) }

/-- The loop that applies the matches, from detection `di` on. -/
def applyMatches (detToTrack : ℕ → Option ℕ) : ℕ → List Track → List Box → List Track × List Box
  | _, tracks, [] => (tracks, [])
  | di, tracks, b :: bs =>
    match detToTrack di with
    | none =>
      let rest := applyMatches detToTrack (di + 1) tracks bs
      (rest.1, b :: rest.2)
    | some ti =>
      let b' := (tracks[ti]?.map fun trk => b.stamp trk.id).getD b
      let rest := applyMatches detToTrack (di + 1) (tracks.modify ti (·.refresh b)) bs
      (rest.1, b' :: rest.2)

/-- The loop that opens a track for each detection, from `di` on, not matched. -/
def openTracks (detMatched : ℕ → Bool) : ℕ → ByteTrackLite → List Box → ByteTrackLite × List Box
  | _, t, [] => (t, [])
  | di, t, b :: bs =>
    if detMatched di then
      let rest := openTracks detMatched (di + 1) t bs
      (rest.1, b :: rest.2)
    else
      let (t', tid) := t.newTrack b.xyxy b.getCls
      let rest := openTracks detMatched (di + 1) t' bs
      (rest.1, b.stamp tid :: rest.2)

def update (t : ByteTrackLite) (boxes : List Box) : ByteTrackLite × List Box :=
  if boxes.isEmpty then (t.ageAndPrune, boxes)
  else if t.tracks.isEmpty then openTracks (fun _ => false) 0 t boxes
  else
    let g := greedyMatch t.iouThr boxes.length t.tracks.length
      (matchingMatrix t.matchMode boxes t.tracks)
    let applied := applyMatches g.detToTrack 0 t.tracks boxes
    let aged := applied.1.mapIdx fun ti trk => if g.trkMatched ti then trk else trk.age
    -- Pruning comes before the new tracks, so they are not aged at birth.
    openTracks g.detMatched 0 { t with tracks := prune t.maxAge aged } applied.2

def liveIds (t : ByteTrackLite) : List ℕ := t.tracks.map (·.id)

end ByteTrackLite

end VisionNx.Tracker
