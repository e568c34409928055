import VisionNx.Tracker.History

/-! # Updates of recast boxes

The tracker copies coordinates and classes from boxes into tracks and compares them in
its matching matrix only.  A change of the boxes and the tracks that the matrix does not
show therefore commutes with every update. -/

namespace VisionNx.Tracker

/-- A change of boxes and tracks that touches neither ids nor ages and that commutes with
    copying a box into a track. -/
structure Recasting where
  box : Box → Box
  track : Track → Track
  stamp : ∀ b tid, (box b).stamp tid = box (b.stamp tid)
  id : ∀ trk, (track trk).id = trk.id
  time : ∀ trk, (track trk).timeSinceUpdate = trk.timeSinceUpdate
  age : ∀ trk, (track trk).age = track trk.age
  refresh : ∀ trk b, (track trk).refresh (box b) = track (trk.refresh b)
  new : ∀ id b, Track.new id (box b).xyxy (box b).getCls = track (Track.new id b.xyxy b.getCls)

/-- The matching matrix does not show the change. -/
def Recasting.Hidden (r : Recasting) (mode : MatchMode) : Prop :=
  ∀ boxes tracks, matchingMatrix mode (boxes.map r.box) (tracks.map r.track) = matchingMatrix mode boxes tracks

def ByteTrackLite.recast (r : Recasting) (t : ByteTrackLite) : ByteTrackLite :=
  { t with tracks := t.tracks.map r.track }

def Op.recast (r : Recasting) : Op → Op
  | .update boxes => .update (boxes.map r.box)
  | .setParams maxAge matchMode => .setParams maxAge matchMode

namespace ByteTrackLite

variable {r : Recasting}

theorem prune_recast (maxAge : ℤ) (tracks : List Track) :
    prune maxAge (tracks.map r.track) = (prune maxAge tracks).map r.track := by
  simp only [prune, List.filter_map]
  congr 1
  apply List.filter_congr
  intro trk _
  simp only [Function.comp, r.time]

theorem ageAndPrune_recast (t : ByteTrackLite) : (t.recast r).ageAndPrune = t.ageAndPrune.recast r := by
  have aged : (t.tracks.map r.track).map Track.age = (t.tracks.map Track.age).map r.track := by
    simp only [List.map_map]
    exact List.map_congr_left fun trk _ => r.age trk
  simp only [ageAndPrune, recast, aged, prune_recast]

theorem newTrack_recast (t : ByteTrackLite) (b : Box) :
    (t.recast r).newTrack (r.box b).xyxy (r.box b).getCls =
      ((t.newTrack b.xyxy b.getCls).1.recast r, (t.newTrack b.xyxy b.getCls).2) := by
  simp only [newTrack, recast, List.map_append, List.map_cons, List.map_nil, r.new]

/-- The loop that applies the matches copies boxes into tracks. -/
theorem applyMatches_recast (detToTrack : ℕ → Option ℕ) (di : ℕ) (tracks : List Track) (bs : List Box) :
    applyMatches detToTrack di (tracks.map r.track) (bs.map r.box) =
      ((applyMatches detToTrack di tracks bs).1.map r.track, (applyMatches detToTrack di tracks bs).2.map r.box) := by
  induction bs generalizing di tracks with
  | nil => rfl
  | cons b bs ih =>
    cases matched : detToTrack di with
    | none => simp only [List.map_cons, applyMatches, matched, ih]
    | some ti =>
      have refreshed : (tracks.map r.track).modify ti (·.refresh (r.box b)) =
          (tracks.modify ti (·.refresh b)).map r.track := by
        apply List.ext_getElem?
        intro k
        simp only [List.getElem?_modify, List.getElem?_map]
        cases tracks[k]? with
        | none => rfl
        | some trk => by_cases here : ti = k <;> simp [here, r.refresh]
      have stamped : ((tracks.map r.track)[ti]?.map fun trk => (r.box b).stamp trk.id).getD (r.box b) =
          r.box ((tracks[ti]?.map fun trk => b.stamp trk.id).getD b) := by
        rw [List.getElem?_map]
        cases tracks[ti]? with
        | none => rfl
        | some trk => simp [r.id, r.stamp]
      simp only [List.map_cons, applyMatches, matched, refreshed, stamped, ih]

theorem openTracks_recast (detMatched : ℕ → Bool) (di : ℕ) (t : ByteTrackLite) (bs : List Box) :
    openTracks detMatched di (t.recast r) (bs.map r.box) =
      ((openTracks detMatched di t bs).1.recast r, (openTracks detMatched di t bs).2.map r.box) := by
  induction bs generalizing di t with
  | nil => rfl
  | cons b bs ih =>
    by_cases matched : detMatched di = true
    · simp only [List.map_cons, openTracks, matched, if_true, ih]
    · simp only [List.map_cons, openTracks, matched, Bool.false_eq_true, if_false, newTrack_recast, ih, r.stamp]

theorem update_recast (t : ByteTrackLite) (hidden : r.Hidden t.matchMode) (boxes : List Box) :
    (t.recast r).update (boxes.map r.box) = ((t.update boxes).1.recast r, (t.update boxes).2.map r.box) := by
  have nothing : (boxes.map r.box).isEmpty = boxes.isEmpty := List.isEmpty_map
  have idle : (t.recast r).tracks.isEmpty = t.tracks.isEmpty := List.isEmpty_map
  by_cases empty : boxes.isEmpty = true
  · simp only [update, nothing, empty, if_true, ageAndPrune_recast]
  by_cases fresh : t.tracks.isEmpty = true
  · simp only [update, nothing, idle, empty, fresh, Bool.false_eq_true, if_true, if_false, openTracks_recast]
  -- Both runs work with the same matching.
  have matrix := hidden boxes t.tracks
  have applied := fun g => @applyMatches_recast r g 0 t.tracks boxes
  have aged : ∀ (claimed : ℕ → Bool) (tracks : List Track),
      (tracks.map r.track).mapIdx (fun ti trk => if claimed ti then trk else trk.age) =
        (tracks.mapIdx fun ti trk => if claimed ti then trk else trk.age).map r.track := by
    intro claimed tracks
    apply List.ext_getElem?
    intro k
    simp only [List.getElem?_mapIdx, List.getElem?_map]
    cases tracks[k]? with
    | none => rfl
    | some trk => cases claimed k <;> simp [r.age]
  have opened := fun g tracks bs => @openTracks_recast r g 0 { t with tracks := prune t.maxAge tracks } bs
  simp only [recast, ← prune_recast] at opened
  simp only [update, nothing, idle, empty, fresh, Bool.false_eq_true, if_false]
  simp only [recast, List.length_map, matrix, applied, aged, opened]

end ByteTrackLite

/-! ## Runs -/

/-- The modes that the call leaves are among `modes`. -/
def Op.KeepsTo (modes : MatchMode → Prop) : Op → Prop
  | .update _ => True
  | .setParams _ matchMode => ∀ m, matchMode = some m → modes (normalizeMode m)

variable {r : Recasting} {modes : MatchMode → Prop}

theorem Op.KeepsTo.apply {t : ByteTrackLite} {op : Op} (keeps : op.KeepsTo modes) (now : modes t.matchMode) :
    modes (op.apply t).1.matchMode := by
  cases op with
  | update boxes =>
    show modes (t.update boxes).1.matchMode
    rw [t.update_eq_settle]
    exact now
  | setParams maxAge matchMode =>
    cases matchMode with
    | none => exact now
    | some m =>
      have set : modes (normalizeMode m) := keeps m rfl
      simpa only [Op.apply, ByteTrackLite.setParams, Option.map_some, Option.getD_some] using set

theorem Op.apply_recast {t : ByteTrackLite} (hidden : r.Hidden t.matchMode) (op : Op) :
    (op.recast r).apply (t.recast r) = ((op.apply t).1.recast r, (op.apply t).2.map r.box) := by
  cases op with
  | update boxes => exact t.update_recast hidden boxes
  | setParams maxAge matchMode => rfl

/-- A run on recast boxes is the recast run. -/
theorem run_recast (hidden : ∀ mode, modes mode → r.Hidden mode) {t : ByteTrackLite} (now : modes t.matchMode)
    {ops : List Op} (keeps : ∀ op ∈ ops, op.KeepsTo modes) :
    outputs (t.recast r) (ops.map (Op.recast r)) = (outputs t ops).map (List.map r.box) ∧
      exec (t.recast r) (ops.map (Op.recast r)) = (exec t ops).recast r := by
  induction ops generalizing t with
  | nil => exact ⟨rfl, rfl⟩
  | cons op ops ih =>
    obtain ⟨outs, tracks⟩ := ih ((keeps op List.mem_cons_self).apply now) fun op mem =>
      keeps op (List.mem_cons_of_mem _ mem)
    simp only [List.map_cons, outputs, exec, Op.apply_recast (hidden _ now), outs, tracks]
    exact ⟨trivial, trivial⟩

end VisionNx.Tracker
