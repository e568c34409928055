import VisionNx.Tracker.Matching

/-! # What one update does

`update` mutates the track list and the boxes in three loops, with two early returns.
`settle` is its result in closed form, as a function of the matching alone: every
existing track is refreshed by the detection that claims it or aged, the expired ones
go, and the detections without a track open new ones with consecutive ids.
`update_eq_settle` is the only place where the loops are unfolded; everything about
runs of a tracker is proved from `settle` and `matching_greedy`.
-/

namespace VisionNx.Tracker

open GreedyMatching

/-! ## Parts of the closed form -/

/-- The track after the update, given the detection that claimed it. -/
def Track.advance (trk : Track) : Option Box → Track
  | some b => trk.refresh b
  | none => trk.age

@[simp] theorem Track.advance_id (trk : Track) (b? : Option Box) : (trk.advance b?).id = trk.id := by
  cases b? <;> rfl

/-- The detection, among `bs` with indices from `di` on, that is matched to track
    `ti`. -/
def claimant (mt : ℕ → Option ℕ) (ti : ℕ) : ℕ → List Box → Option Box
  | _, [] => none
  | di, b :: bs => if mt di = some ti then some b else claimant mt ti (di + 1) bs

/-- The live id that each of `n` detections from `di` on takes over, if any. -/
def ownIds (mt : ℕ → Option ℕ) (ids : List ℕ) (di n : ℕ) : List (Option ℕ) :=
  (List.range' di n).map fun i => (mt i).bind fun ti => ids[ti]?

def fillFresh : ℕ → List (Option ℕ) → List ℕ
  | _, [] => []
  | next, some i :: own => i :: fillFresh next own
  | next, none :: own => next :: fillFresh (next + 1) own

def births : ℕ → List (Option ℕ) → List Box → List Track
  | next, none :: own, b :: bs => Track.new next b.xyxy b.getCls :: births (next + 1) own bs
  | next, some _ :: own, _ :: bs => births next own bs
  | _, _, _ => []

theorem ownIds_succ (mt : ℕ → Option ℕ) (ids : List ℕ) (di n : ℕ) :
    ownIds mt ids di (n + 1) =
      ((mt di).bind fun ti => ids[ti]?) :: ownIds mt ids (di + 1) n := rfl

@[simp] theorem length_ownIds (mt : ℕ → Option ℕ) (ids : List ℕ) (di n : ℕ) :
    (ownIds mt ids di n).length = n := by
  simp [ownIds]

theorem getElem?_ownIds {mt : ℕ → Option ℕ} {ids : List ℕ} {di n k : ℕ} (hk : k < n) :
    (ownIds mt ids di n)[k]? = some ((mt (di + k)).bind fun ti => ids[ti]?) := by
  simp [ownIds, hk]

@[simp] theorem length_fillFresh (next : ℕ) (own : List (Option ℕ)) :
    (fillFresh next own).length = own.length := by
  induction own generalizing next with
  | nil => rfl
  | cons o own ih => cases o <;> simp [fillFresh, ih]

theorem claimant_eq_some {mt : ℕ → Option ℕ} {ti di : ℕ} {bs : List Box} {b : Box}
    (found : claimant mt ti di bs = some b) : ∃ k, bs[k]? = some b ∧ mt (di + k) = some ti := by
  induction bs generalizing di with
  | nil => cases found
  | cons b' bs ih =>
    by_cases here : mt di = some ti
    · exact ⟨0, by simpa [claimant, here] using found, here⟩
    · simp only [claimant, here, if_false] at found
      obtain ⟨k, hk, matched⟩ := ih found
      exact ⟨k + 1, hk, by rwa [Nat.add_right_comm] at matched⟩

theorem claimant_of_matched {mt : ℕ → Option ℕ} {ti di k : ℕ} {bs : List Box} {b : Box}
    (inj : ∀ i i' j, mt i = some j → mt i' = some j → i = i')
    (hk : bs[k]? = some b) (matched : mt (di + k) = some ti) :
    claimant mt ti di bs = some b := by
  induction bs generalizing di k with
  | nil => simp at hk
  | cons b' bs ih =>
    cases k with
    | zero => simpa [claimant, show mt di = some ti from matched] using hk
    | succ k =>
      -- Only one detection is matched to the track, and it comes later.
      have later : mt di ≠ some ti := fun here => by
        have := inj _ _ _ here matched
        omega
      simp only [claimant, later, if_false]
      exact ih (by simpa using hk) (by rwa [Nat.add_right_comm, Nat.add_assoc])

theorem claimant_eq_none {mt : ℕ → Option ℕ} {ti di : ℕ} {bs : List Box}
    (free : ∀ i, mt i ≠ some ti) : claimant mt ti di bs = none := by
  induction bs generalizing di with
  | nil => rfl
  | cons b bs ih => simp [claimant, free, ih]

namespace ByteTrackLite

/-! ## The closed form -/

/-- The matching `update` works with; the early returns match nothing. -/
def matching (t : ByteTrackLite) (boxes : List Box) : ℕ → Option ℕ :=
  if boxes.isEmpty || t.tracks.isEmpty then fun _ => none
  else (greedyMatch t.iouThr boxes.length t.tracks.length
    (matchingMatrix t.matchMode boxes t.tracks)).detToTrack

def owners (t : ByteTrackLite) (boxes : List Box) : List (Option ℕ) :=
  ownIds (t.matching boxes) t.liveIds 0 boxes.length

def stampIds (t : ByteTrackLite) (boxes : List Box) : List ℕ :=
  fillFresh t.nextId (t.owners boxes)

def survivors (t : ByteTrackLite) (boxes : List Box) : List Track :=
  prune t.maxAge (t.tracks.mapIdx fun ti trk => trk.advance (claimant (t.matching boxes) ti 0 boxes))

/-- The result of `update`, as a function of the matching. -/
def settle (t : ByteTrackLite) (boxes : List Box) : ByteTrackLite × List Box :=
  ({ t with
      nextId := t.nextId + (t.owners boxes).count none
      tracks := t.survivors boxes ++ births t.nextId (t.owners boxes) boxes },
    List.zipWith Box.stamp boxes (t.stampIds boxes))

def CanMatch (t : ByteTrackLite) (boxes : List Box) : ℕ → ℕ → Prop :=
  Eligible t.iouThr boxes.length t.tracks.length (matchingMatrix t.matchMode boxes t.tracks)

theorem matching_greedy (t : ByteTrackLite) (boxes : List Box) :
    IsGreedy (t.CanMatch boxes) (Precedes (matchingMatrix t.matchMode boxes t.tracks))
      (fun i j => t.matching boxes i = some j) := by
  by_cases empty : boxes.isEmpty || t.tracks.isEmpty
  -- In the early returns there is no pair to match.
  · have nothing : ∀ i j, ¬ t.CanMatch boxes i j := by
      rintro i j ⟨hi, hj, _⟩
      simp only [Bool.or_eq_true, List.isEmpty_iff_length_eq_zero] at empty
      omega
    simp only [matching, empty, if_true]
    exact ⟨by simp, by simp, by simp, fun eligible => absurd eligible (nothing _ _)⟩
  · simp only [matching, empty]
    simp only [Bool.or_eq_true, List.isEmpty_iff_length_eq_zero, not_or] at empty
    exact greedyMatch_greedy t.iouThr.2 (Nat.pos_of_ne_zero empty.1) (Nat.pos_of_ne_zero empty.2)

/-! ## The loops of the source -/

def stampOwn (b : Box) : Option ℕ → Box
  | some i => b.stamp i
  | none => b

theorem ids_modify_refresh (tracks : List Track) (ti : ℕ) (b : Box) :
    (tracks.modify ti (·.refresh b)).map (·.id) = tracks.map (·.id) := by
  apply List.ext_getElem?
  intro i
  simp only [List.getElem?_map, List.getElem?_modify]
  by_cases same : ti = i <;> cases tracks[i]? <;> simp [same]

theorem applyMatches_boxes (mt : ℕ → Option ℕ) (di : ℕ) (tracks : List Track) (bs : List Box) :
    (applyMatches mt di tracks bs).2 =
      List.zipWith stampOwn bs (ownIds mt (tracks.map (·.id)) di bs.length) := by
  induction bs generalizing di tracks with
  | nil => rfl
  | cons b bs ih =>
    rw [List.length_cons, ownIds_succ]
    cases held : mt di with
    | none => simp [applyMatches, held, ih, stampOwn]
    | some ti =>
      simp only [applyMatches, held, ih, ids_modify_refresh, Option.bind_some,
        List.zipWith_cons_cons, List.getElem?_map]
      cases tracks[ti]? <;> rfl

theorem applyMatches_tracks {mt : ℕ → Option ℕ}
    (inj : ∀ i i' j, mt i = some j → mt i' = some j → i = i')
    (di : ℕ) (tracks : List Track) (bs : List Box) :
    (applyMatches mt di tracks bs).1 =
      tracks.mapIdx fun ti trk => ((claimant mt ti di bs).map trk.refresh).getD trk := by
  -- The loop changes the track list as it goes, hence the general `tracks`.
  induction bs generalizing di tracks with
  | nil =>
    symm
    simp [applyMatches, claimant, List.mapIdx_eq_iff]
  | cons b bs ih =>
    cases held : mt di with
    | none => simp [applyMatches, held, ih, claimant]
    | some ti =>
      simp only [applyMatches, held, ih]
      apply List.ext_getElem?
      intro j
      simp only [List.getElem?_mapIdx, List.getElem?_modify, claimant, held, Option.some.injEq]
      by_cases same : ti = j
      · -- The track claimed here is not claimed again.
        have once : claimant mt j (di + 1) bs = none := by
          by_contra again
          obtain ⟨b', again⟩ := Option.ne_none_iff_exists'.mp again
          obtain ⟨k, _, matched⟩ := claimant_eq_some again
          have := inj _ _ _ (same ▸ held) matched
          omega
        cases tracks[j]? <;> simp [same, once]
      · cases tracks[j]? <;> simp [same]

theorem openTracks_eq (matched : ℕ → Bool) (di : ℕ) (t : ByteTrackLite) (bs : List Box)
    (own : List (Option ℕ)) (len : own.length = bs.length)
    (flags : ∀ k o, own[k]? = some o → matched (di + k) = o.isSome) :
    openTracks matched di t (List.zipWith stampOwn bs own) =
      ({ t with
          nextId := t.nextId + own.count none
          tracks := t.tracks ++ births t.nextId own bs },
        List.zipWith Box.stamp bs (fillFresh t.nextId own)) := by
  induction bs generalizing di t own with
  | nil => simp_all [openTracks, births]
  | cons b bs ih =>
    cases own with
    | nil => simp at len
    | cons o own =>
      have here := flags 0 o rfl
      have tail : ∀ k o, own[k]? = some o → matched (di + 1 + k) = o.isSome := by
        intro k o hk
        rw [Nat.add_assoc, Nat.add_comm 1]
        exact flags (k + 1) o (by simpa using hk)
      simp only [List.length_cons, Nat.add_right_cancel_iff] at len
      simp only [Nat.add_zero] at here
      cases o with
      -- A stamped box keeps its id, and a new track moves the counter on.
      | some i =>
        simp [openTracks, here, ih (di + 1) t own len tail, stampOwn, births, fillFresh]
      | none =>
        simp [openTracks, here, ih (di + 1) _ own len tail, newTrack, stampOwn, births, fillFresh,
          Nat.add_assoc, Nat.add_comm 1]

theorem zipWith_stampOwn_replicate (bs : List Box) :
    List.zipWith stampOwn bs (List.replicate bs.length none) = bs := by
  induction bs with
  | nil => rfl
  | cons b bs ih => simp [List.replicate_succ, stampOwn, ih]

theorem mapIdx_const {α β : Type*} (l : List α) (f : α → β) : (l.mapIdx fun _ x => f x) = l.map f := by
  apply List.ext_getElem?
  simp

theorem flags_of_loopInv {thr : ℚ} {n : ℕ} {tracks : List Track} {iou : ℕ → ℕ → ℚ} {s : GreedyState}
    (inv : LoopInv thr n tracks.length iou s) (k : ℕ) (o : Option ℕ)
    (own : (ownIds s.detToTrack (tracks.map (·.id)) 0 n)[k]? = some o) :
    s.detMatched k = o.isSome := by
  have hk : k < n := by simpa using (List.getElem?_eq_some_iff.mp own).1
  rw [getElem?_ownIds hk, Nat.zero_add, Option.some.injEq] at own
  subst own
  cases held : s.detToTrack k with
  | none =>
    have := (inv.det_iff k).not.mpr (by simp [held])
    simpa using this
  | some ti =>
    have inside := (inv.eligible held).2.1
    have := (inv.det_iff k).mpr ⟨ti, held⟩
    simp [this, inside]

/-- A matched track has the box of its detection, and one without a match is a tick older. -/
theorem advanced_of_loopInv {thr : ℚ} {iou : ℕ → ℕ → ℚ} {s : GreedyState} {tracks : List Track} {boxes : List Box}
    (inv : LoopInv thr boxes.length tracks.length iou s) :
    ((applyMatches s.detToTrack 0 tracks boxes).1.mapIdx fun ti trk =>
        if s.trkMatched ti then trk else trk.age) =
      tracks.mapIdx fun ti trk => trk.advance (claimant s.detToTrack ti 0 boxes) := by
  have once : ∀ i i' j, s.detToTrack i = some j → s.detToTrack i' = some j → i = i' :=
    fun _ _ _ held held' => inv.injective held held'
  rw [applyMatches_tracks once, List.mapIdx_mapIdx]
  congr 1
  funext ti trk
  by_cases held : ∃ i, s.detToTrack i = some ti
  · obtain ⟨i, held'⟩ := held
    obtain ⟨b, hb⟩ : ∃ b, boxes[i]? = some b := ⟨_, List.getElem?_eq_getElem (inv.eligible held').1⟩
    have claimed : claimant s.detToTrack ti 0 boxes = some b :=
      claimant_of_matched once hb (by simpa using held')
    simp [(inv.trk_iff ti).mpr ⟨i, held'⟩, claimed, Track.advance]
  · have free : claimant s.detToTrack ti 0 boxes = none :=
      claimant_eq_none fun i h => held ⟨i, h⟩
    simp [(inv.trk_iff ti).not.mpr held, free, Track.advance]

/-- The loops compute the closed form. -/
theorem update_eq_settle (t : ByteTrackLite) (boxes : List Box) : t.update boxes = t.settle boxes := by
  unfold update
  split
  · -- No detections: every track ages.
    rename_i empty
    rw [List.isEmpty_iff] at empty
    subst empty
    simp [settle, survivors, owners, stampIds, ownIds, fillFresh, births, ageAndPrune, claimant,
      mapIdx_const, Track.advance]
  split
  · -- No tracks: every detection opens one.
    rename_i nonempty empty
    rw [List.isEmpty_iff] at empty
    have unmatched : t.matching boxes = fun _ => none := by simp [matching, empty]
    have own : t.owners boxes = List.replicate boxes.length none := by
      simp [owners, ownIds, unmatched, List.map_const']
    have opened := openTracks_eq (fun _ => false) 0 t boxes (t.owners boxes) (by simp [own])
      (by intro k o hk; rw [own, List.getElem?_replicate] at hk; split at hk <;> simp_all)
    rw [own, zipWith_stampOwn_replicate, ← own] at opened
    rw [opened]
    simp [settle, survivors, stampIds, empty, prune]
  · rename_i nonempty populated
    have positive : 0 < boxes.length ∧ 0 < t.tracks.length := by
      simp only [List.isEmpty_iff_length_eq_zero] at nonempty populated
      omega
    obtain ⟨inv, _⟩ := @greedyMatch_stops _ _ _ (matchingMatrix t.matchMode boxes t.tracks)
      t.iouThr.2 positive.1 positive.2
    have mt : t.matching boxes = (greedyMatch t.iouThr boxes.length t.tracks.length
        (matchingMatrix t.matchMode boxes t.tracks)).detToTrack := by
      simp [matching, nonempty, populated]
    -- From here on only the invariant of the loop's result counts.
    generalize greedyMatch t.iouThr boxes.length t.tracks.length
      (matchingMatrix t.matchMode boxes t.tracks) = g at *
    -- The new tracks come behind the pruned ones, so they are not aged.
    have opened := openTracks_eq g.detMatched 0 { t with tracks := t.survivors boxes } boxes
      (t.owners boxes) (by simp [owners])
      (by intro k o hk; rw [owners, mt] at hk; rw [Nat.zero_add]; exact flags_of_loopInv inv k o hk)
    simp only [advanced_of_loopInv inv, applyMatches_boxes]
    simp only [survivors, owners, mt, liveIds] at opened
    rw [opened]
    simp only [settle, survivors, owners, stampIds, mt, liveIds]

end ByteTrackLite

end VisionNx.Tracker
