import VisionNx.Tracker.History

/-! # What the tracker is meant to do

One update without loops, matrices and masks: which pairs of a detection and a track may
be matched, in what order they are preferred, and what becomes of the tracks for a given
matching.  There is one matching that the order calls for, and `update` leaves the
tracks and the boxes that are specified for it. -/

namespace VisionNx.Tracker

open GreedyMatching

namespace ByteTrackLite

/-! ## The specification -/

/-- Enough overlap and, unless the mode is `any`, the same canonical class. -/
def EligiblePair (t : ByteTrackLite) (boxes : List Box) (di ti : ℕ) : Prop :=
  ∃ b trk, boxes[di]? = some b ∧ t.tracks[ti]? = some trk ∧ t.iouThr.1 ≤ iouEntry b.xyxy trk.xyxy ∧
    (t.matchMode = .any ∨ canonicalCls b.getCls t.matchMode = canonicalCls trk.cls t.matchMode)

/-- The IoU of a detection and a track, whatever their classes. -/
def pairIou (t : ByteTrackLite) (boxes : List Box) : ℕ → ℕ → ℚ :=
  iouMatrix (boxes.map (·.xyxy)) (t.tracks.map (·.xyxy))

/-- A matching that the update may use: the eligible pairs are taken by larger IoU, then
    smaller detection index, then smaller track position. -/
def CalledFor (t : ByteTrackLite) (boxes : List Box) (mt : ℕ → Option ℕ) : Prop :=
  IsGreedy (t.EligiblePair boxes) (Precedes (t.pairIou boxes)) fun di ti => mt di = some ti

/-- A track after the update, if `b?` is the detection that is matched to it. -/
def specTrack (trk : Track) : Option Box → Track
  | some b => { trk with xyxy := b.xyxy, cls := b.getCls, timeSinceUpdate := 0, hits := trk.hits + 1 }
  | none => { trk with timeSinceUpdate := trk.timeSinceUpdate + 1 }

/-- The detections that are not matched. -/
def unmatched (boxes : List Box) (mt : ℕ → Option ℕ) : List Box :=
  (boxes.zipIdx.filter fun z => (mt z.2).isNone).map Prod.fst

/-- The tracks after the update: those there were, without the expired ones, and one for each
    detection that is not matched. -/
def specTracks (t : ByteTrackLite) (boxes : List Box) (mt : ℕ → Option ℕ) : List Track :=
  let matchedTo (ti : ℕ) : Option Box := (boxes.zipIdx.find? fun z => mt z.2 == some ti).map Prod.fst
  (t.tracks.mapIdx fun ti trk => specTrack trk (matchedTo ti)).filter
      (fun trk => decide ((trk.timeSinceUpdate : ℤ) ≤ t.maxAge)) ++
    (unmatched boxes mt).mapIdx fun k b => Track.new (t.nextId + k) b.xyxy b.getCls

/-- The id of a detection: that of its track, or the next one. -/
def specId (t : ByteTrackLite) (mt : ℕ → Option ℕ) (di : ℕ) : ℕ :=
  match (mt di).bind fun ti => t.tracks[ti]? with
  | some trk => trk.id
  | none => t.nextId + (List.range di).countP fun i => (mt i).isNone

/-! ## The matching -/

variable {t : ByteTrackLite} {boxes : List Box} {mt : ℕ → Option ℕ}

theorem pairIou_eq {di ti : ℕ} {b : Box} {trk : Track} (hb : boxes[di]? = some b) (ht : t.tracks[ti]? = some trk) :
    t.pairIou boxes di ti = iouEntry b.xyxy trk.xyxy := by
  simp only [pairIou, iouMatrix, List.getElem?_map, hb, ht, Option.map_some]

/-- Masking by class only touches the pairs of different classes. -/
theorem matchingMatrix_eq {di ti : ℕ} {b : Box} {trk : Track} (hb : boxes[di]? = some b)
    (ht : t.tracks[ti]? = some trk) :
    matchingMatrix t.matchMode boxes t.tracks di ti =
      if t.matchMode = .any ∨ canonicalCls b.getCls t.matchMode = canonicalCls trk.cls t.matchMode then
        iouEntry b.xyxy trk.xyxy
      else 0 := by
  have entry := pairIou_eq hb ht
  rw [pairIou] at entry
  simp only [matchingMatrix, List.getElem?_map, hb, ht, Option.map_some, Option.some.injEq, entry]
  by_cases unmasked : t.matchMode = .any
  · simp [unmasked]
  · simp [unmasked]

/-- With a positive threshold the pairs that the loop may match are the eligible ones. -/
theorem canMatch_iff (pos : 0 < t.iouThr.1) (di ti : ℕ) : t.EligiblePair boxes di ti ↔ t.CanMatch boxes di ti := by
  constructor
  · rintro ⟨b, trk, hb, ht, overlap, alike⟩
    refine ⟨(List.getElem?_eq_some_iff.mp hb).1, (List.getElem?_eq_some_iff.mp ht).1, ?_⟩
    rw [matchingMatrix_eq hb ht, if_pos alike]
    exact overlap
  · rintro ⟨hdi, hti, overlap⟩
    have hb := List.getElem?_eq_getElem hdi
    have ht := List.getElem?_eq_getElem hti
    rw [matchingMatrix_eq hb ht] at overlap
    split at overlap
    next alike => exact ⟨_, _, hb, ht, overlap, alike⟩
    next => exact absurd pos (not_lt.mpr overlap)

theorem EligiblePair.entry {di ti : ℕ} (eligible : t.EligiblePair boxes di ti) :
    matchingMatrix t.matchMode boxes t.tracks di ti = t.pairIou boxes di ti := by
  obtain ⟨b, trk, hb, ht, -, alike⟩ := eligible
  rw [matchingMatrix_eq hb ht, if_pos alike, pairIou_eq hb ht]

theorem matching_calledFor (pos : 0 < t.iouThr.1) : t.CalledFor boxes (t.matching boxes) := by
  refine (t.matching_greedy boxes).congr (canMatch_iff pos) ?_
  intro p q eligible_p eligible_q _ earlier
  have entry_p := ((canMatch_iff pos _ _).mpr eligible_p).entry
  have entry_q := ((canMatch_iff pos _ _).mpr eligible_q).entry
  simpa only [Precedes, entry_p, entry_q] using earlier

/-- There is no other. -/
theorem CalledFor.unique {mt' : ℕ → Option ℕ} (called : t.CalledFor boxes mt) (called' : t.CalledFor boxes mt') :
    mt = mt' := by
  have finite : {p : ℕ × ℕ | t.EligiblePair boxes p.1 p.2}.Finite := by
    apply ((Set.finite_lt_nat boxes.length).prod (Set.finite_lt_nat t.tracks.length)).subset
    rintro p ⟨b, trk, hb, ht, -⟩
    exact ⟨(List.getElem?_eq_some_iff.mp hb).1, (List.getElem?_eq_some_iff.mp ht).1⟩
  funext di
  apply Option.ext
  intro ti
  exact IsGreedy.unique finite.wellFoundedOn called called' di ti

/-! ## The tracks -/

theorem claimant_eq_find (mt : ℕ → Option ℕ) (ti di : ℕ) (bs : List Box) :
    claimant mt ti di bs = ((bs.zipIdx di).find? fun z => mt z.2 == some ti).map Prod.fst := by
  induction bs generalizing di with
  | nil => rfl
  | cons b bs ih =>
    rw [claimant, List.zipIdx_cons, List.find?_cons, ih]
    by_cases here : mt di = some ti
    · simp [here]
    · have differs : (mt di == some ti) = false := beq_false_of_ne here
      simp [here, differs]

theorem specTrack_eq (trk : Track) (b? : Option Box) : specTrack trk b? = trk.advance b? := by
  cases b? <;> rfl

/-- A detection is without an id of its own if it is not matched. -/
theorem ownIds_eq {ids : List ℕ} (inside : ∀ di ti, mt di = some ti → ti < ids.length) (di n : ℕ) :
    (ownIds mt ids di n).map Option.isNone = (List.range' di n).map fun i => (mt i).isNone := by
  rw [ownIds, List.map_map]
  refine List.map_congr_left fun i _ => ?_
  cases held : mt i with
  | none => simp [held]
  | some ti => simp [held, inside i ti held]

theorem births_eq {ids : List ℕ} (inside : ∀ di ti, mt di = some ti → ti < ids.length) (next di : ℕ) (bs : List Box) :
    births next (ownIds mt ids di bs.length) bs =
      (((bs.zipIdx di).filter fun z => (mt z.2).isNone).map Prod.fst).mapIdx
        fun k b => Track.new (next + k) b.xyxy b.getCls := by
  induction bs generalizing next di with
  | nil => rfl
  | cons b bs ih =>
    rw [List.length_cons, ownIds_succ, List.zipIdx_cons]
    cases held : mt di with
    | none =>
      rw [Option.bind_none, births, ih, List.filter_cons_of_pos (by simp [held]), List.map_cons, List.mapIdx_cons]
      simp only [Nat.add_zero, Nat.add_assoc, Nat.add_comm 1]
    | some ti =>
      have own : ids[ti]? = some (ids.get ⟨ti, inside di ti held⟩) := List.getElem?_eq_getElem _
      rw [Option.bind_some, own, births, ih, List.filter_cons_of_neg (by simp [held])]

theorem getElem?_fillFresh (next : ℕ) (own : List (Option ℕ)) (i : ℕ) :
    (fillFresh next own)[i]? = own[i]?.map fun o => o.getD (next + (own.take i).count none) := by
  induction own generalizing next i with
  | nil => simp [fillFresh]
  | cons o own ih =>
    cases i with
    | zero => cases o <;> simp [fillFresh]
    | succ i =>
      cases o with
      | some id => simp [fillFresh, ih]
      | none => simp [fillFresh, ih, Nat.add_assoc, Nat.add_comm 1]

theorem matching_inside {di ti : ℕ} (held : t.matching boxes di = some ti) :
    di < boxes.length ∧ ti < t.tracks.length := by
  have eligible := (t.matching_greedy boxes).eligible held
  exact ⟨eligible.1, eligible.2.1⟩

theorem update_tracks (t : ByteTrackLite) (boxes : List Box) :
    (t.update boxes).1.tracks = t.specTracks boxes (t.matching boxes) := by
  have inside : ∀ di ti, t.matching boxes di = some ti → ti < t.liveIds.length := by
    intro di ti held
    simpa [liveIds] using (matching_inside held).2
  rw [update_eq_settle, settle, specTracks]
  simp only [owners, births_eq inside, unmatched, survivors, prune, claimant_eq_find, specTrack_eq]

theorem update_ids {di : ℕ} {b : Box} (hb : boxes[di]? = some b) :
    (t.update boxes).2[di]? = some (b.stamp (t.specId (t.matching boxes) di)) := by
  have hdi := (List.getElem?_eq_some_iff.mp hb).1
  have inside : ∀ di ti, t.matching boxes di = some ti → ti < t.liveIds.length := by
    intro di ti held
    simpa [liveIds] using (matching_inside held).2
  have gaps : ((t.owners boxes).take di).count none =
      (List.range di).countP fun i => (t.matching boxes i).isNone := by
    have flags := ownIds_eq inside 0 boxes.length
    have taken := congrArg (fun l => (l.take di).countP id) flags
    rw [← List.range_eq_range', ← List.map_take, ← List.map_take, List.take_range, min_eq_left hdi.le,
      List.countP_map, List.countP_map] at taken
    simpa [owners, List.count_eq_countP, Function.comp_def] using taken
  rw [update_eq_settle, settle, List.getElem?_zipWith, hb, stampIds, getElem?_fillFresh, gaps, owners,
    getElem?_ownIds hdi, Nat.zero_add, specId]
  cases held : t.matching boxes di with
  | none => rfl
  | some ti =>
    have ht := List.getElem?_eq_getElem (matching_inside held).2
    simp [liveIds, ht]

/-- One update, whatever the state: the matching is the one that is called for, and the tracks and
    the stamped boxes are those specified for it. -/
theorem update_meets_specification (t : ByteTrackLite) (pos : 0 < t.iouThr.1) (boxes : List Box) :
    t.CalledFor boxes (t.matching boxes) ∧
    ∀ mt, t.CalledFor boxes mt → mt = t.matching boxes ∧
      (t.update boxes).1.tracks = t.specTracks boxes mt ∧
      ∀ (di : ℕ) (b : Box), boxes[di]? = some b → (t.update boxes).2[di]? = some (b.stamp (t.specId mt di)) := by
  refine ⟨matching_calledFor pos, fun mt called => ?_⟩
  obtain rfl := called.unique (matching_calledFor pos)
  exact ⟨rfl, update_tracks t boxes, fun (di : ℕ) (b : Box) hb => update_ids hb⟩

/-- Two tracks and a detection in the same place: the first track gets it, the second ages. -/
theorem update_meets_specification_twins :
    let t : ByteTrackLite :=
      ⟨3, [Track.new 1 walker.xyxy 0, Track.new 2 walker.xyxy 0], ⟨3 / 10, by norm_num⟩, 0, .strict⟩
    ∃ mt, t.CalledFor [walker] mt ∧ mt 0 = some 0 ∧ t.specId mt 0 = 1 ∧
      (t.update [walker]).1.tracks = t.specTracks [walker] mt ∧
      (t.update [walker]).1.tracks = [{ Track.new 1 walker.xyxy 0 with hits := 2 }] ∧
      (t.update [walker]).2[0]? = some (walker.stamp 1) := by
  intro t
  obtain ⟨called, rest⟩ := update_meets_specification t (by decide +kernel) [walker]
  obtain ⟨-, tracks, ids⟩ := rest _ called
  have first : t.matching [walker] 0 = some 0 := by decide +kernel
  have id : t.specId (t.matching [walker]) 0 = 1 := by
    rw [specId, first]
    rfl
  refine ⟨_, called, first, id, tracks, by decide +kernel, ?_⟩
  rw [ids 0 walker rfl, id]

end ByteTrackLite

end VisionNx.Tracker
