import VisionNx.Tracker.Ids

/-! # Track life as a function of the stamping history

Under a constant `max_age` the track list is determined by what was stamped when: a
track is live exactly while its id was stamped within the last `max_age + 1` updates,
its `time_since_update` counts the updates since, and its box and class are those of
the detection that got the id last.

The update is first described track by track: a claimed track's id is on the detection
that claimed it, an unclaimed one's is on none, and a new track's is on the detection
that opened it.
-/

namespace VisionNx.Tracker

namespace ByteTrackLite

/-! ## Tracks and stamps of one update -/

/-- Detection `di` is `b` and gets `id`. -/
def StampedAt (t : ByteTrackLite) (boxes : List Box) (di : ℕ) (b : Box) (id : ℕ) : Prop :=
  boxes[di]? = some b ∧ (t.stampIds boxes)[di]? = some id

theorem mem_output_iff {t : ByteTrackLite} {boxes : List Box} {b' : Box} :
    b' ∈ (t.update boxes).2 ↔ ∃ di b id, t.StampedAt boxes di b id ∧ b' = b.stamp id := by
  rw [update_eq_settle, settle, List.mem_iff_getElem?]
  simp only [List.getElem?_zipWith_eq_some, StampedAt]
  constructor
  · rintro ⟨di, b, id, hb, hid, rfl⟩
    exact ⟨di, b, id, ⟨hb, hid⟩, rfl⟩
  · rintro ⟨di, b, id, ⟨hb, hid⟩, rfl⟩
    exact ⟨di, b, id, hb, hid, rfl⟩

theorem fillFresh_of_some {next di id : ℕ} {own : List (Option ℕ)} (held : own[di]? = some (some id)) :
    (fillFresh next own)[di]? = some id := by
  induction own generalizing next di with
  | nil => simp at held
  | cons o own ih =>
    cases di with
    | zero =>
      obtain rfl : o = some id := by simpa using held
      rfl
    | succ di =>
      cases o <;> exact ih (by simpa using held)

theorem births_cases {next : ℕ} {own : List (Option ℕ)} {bs : List Box} {trk : Track}
    (mem : trk ∈ births next own bs) : ∃ (di : ℕ) (b : Box), bs[di]? = some b ∧ own[di]? = some none ∧
      (fillFresh next own)[di]? = some trk.id ∧ trk = Track.new trk.id b.xyxy b.getCls := by
  -- The three lists are read in step; only a gap opens a track.
  induction own generalizing next bs with
  | nil => cases bs <;> cases mem
  | cons o own ih =>
    cases bs with
    | nil => cases o <;> cases mem
    | cons b bs =>
      cases o with
      | some i =>
        obtain ⟨di, b', hb, hown, hid, new⟩ := ih mem
        exact ⟨di + 1, b', hb, hown, hid, new⟩
      | none =>
        obtain rfl | mem := List.mem_cons.mp mem
        · exact ⟨0, b, rfl, rfl, rfl, rfl⟩
        · obtain ⟨di, b', hb, hown, hid, new⟩ := ih mem
          exact ⟨di + 1, b', hb, hown, hid, new⟩

theorem mem_births_of_none {next di id : ℕ} {own : List (Option ℕ)} {bs : List Box} {b : Box}
    (hb : bs[di]? = some b) (gap : own[di]? = some none) (hid : (fillFresh next own)[di]? = some id) :
    Track.new id b.xyxy b.getCls ∈ births next own bs := by
  induction own generalizing next di bs with
  | nil => simp at gap
  | cons o own ih =>
    cases bs with
    | nil => simp at hb
    | cons b' bs =>
      cases di with
      | zero =>
        obtain rfl : b' = b := by simpa using hb
        obtain rfl : o = none := by simpa using gap
        obtain rfl : next = id := by simpa [fillFresh] using hid
        simp [births]
      | succ di =>
        cases o with
        | some i => exact ih (by simpa using hb) (by simpa using gap) (by simpa [fillFresh] using hid)
        | none =>
          exact List.mem_cons_of_mem _
            (ih (by simpa using hb) (by simpa using gap) (by simpa [fillFresh] using hid))

theorem stamped_of_claimant {t : ByteTrackLite} {boxes : List Box} {ti : ℕ} {trk : Track} {b : Box}
    (at_ti : t.tracks[ti]? = some trk)
    (claimed : claimant (t.matching boxes) ti 0 boxes = some b) :
    ∃ di, t.StampedAt boxes di b trk.id := by
  obtain ⟨di, hb, held⟩ := claimant_eq_some claimed
  rw [Nat.zero_add] at held
  have hdi := (List.getElem?_eq_some_iff.mp hb).1
  refine ⟨di, hb, fillFresh_of_some ?_⟩
  rw [owners, getElem?_ownIds hdi, Nat.zero_add, held]
  simp [liveIds, at_ti]

/-- An id stamped on a detection is that of a track it claimed, or of one it opened. -/
theorem stamped_cases {t : ByteTrackLite} {boxes : List Box} {di id : ℕ} {b : Box}
    (stamped : t.StampedAt boxes di b id) :
    (∃ ti trk, t.tracks[ti]? = some trk ∧ trk.id = id ∧
      claimant (t.matching boxes) ti 0 boxes = some b) ∨
    Track.new id b.xyxy b.getCls ∈ births t.nextId (t.owners boxes) boxes := by
  obtain ⟨hb, hid⟩ := stamped
  have hdi := (List.getElem?_eq_some_iff.mp hb).1
  have own : (t.owners boxes)[di]? = some ((t.matching boxes di).bind fun ti => t.liveIds[ti]?) := by
    rw [owners, getElem?_ownIds hdi, Nat.zero_add]
  cases held : (t.matching boxes di).bind fun ti => t.liveIds[ti]? with
  | none => exact .inr (mem_births_of_none hb (by rw [own, held]) hid)
  | some id' =>
    rw [held] at own
    obtain rfl : id' = id := Option.some.inj ((fillFresh_of_some own).symm.trans hid)
    obtain ⟨ti, matched, at_ti⟩ := Option.bind_eq_some_iff.mp held
    obtain ⟨trk, in_tracks, rfl⟩ : ∃ trk, t.tracks[ti]? = some trk ∧ trk.id = id' := by
      simpa [liveIds] using at_ti
    exact .inl ⟨ti, trk, in_tracks, rfl, claimant_of_matched (t.matching_injective boxes) hb
      (by simpa using matched)⟩

/-- A track after an update: an old one, refreshed or aged, or a new one. -/
theorem mem_tracks_update {t : ByteTrackLite} {boxes : List Box} {trk' : Track} :
    trk' ∈ (t.update boxes).1.tracks ↔
      (∃ (ti : ℕ) (trk : Track), t.tracks[ti]? = some trk ∧
        trk' = trk.advance (claimant (t.matching boxes) ti 0 boxes) ∧
        (trk'.timeSinceUpdate : ℤ) ≤ t.maxAge) ∨
      trk' ∈ births t.nextId (t.owners boxes) boxes := by
  rw [update_eq_settle]
  simp only [settle, survivors, prune, List.mem_append, List.mem_filter, decide_eq_true_eq]
  apply or_congr_left
  rw [List.mem_iff_getElem?]
  constructor
  · rintro ⟨⟨ti, at_ti⟩, young⟩
    rw [List.getElem?_mapIdx, Option.map_eq_some_iff] at at_ti
    obtain ⟨trk, at_ti, rfl⟩ := at_ti
    exact ⟨ti, trk, at_ti, rfl, young⟩
  · rintro ⟨ti, trk, at_ti, rfl, young⟩
    exact ⟨⟨ti, by simp [at_ti]⟩, young⟩

@[simp] theorem maxAge_update (t : ByteTrackLite) (boxes : List Box) :
    (t.update boxes).1.maxAge = t.maxAge := by
  simp [update_eq_settle, settle]

/-- An update leaves no track that is too old. -/
theorem young_update {t : ByteTrackLite} (age : 0 ≤ t.maxAge) (boxes : List Box) {trk : Track}
    (mem : trk ∈ (t.update boxes).1.tracks) : (trk.timeSinceUpdate : ℤ) ≤ t.maxAge := by
  cases mem_tracks_update.mp mem with
  | inl old =>
    obtain ⟨_, _, _, _, young⟩ := old
    exact young
  | inr born =>
    obtain ⟨_, _, _, _, _, new⟩ := births_cases born
    rw [new]
    exact age

theorem claimant_of_stamped {t : ByteTrackLite} (ok : t.IdsOk) {boxes : List Box} {ti : ℕ}
    {trk : Track} (at_ti : t.tracks[ti]? = some trk) (stamped : trk.id ∈ t.stampIds boxes) :
    ∃ b, claimant (t.matching boxes) ti 0 boxes = some b := by
  obtain ⟨di, hid⟩ := List.mem_iff_getElem?.mp stamped
  have hdi : di < boxes.length := by
    simpa [t.length_stampIds boxes] using (List.getElem?_eq_some_iff.mp hid).1
  have live : t.liveIds[ti]? = some trk.id := by simp [liveIds, at_ti]
  obtain ⟨ti', trk', at_ti', same, claimed⟩ | born := stamped_cases ⟨List.getElem?_eq_getElem hdi, hid⟩
  · have live' : t.liveIds[ti']? = some trk.id := by simp [liveIds, at_ti', same]
    have bound := (List.getElem?_eq_some_iff.mp live).1
    obtain rfl := (List.getElem?_inj bound ok.distinct).mp (live.trans live'.symm)
    exact ⟨_, claimed⟩
  · -- A new track's id is above every live one.
    have fresh : trk.id ∈ (births t.nextId (t.owners boxes) boxes).map (·.id) :=
      List.mem_map.mpr ⟨_, born, rfl⟩
    rw [births_ids (t.length_owners boxes), List.mem_range'_1] at fresh
    have old := (ok.range trk.id (List.mem_of_getElem? live)).2
    omega

/-- With a non-negative `max_age` every stamped id is live after the update. -/
theorem live_of_stamped {t : ByteTrackLite} (age : 0 ≤ t.maxAge) {boxes : List Box} {id : ℕ}
    (stamped : id ∈ t.stampIds boxes) : id ∈ (t.update boxes).1.liveIds := by
  obtain ⟨di, hid⟩ := List.mem_iff_getElem?.mp stamped
  have hdi : di < boxes.length := by
    simpa [t.length_stampIds boxes] using (List.getElem?_eq_some_iff.mp hid).1
  obtain ⟨ti, trk, at_ti, rfl, claimed⟩ | born := stamped_cases ⟨List.getElem?_eq_getElem hdi, hid⟩
  · refine List.mem_map.mpr ⟨trk.refresh boxes[di], mem_tracks_update.mpr (.inl ?_), rfl⟩
    exact ⟨ti, trk, at_ti, by rw [claimed, Track.advance], by simpa [Track.refresh] using age⟩
  · exact List.mem_map.mpr ⟨_, mem_tracks_update.mpr (.inr born), rfl⟩

end ByteTrackLite

/-! ## The history of a run -/

open ByteTrackLite

/-- In the outputs of the updates so far, `id` was last stamped by update `m`, on
    `b`.  Updates are counted from 0. -/
structure LastStamp (outs : List (List Box)) (id m : ℕ) (b : Box) : Prop where
  stamped : ∃ out, outs[m]? = some out ∧ b ∈ out
  has_id : b.trackId = some id
  latest : ∀ m' out, m < m' → outs[m']? = some out → id ∉ trackIds out

theorem mem_trackIds {out : List Box} {b : Box} {id : ℕ} (mem : b ∈ out)
    (has_id : b.trackId = some id) : id ∈ trackIds out :=
  List.mem_filterMap.mpr ⟨b, mem, has_id⟩

theorem LastStamp.le {outs : List (List Box)} {id m m' : ℕ} {b : Box} {out : List Box}
    (last : LastStamp outs id m b) (at_m' : outs[m']? = some out) (mem : id ∈ trackIds out) :
    m' ≤ m := by
  by_contra! later
  exact last.latest m' out later at_m' mem

theorem LastStamp.lt_length {outs : List (List Box)} {id m : ℕ} {b : Box}
    (last : LastStamp outs id m b) : m < outs.length := by
  obtain ⟨out, at_m, _⟩ := last.stamped
  exact (List.getElem?_eq_some_iff.mp at_m).1

theorem LastStamp.unique {outs : List (List Box)} {id m m' : ℕ} {b b' : Box}
    (last : LastStamp outs id m b) (last' : LastStamp outs id m' b') : m = m' := by
  obtain ⟨out, at_m, mem⟩ := last.stamped
  obtain ⟨out', at_m', mem'⟩ := last'.stamped
  exact le_antisymm (last'.le at_m (mem_trackIds mem last.has_id))
    (last.le at_m' (mem_trackIds mem' last'.has_id))

/-- One more update that does not stamp `id` leaves its last stamp alone. -/
theorem LastStamp.append {outs : List (List Box)} {id m : ℕ} {b : Box} {out : List Box}
    (last : LastStamp outs id m b) (unstamped : id ∉ trackIds out) :
    LastStamp (outs ++ [out]) id m b := by
  have bound := last.lt_length
  refine ⟨?_, last.has_id, fun m' out' later at_m' => ?_⟩
  · rw [List.getElem?_append_left bound]
    exact last.stamped
  · rw [List.getElem?_append] at at_m'
    split at at_m'
    · exact last.latest m' out' later at_m'
    · obtain rfl : out = out' := List.mem_singleton.mp (List.mem_of_getElem? at_m') |>.symm
      exact unstamped

theorem lastStamp_concat {outs : List (List Box)} {id : ℕ} {b : Box} {out : List Box}
    (mem : b ∈ out) (has_id : b.trackId = some id) :
    LastStamp (outs ++ [out]) id outs.length b := by
  refine ⟨⟨out, by simp, mem⟩, has_id, fun m' out' later at_m' => ?_⟩
  have := (List.getElem?_eq_some_iff.mp at_m').1
  simp only [List.length_append, List.length_singleton] at this
  omega

/-- The tracks of `t` are those the outputs `outs` call for under `max_age`. -/
structure History (t : ByteTrackLite) (outs : List (List Box)) : Prop where
  live : ∀ trk ∈ t.tracks, ∃ m b, LastStamp outs trk.id m b ∧
    trk.timeSinceUpdate + (m + 1) = outs.length ∧ trk.xyxy = b.xyxy ∧ trk.cls = b.getCls
  young : ∀ trk ∈ t.tracks, (trk.timeSinceUpdate : ℤ) ≤ t.maxAge
  recent : ∀ (m : ℕ) (out : List Box) (id : ℕ), outs[m]? = some out → id ∈ trackIds out →
    (outs.length : ℤ) ≤ m + 1 + t.maxAge → id ∈ t.liveIds

theorem History.live_update {t : ByteTrackLite} {outs : List (List Box)} (history : History t outs)
    (ok : t.IdsOk) (boxes : List Box) {trk' : Track} (mem : trk' ∈ (t.update boxes).1.tracks) :
    ∃ m b, LastStamp (outs ++ [(t.update boxes).2]) trk'.id m b ∧
      trk'.timeSinceUpdate + (m + 1) = outs.length + 1 ∧ trk'.xyxy = b.xyxy ∧
      trk'.cls = b.getCls := by
  obtain ⟨ti, trk, at_ti, rfl, _⟩ | born := mem_tracks_update.mp mem
  · cases claimed : claimant (t.matching boxes) ti 0 boxes with
    | some b =>
      -- A claimed track was stamped just now, on its claimant.
      obtain ⟨di, stamped⟩ := stamped_of_claimant at_ti claimed
      have out := mem_output_iff.mpr ⟨di, b, trk.id, stamped, rfl⟩
      exact ⟨outs.length, b.stamp trk.id, lastStamp_concat out rfl, Nat.zero_add _, rfl, rfl⟩
    | none =>
      -- An unclaimed track has aged by one, and so has its last stamp.
      obtain ⟨m, b, last, ticks, box, cls⟩ := history.live trk (List.mem_of_getElem? at_ti)
      have unstamped : trk.id ∉ trackIds (t.update boxes).2 := by
        rw [trackIds_update]
        intro stamped
        obtain ⟨b', claimed'⟩ := claimant_of_stamped ok at_ti stamped
        simp [claimed] at claimed'
      refine ⟨m, b, last.append unstamped, ?_, box, cls⟩
      simp only [Track.advance, Track.age]
      omega
  · obtain ⟨di, b, hb, _, hid, new⟩ := births_cases born
    have out := mem_output_iff.mpr ⟨di, b, trk'.id, ⟨hb, hid⟩, rfl⟩
    rw [new]
    exact ⟨outs.length, b.stamp trk'.id, lastStamp_concat out rfl, Nat.zero_add _, rfl, rfl⟩

theorem History.update {t : ByteTrackLite} {outs : List (List Box)} (history : History t outs)
    (ok : t.IdsOk) (age : 0 ≤ t.maxAge) (boxes : List Box) :
    History (t.update boxes).1 (outs ++ [(t.update boxes).2]) := by
  refine ⟨fun trk' mem => by simpa using history.live_update ok boxes mem, ?_, ?_⟩
  · intro trk' mem
    rw [maxAge_update]
    exact young_update age boxes mem
  · intro m out id at_m stamped window
    rw [maxAge_update] at window
    simp only [List.length_append, List.length_singleton, Nat.cast_add, Nat.cast_one] at window
    rw [List.getElem?_append] at at_m
    split at at_m
    · -- Stamped earlier and within the window: the track was live and is still young.
      obtain ⟨trk, mem, rfl⟩ := List.mem_map.mp (history.recent m out id at_m stamped (by omega))
      obtain ⟨m₀, b, last, ticks, _⟩ := history.live trk mem
      have le := last.le at_m stamped
      obtain ⟨ti, at_ti⟩ := List.mem_iff_getElem?.mp mem
      refine List.mem_map.mpr ⟨trk.advance (claimant (t.matching boxes) ti 0 boxes), ?_, by simp⟩
      refine mem_tracks_update.mpr (.inl ⟨ti, trk, at_ti, rfl, ?_⟩)
      cases claimant (t.matching boxes) ti 0 boxes with
      | some b => simpa [Track.advance, Track.refresh] using age
      | none =>
        simp only [Track.advance, Track.age]
        omega
    · obtain rfl := List.mem_singleton.mp (List.mem_of_getElem? at_m)
      rw [trackIds_update] at stamped
      exact live_of_stamped age stamped

/-- A track is live until its last stamp is more than `max_age` updates ago. -/
theorem History.live_iff {t : ByteTrackLite} {outs : List (List Box)} (history : History t outs)
    {id m : ℕ} {b : Box} (last : LastStamp outs id m b) :
    id ∈ t.liveIds ↔ (outs.length : ℤ) - (m + 1) ≤ t.maxAge := by
  obtain ⟨out, at_m, stamped⟩ := last.stamped
  constructor
  · intro live
    obtain ⟨trk, mem, rfl⟩ := List.mem_map.mp live
    obtain ⟨m', b', last', ticks, _⟩ := history.live trk mem
    have young := history.young trk mem
    rw [last.unique last']
    omega
  · intro age
    exact history.recent m out id at_m (mem_trackIds stamped last.has_id) (by omega)

theorem history_run {t : ByteTrackLite} {outs : List (List Box)} (history : History t outs)
    (ok : t.IdsOk) (age : 0 ≤ t.maxAge) (frames : List (List Box)) :
    History (exec t (frames.map .update)) (outs ++ outputs t (frames.map .update)) := by
  induction frames generalizing t outs with
  | nil => simpa [exec, outputs] using history
  | cons boxes frames ih =>
    have next := ih (history.update ok age boxes) (ok.update boxes) (by simpa using age)
    simpa [exec, outputs, Op.apply] using next

theorem maxAge_run (t : ByteTrackLite) (frames : List (List Box)) :
    (exec t (frames.map .update)).maxAge = t.maxAge := by
  induction frames generalizing t with
  | nil => rfl
  | cons boxes frames ih => exact (ih _).trans (by simp [Op.apply])

/-- Track life is the stamping history.  After any run of updates under a constant
    `max_age`, with updates counted from 0 and the outputs so far in `outs`: the live
    ids are those stamped by one of the last `max_age + 1` updates; every live track
    knows how long ago its id was stamped and on which box; and an id last stamped by
    update `m` can be stamped by the next one only if that is at most `max_age + 1`
    later, its track being live until exactly `max_age` updates have missed it. -/
theorem track_life_eq_history (iouThr : IouThr) (maxAge : ℤ) (matchMode : String)
    (frames : List (List Box)) (age : 0 ≤ maxAge) :
    let t₀ := ByteTrackLite.init iouThr maxAge matchMode
    let t := exec t₀ (frames.map .update)
    let outs := outputs t₀ (frames.map .update)
    (∀ id, id ∈ t.liveIds ↔
      ∃ (m : ℕ) (out : List Box), outs[m]? = some out ∧ id ∈ trackIds out ∧
        (outs.length : ℤ) - maxAge ≤ m + 1) ∧
    (∀ trk ∈ t.tracks, ∃ m b, LastStamp outs trk.id m b ∧
      trk.timeSinceUpdate = outs.length - (m + 1) ∧ trk.xyxy = b.xyxy ∧ trk.cls = b.getCls) ∧
    (∀ id m b, LastStamp outs id m b →
      ∀ boxes, id ∈ trackIds (t.update boxes).2 → (outs.length : ℤ) - m ≤ maxAge + 1) ∧
    ∀ id m b, LastStamp outs id m b →
      (id ∈ t.liveIds ↔ (outs.length : ℤ) - (m + 1) ≤ maxAge) := by
  intro t₀ t outs
  have ok₀ : t₀.IdsOk := idsOk_init iouThr maxAge matchMode
  have ok : t.IdsOk := idsOk_exec ok₀ _
  have start : History t₀ [] :=
    ⟨by simp [t₀, ByteTrackLite.init], by simp [t₀, ByteTrackLite.init], by simp⟩
  have history : History t outs := by simpa using history_run start ok₀ age frames
  have const : t.maxAge = maxAge := maxAge_run t₀ frames
  have window : ∀ id m b, LastStamp outs id m b →
      (id ∈ t.liveIds ↔ (outs.length : ℤ) - (m + 1) ≤ maxAge) := by
    intro id m b last
    rw [history.live_iff last, const]
  refine ⟨fun id => ⟨fun live => ?_, fun stamped => ?_⟩, ?_, ?_, window⟩
  · obtain ⟨trk, mem, rfl⟩ := List.mem_map.mp live
    obtain ⟨m, b, last, _⟩ := history.live trk mem
    obtain ⟨out, at_m, mem⟩ := last.stamped
    have := (window _ m b last).mp live
    exact ⟨m, out, at_m, mem_trackIds mem last.has_id, by omega⟩
  · obtain ⟨m, out, at_m, mem, age⟩ := stamped
    exact history.recent m out id at_m mem (by omega)
  · intro trk mem
    obtain ⟨m, b, last, ticks, box, cls⟩ := history.live trk mem
    exact ⟨m, b, last, by omega, box, cls⟩
  · intro id m b last boxes stamped
    rw [trackIds_update] at stamped
    -- An id that was stamped before does not come off the counter again.
    have live : id ∈ t.liveIds := by
      cases stampIds_cases stamped with
      | inl live => exact live
      | inr fresh =>
        obtain ⟨out, at_m, mem⟩ := last.stamped
        have := outputs_below ok₀ (List.mem_of_getElem? at_m) (mem_trackIds mem last.has_id)
        exact absurd this (Nat.not_lt.mpr fresh.1)
    have := (window id m b last).mp live
    omega

def walker : Box :=
  { xyxy := ⟨1 / 10, 1 / 10, 1 / 5, 3 / 10⟩, score := 9 / 10, cls := some 0 }

/-- Under `max_age = 2` a track outlives two missed updates and not a third. -/
theorem track_life_boundary :
    let t₀ := ByteTrackLite.init ⟨3 / 10, by norm_num⟩ 2 "strict"
    1 ∈ (exec t₀ ([[walker], [], []].map .update)).liveIds ∧
      1 ∉ (exec t₀ ([[walker], [], [], []].map .update)).liveIds := by
  intro t₀
  have first : ∀ (misses : List (List Box)), (∀ out ∈ misses, out = []) →
      LastStamp ([walker.stamp 1] :: misses) 1 0 (walker.stamp 1) := by
    intro misses empty
    refine ⟨⟨_, rfl, by simp⟩, rfl, fun m' out later at_m' => ?_⟩
    obtain ⟨m', rfl⟩ : ∃ j, m' = j + 1 := ⟨m' - 1, by omega⟩
    rw [empty out (List.mem_of_getElem? (by simpa using at_m'))]
    simp [trackIds]
  have two : outputs t₀ ([[walker], [], []].map .update) = [[walker.stamp 1], [], []] := by
    decide +kernel
  have three : outputs t₀ ([[walker], [], [], []].map .update) = [[walker.stamp 1], [], [], []] := by
    decide +kernel
  constructor
  · refine ((track_life_eq_history _ 2 "strict" _ (by decide)).2.2.2 1 0 (walker.stamp 1) ?_).mpr ?_
    · rw [two]
      exact first _ (by simp)
    · rw [two]
      decide
  · refine mt ((track_life_eq_history _ 2 "strict" _ (by decide)).2.2.2 1 0 (walker.stamp 1) ?_).mp ?_
    · rw [three]
      exact first _ (by simp)
    · rw [three]
      decide

end VisionNx.Tracker
