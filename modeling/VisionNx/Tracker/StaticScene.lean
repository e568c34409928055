import VisionNx.Tracker.NonInterference
import VisionNx.Tracker.Overlap
import VisionNx.Tracker.Specification

/-! # A scene that does not move

The same detections come twice.  After the first update every detection has a track in
its own place, and so may tracks that were left over from earlier.  A track left over
lost against the detection's own track already, so it stands further down in the list,
and the tie is decided the same way again. -/

namespace VisionNx.Tracker

/-- The mode does not tell the two classes apart. -/
def Compatible (mode : MatchMode) (a b : Int32) : Prop := canonicalCls a mode = canonicalCls b mode

/-- Boxes with area, no two compatible ones in the same place. -/
structure Scene (mode : MatchMode) (boxes : List Box) : Prop where
  solid : ∀ b ∈ boxes, HasArea b.xyxy
  apart : ∀ (i j : ℕ) (b b' : Box), boxes[i]? = some b → boxes[j]? = some b' → i ≠ j →
    Compatible mode b.getCls b'.getCls → b.xyxy ≠ b'.xyxy

/-- The track is where the detection is, and its class is compatible. -/
def Twin (mode : MatchMode) (b : Box) (trk : Track) : Prop :=
  trk.xyxy = b.xyxy ∧ Compatible mode b.getCls trk.cls

/-- A track has at most one twin. -/
theorem Scene.twin_unique {mode : MatchMode} {boxes : List Box} (scene : Scene mode boxes) {i j : ℕ}
    {b b' : Box} (hb : boxes[i]? = some b) (hb' : boxes[j]? = some b') {trk : Track} (twin : Twin mode b trk)
    (twin' : Twin mode b' trk) : i = j := by
  by_contra distinct
  have compatible : Compatible mode b.getCls b'.getCls := twin.2.trans twin'.2.symm
  exact scene.apart i j b b' hb hb' distinct compatible (twin.1.symm.trans twin'.1)

namespace ByteTrackLite

section

variable {t : ByteTrackLite} {boxes : List Box}

theorem pairIou_le_one (t : ByteTrackLite) (boxes : List Box) (di ti : ℕ) : t.pairIou boxes di ti ≤ 1 := by
  rw [pairIou, iouMatrix]
  split
  · exact iouEntry_le_one _ _
  · exact zero_le_one

theorem EligiblePair.compatible {di ti : ℕ} {b : Box} {trk : Track} (eligible : t.EligiblePair boxes di ti)
    (hb : boxes[di]? = some b) (ht : t.tracks[ti]? = some trk) : Compatible t.matchMode b.getCls trk.cls := by
  obtain ⟨b', trk', hb', ht', -, alike⟩ := eligible
  obtain rfl := Option.some.inj (hb.symm.trans hb')
  obtain rfl := Option.some.inj (ht.symm.trans ht')
  cases alike with
  | inl any => rw [Compatible, any, canonicalCls, canonicalCls]
  | inr same => exact same

/-- A twin overlaps completely. -/
theorem eligible_of_twin (le_one : t.iouThr.1 ≤ 1) {di ti : ℕ} {b : Box} {trk : Track}
    (solid : HasArea b.xyxy) (hb : boxes[di]? = some b) (ht : t.tracks[ti]? = some trk)
    (twin : Twin t.matchMode b trk) : t.EligiblePair boxes di ti ∧ t.pairIou boxes di ti = 1 := by
  have one : iouEntry b.xyxy trk.xyxy = 1 := by
    rw [twin.1]
    exact iouEntry_self solid
  exact ⟨⟨b, trk, hb, ht, le_one.trans one.ge, .inr twin.2⟩, (pairIou_eq hb ht).trans one⟩

/-- Only a twin does. -/
theorem twin_of_pairIou_one {di ti : ℕ} {b : Box} {trk : Track} (hb : boxes[di]? = some b)
    (ht : t.tracks[ti]? = some trk) (eligible : t.EligiblePair boxes di ti) (one : t.pairIou boxes di ti = 1) :
    Twin t.matchMode b trk := by
  rw [pairIou_eq hb ht] at one
  exact ⟨(eq_of_iouEntry_eq_one one).2.symm, eligible.compatible hb ht⟩

/-- Nothing precedes a complete overlap but another one. -/
theorem precedes_one {p q : ℕ × ℕ} (one : t.pairIou boxes q.1 q.2 = 1) (earlier : Precedes (t.pairIou boxes) p q) :
    t.pairIou boxes p.1 p.2 = 1 ∧ (p.1 < q.1 ∨ p.1 = q.1 ∧ p.2 < q.2) := by
  cases earlier with
  | inl larger => exact absurd (pairIou_le_one t boxes p.1 p.2) (not_le.mpr (one ▸ larger))
  | inr tie => exact ⟨tie.1.trans one, tie.2⟩

/-! ## The first time -/

/-- A twin that no detection claims lost against a track further up. -/
theorem stale_twin_later (pos : 0 < t.iouThr.1) (le_one : t.iouThr.1 ≤ 1) {di ti : ℕ} {b : Box} {trk : Track}
    (solid : HasArea b.xyxy) (hb : boxes[di]? = some b) (ht : t.tracks[ti]? = some trk)
    (twin : Twin t.matchMode b trk) (stale : ∀ i, t.matching boxes i ≠ some ti) :
    ∃ r, t.matching boxes di = some r ∧ r < ti := by
  obtain ⟨eligible, one⟩ := eligible_of_twin le_one solid hb ht twin
  obtain ⟨a, r, chosen, share, earlier⟩ := (matching_calledFor pos).dominated eligible (stale di)
  obtain ⟨-, order⟩ := precedes_one one earlier
  cases share with
  | inl same =>
    obtain rfl : a = di := same
    exact ⟨r, chosen, by simpa using order⟩
  | inr same => exact absurd (same ▸ chosen) (stale a)

/-- A twin among the old tracks is the detection's own track or further down. -/
theorem own_le_of_twin (pos : 0 < t.iouThr.1) (le_one : t.iouThr.1 ≤ 1) (scene : Scene t.matchMode boxes)
    {di ti : ℕ} {b : Box} {trk' : Track} (hb : boxes[di]? = some b) (there : (t.advanced boxes)[ti]? = some trk')
    (twin : Twin t.matchMode b trk') : ∃ r, t.matching boxes di = some r ∧ r ≤ ti := by
  rw [advanced, List.getElem?_mapIdx, Option.map_eq_some_iff] at there
  obtain ⟨trk, ht, rfl⟩ := there
  cases claimed : claimant (t.matching boxes) ti 0 boxes with
  | some b' =>
    obtain ⟨di', hb', held⟩ := claimant_eq_some claimed
    rw [claimed] at twin
    have twin' : Twin t.matchMode b' (trk.advance (some b')) := ⟨rfl, rfl⟩
    obtain rfl := scene.twin_unique hb hb' twin twin'
    exact ⟨ti, by rwa [Nat.zero_add] at held, le_rfl⟩
  | none =>
    have stale : ∀ i, t.matching boxes i ≠ some ti := by
      intro i held
      have hb' := List.getElem?_eq_getElem (matching_inside held).1
      have claimed' := claimant_of_matched (t.matching_injective boxes) hb' (by rwa [Nat.zero_add])
      rw [claimed] at claimed'
      cases claimed'
    rw [claimed] at twin
    obtain ⟨r, held, lt⟩ := stale_twin_later pos le_one (scene.solid b (List.mem_of_getElem? hb)) hb ht twin stale
    exact ⟨r, held, lt.le⟩

theorem tracks_update_eq (t : ByteTrackLite) (boxes : List Box) :
    (t.update boxes).1.tracks = t.survivors boxes ++ births t.nextId (t.owners boxes) boxes := by
  rw [update_eq_settle, settle]

/-- A new track has the only id of its kind. -/
theorem births_position_unique {k j : ℕ} {trk trk' : Track} (born : (births t.nextId (t.owners boxes) boxes)[k]? = some trk)
    (born' : (births t.nextId (t.owners boxes) boxes)[j]? = some trk') (same : trk.id = trk'.id) : k = j := by
  have distinct : ((births t.nextId (t.owners boxes) boxes).map (·.id)).Nodup := by
    rw [births_ids (t.length_owners boxes)]
    exact List.nodup_range'
  have at_k : ((births t.nextId (t.owners boxes) boxes).map (·.id))[k]? = some trk.id := by
    rw [List.getElem?_map, born, Option.map_some]
  have at_j : ((births t.nextId (t.owners boxes) boxes).map (·.id))[j]? = some trk.id := by
    rw [List.getElem?_map, born', Option.map_some, same]
  exact (List.getElem?_inj (List.getElem?_eq_some_iff.mp at_k).1 distinct).mp (at_k.trans at_j.symm)

/-- The survivors stand in the order of the old tracks. -/
theorem survivors_positions (t : ByteTrackLite) (boxes : List Box) :
    ∃ f : ℕ → ℕ, StrictMono f ∧ (∀ i, (t.survivors boxes)[i]? = (t.advanced boxes)[f i]?) ∧
      ∀ j trk, (t.advanced boxes)[j]? = some trk → (trk.timeSinceUpdate : ℤ) ≤ t.maxAge → ∃ i, f i = j := by
  obtain ⟨f, mono, kept, onto⟩ :=
    exists_filter_positions (fun trk => decide ((trk.timeSinceUpdate : ℤ) ≤ t.maxAge)) (t.advanced boxes)
  exact ⟨f, mono, kept, fun j trk there young => onto j trk there (decide_eq_true young)⟩

/-- The update stamps a detection with the id of the first of the tracks that are then in its place. -/
def HasOwnTrack (t : ByteTrackLite) (boxes : List Box) (di : ℕ) (b : Box) : Prop :=
  ∃ (ti : ℕ) (trk : Track), (t.update boxes).1.tracks[ti]? = some trk ∧ Twin t.matchMode b trk ∧
    (t.stampIds boxes)[di]? = some trk.id ∧
    ∀ (tj : ℕ) (trk' : Track), (t.update boxes).1.tracks[tj]? = some trk' → Twin t.matchMode b trk' → ti ≤ tj

/-- The track that a detection has claimed is the first one in its place. -/
theorem exists_own_of_matched (pos : 0 < t.iouThr.1) (le_one : t.iouThr.1 ≤ 1) (age : 0 ≤ t.maxAge)
    (scene : Scene t.matchMode boxes) {di r : ℕ} {b : Box} (hb : boxes[di]? = some b)
    (held : t.matching boxes di = some r) : t.HasOwnTrack boxes di b := by
  have hdi := (List.getElem?_eq_some_iff.mp hb).1
  obtain ⟨f, mono, kept, onto⟩ := survivors_positions t boxes
  obtain ⟨trk, ht⟩ : ∃ trk, t.tracks[r]? = some trk := ⟨_, List.getElem?_eq_getElem (matching_inside held).2⟩
  have claimed : claimant (t.matching boxes) r 0 boxes = some b :=
    claimant_of_matched (t.matching_injective boxes) hb (by rwa [Nat.zero_add])
  have there : (t.advanced boxes)[r]? = some (trk.refresh b) := by
    rw [advanced, List.getElem?_mapIdx, ht, Option.map_some, claimed, Track.advance]
  obtain ⟨ti, rfl⟩ := onto r _ there (by simpa [Track.refresh] using age)
  rw [← kept] at there
  have inside := (List.getElem?_eq_some_iff.mp there).1
  rw [HasOwnTrack, tracks_update_eq]
  refine ⟨ti, _, (List.getElem?_append_left inside).trans there, ⟨rfl, rfl⟩, fillFresh_of_some ?_, ?_⟩
  · rw [owners, getElem?_ownIds hdi, Nat.zero_add, held]
    simp [liveIds, ht]
  · intro tj trk' there' twin
    by_contra! earlier
    rw [List.getElem?_append_left (earlier.trans inside), kept] at there'
    obtain ⟨r, held', le⟩ := own_le_of_twin pos le_one scene hb there' twin
    obtain rfl := Option.some.inj (held.symm.trans held')
    exact absurd (mono earlier) (not_lt.mpr le)

/-- The track that a detection opens is the only one in its place. -/
theorem exists_own_of_unmatched (pos : 0 < t.iouThr.1) (le_one : t.iouThr.1 ≤ 1) (scene : Scene t.matchMode boxes)
    {di : ℕ} {b : Box} (hb : boxes[di]? = some b) (held : t.matching boxes di = none) :
    t.HasOwnTrack boxes di b := by
  have hdi := (List.getElem?_eq_some_iff.mp hb).1
  have inside : di < (t.stampIds boxes).length := by rwa [length_stampIds]
  have hid := List.getElem?_eq_getElem inside
  have gap : (t.owners boxes)[di]? = some none := by
    rw [owners, getElem?_ownIds hdi, Nat.zero_add, held, Option.bind_none]
  obtain ⟨k, born⟩ := List.mem_iff_getElem?.mp (mem_births_of_none hb gap hid)
  obtain ⟨f, mono, kept, onto⟩ := survivors_positions t boxes
  rw [HasOwnTrack, tracks_update_eq]
  refine ⟨(t.survivors boxes).length + k, Track.new (t.stampIds boxes)[di] b.xyxy b.getCls, ?_, ⟨rfl, rfl⟩, hid, ?_⟩
  · rw [List.getElem?_append_right (Nat.le_add_right _ _), Nat.add_sub_cancel_left]
    exact born
  · intro tj trk' there' twin
    cases lt_or_ge tj (t.survivors boxes).length with
    | inl old =>
      -- No old track is in the place of a detection that claims none.
      rw [List.getElem?_append_left old, kept] at there'
      obtain ⟨r, held', -⟩ := own_le_of_twin pos le_one scene hb there' twin
      rw [held] at held'
      cases held'
    | inr new =>
      rw [List.getElem?_append_right new] at there'
      obtain ⟨di', b', hb', -, hid', opened⟩ := births_cases (List.mem_of_getElem? there')
      have twin' : Twin t.matchMode b' trk' := by
        rw [opened]
        exact ⟨rfl, rfl⟩
      obtain rfl := scene.twin_unique hb hb' twin twin'
      have same := births_position_unique born there' (Option.some.inj (hid.symm.trans hid'))
      omega

theorem exists_own (pos : 0 < t.iouThr.1) (le_one : t.iouThr.1 ≤ 1) (age : 0 ≤ t.maxAge)
    (scene : Scene t.matchMode boxes) {di : ℕ} {b : Box} (hb : boxes[di]? = some b) :
    t.HasOwnTrack boxes di b := by
  cases held : t.matching boxes di with
  | some r => exact exists_own_of_matched pos le_one age scene hb held
  | none => exact exists_own_of_unmatched pos le_one scene hb held

/-! ## The second time -/

/-- The second update gives every detection its own track. -/
theorem matching_again (pos : 0 < t.iouThr.1) (le_one : t.iouThr.1 ≤ 1) (scene : Scene t.matchMode boxes)
    {di ti : ℕ} {b : Box} {trk : Track} (hb : boxes[di]? = some b) (ht : t.tracks[ti]? = some trk)
    (twin : Twin t.matchMode b trk)
    (first : ∀ (tj : ℕ) (trk' : Track), t.tracks[tj]? = some trk' → Twin t.matchMode b trk' → ti ≤ tj) :
    t.matching boxes di = some ti := by
  by_contra unmatched
  have solid := scene.solid b (List.mem_of_getElem? hb)
  obtain ⟨eligible, one⟩ := eligible_of_twin le_one solid hb ht twin
  obtain ⟨di', ti', chosen, share, earlier⟩ := (matching_calledFor pos).dominated eligible unmatched
  obtain ⟨one', order⟩ := precedes_one one earlier
  have hb' := List.getElem?_eq_getElem (matching_inside chosen).1
  have ht' := List.getElem?_eq_getElem (matching_inside chosen).2
  have twin' := twin_of_pairIou_one hb' ht' ((matching_calledFor pos).eligible chosen) one'
  cases share with
  | inl same =>
    obtain rfl : di' = di := same
    obtain rfl := Option.some.inj (hb.symm.trans hb')
    have := first ti' _ ht' twin'
    simp at order
    omega
  | inr same =>
    obtain rfl : ti' = ti := same
    obtain rfl := Option.some.inj (ht.symm.trans ht')
    obtain rfl := scene.twin_unique hb hb' twin twin'
    exact unmatched chosen

theorem iouThr_update (t : ByteTrackLite) (boxes : List Box) : (t.update boxes).1.iouThr = t.iouThr := by
  rw [update_eq_settle, settle]

theorem stamped_again (pos : 0 < t.iouThr.1) (le_one : t.iouThr.1 ≤ 1) (age : 0 ≤ t.maxAge)
    (scene : Scene t.matchMode boxes) {di : ℕ} {b : Box} (hb : boxes[di]? = some b) :
    ∃ id, (t.stampIds boxes)[di]? = some id ∧ ((t.update boxes).1.owners boxes)[di]? = some (some id) := by
  obtain ⟨ti, trk, ht, twin, hid, first⟩ := exists_own pos le_one age scene hb
  have again : (t.update boxes).1.matching boxes di = some ti := by
    apply matching_again _ _ _ hb ht
    · rwa [matchMode_update]
    · rwa [matchMode_update]
    · rwa [iouThr_update]
    · rwa [iouThr_update]
    · rwa [matchMode_update]
  refine ⟨trk.id, hid, ?_⟩
  rw [getElem?_owners, hb, again]
  simp [liveIds, ht]

end

/-- Two updates with the same detections, from any state, whatever stale tracks it has: every
    detection gets the same id both times, and the second update opens no track. -/
theorem static_scene_keeps_ids (t : ByteTrackLite) (pos : 0 < t.iouThr.1) (le_one : t.iouThr.1 ≤ 1)
    (age : 0 ≤ t.maxAge) (boxes : List Box) (scene : Scene t.matchMode boxes) :
    let once := t.update boxes
    let twice := once.1.update boxes
    trackIds twice.2 = trackIds once.2 ∧ twice.2 = once.2 ∧
      twice.1.nextId = once.1.nextId ∧ twice.1.liveIds.Sublist once.1.liveIds := by
  intro once twice
  have stamps : once.1.stampIds boxes = t.stampIds boxes := by
    apply List.ext_getElem?
    intro di
    cases hb : boxes[di]? with
    | none =>
      have outside := List.getElem?_eq_none_iff.mp hb
      rw [List.getElem?_eq_none (by rwa [length_stampIds]), List.getElem?_eq_none (by rwa [length_stampIds])]
    | some b =>
      obtain ⟨id, hid, own⟩ := stamped_again pos le_one age scene hb
      rw [hid]
      exact fillFresh_of_some own
  have owned : (once.1.owners boxes).count none = 0 := by
    rw [List.count_eq_zero]
    intro gap
    obtain ⟨di, own⟩ := List.mem_iff_getElem?.mp gap
    have inside := (List.getElem?_eq_some_iff.mp own).1
    rw [length_owners] at inside
    obtain ⟨id, -, own'⟩ := stamped_again pos le_one age scene (List.getElem?_eq_getElem inside)
    cases own.symm.trans own'
  have outputs : twice.2 = once.2 := by
    show (once.1.update boxes).2 = (t.update boxes).2
    rw [update_eq_settle, update_eq_settle t, settle, settle, stamps]
  refine ⟨congrArg trackIds outputs, outputs, ?_, ?_⟩
  · show (once.1.update boxes).1.nextId = once.1.nextId
    rw [nextId_update, owned, Nat.add_zero]
  · show (once.1.update boxes).1.liveIds.Sublist once.1.liveIds
    rw [liveIds_update, owned, List.range'_zero, List.append_nil]
    exact once.1.survivors_ids_sublist boxes

/-- Track 2 stands where the walker is, and has lost against track 1 both times. -/
theorem static_scene_keeps_ids_twins :
    let t := exec (ByteTrackLite.init ⟨3 / 10, by norm_num⟩ 90 "strict") [.update [walker, walker]]
    let once := t.update [walker, van]
    let twice := once.1.update [walker, van]
    once.2 = [walker.stamp 1, van.stamp 3] ∧ twice.2 = [walker.stamp 1, van.stamp 3] ∧
      2 ∈ twice.1.liveIds ∧ twice.1.nextId = 4 := by
  intro t once twice
  have scene : Scene t.matchMode [walker, van] := by
    refine ⟨?_, ?_⟩
    · intro b mem
      obtain rfl | mem := List.mem_cons.mp mem
      · exact ⟨by decide +kernel, by decide +kernel⟩
      · obtain rfl := List.mem_singleton.mp mem
        exact ⟨by decide +kernel, by decide +kernel⟩
    · intro i j b b' hb hb' distinct _
      have differ : walker.xyxy ≠ van.xyxy := by decide +kernel
      match i, j with
      | 0, 0 => exact absurd rfl distinct
      | 1, 1 => exact absurd rfl distinct
      | 0, 1 =>
        obtain rfl := Option.some.inj hb
        obtain rfl := Option.some.inj hb'
        exact differ
      | 1, 0 =>
        obtain rfl := Option.some.inj hb
        obtain rfl := Option.some.inj hb'
        exact differ.symm
      | _ + 2, _ => simp at hb
      | _, _ + 2 => simp at hb'
  obtain ⟨-, same, next, -⟩ :=
    static_scene_keeps_ids t (by decide +kernel) (by decide +kernel) (by decide +kernel) [walker, van] scene
  have first : once.2 = [walker.stamp 1, van.stamp 3] := by decide +kernel
  have counter : once.1.nextId = 4 := by decide +kernel
  exact ⟨first, same.trans first, by decide +kernel, next.trans counter⟩

end ByteTrackLite

end VisionNx.Tracker
