import Mathlib.Logic.Function.Basic
import VisionNx.Tracker.Motion
import VisionNx.Tracker.Specification
import VisionNx.Tracker.StaticScene

/-! # Objects and ids

What tracking is for: the detections show objects, and every object should have an id of
its own.  Here each detection comes with the object that it shows, which the tracker does
not see.  Objects may cross and overlap: they are told apart as long as an overlap of two
different ones is always beaten by the overlap of one of them with where it was last seen.
-/

namespace VisionNx.Tracker

open ByteTrackLite GreedyMatching

variable {O : Type*}

/-! ## Sightings -/

/-- Frame `n` shows the object `o` in the box `b`. -/
def Sighting (frames : List (List (O × Box))) (n : ℕ) (o : O) (b : Box) : Prop :=
  ∃ frame, frames[n]? = some frame ∧ (o, b) ∈ frame

/-- The last frame before `n` that shows `o` is `m`. -/
structure LastSighting (frames : List (List (O × Box))) (n : ℕ) (o : O) (m : ℕ) (b : Box) : Prop where
  before : m < n
  sighted : Sighting frames m o b
  unseen : ∀ k b', m < k → k < n → ¬ Sighting frames k o b'

def Seen (frames : List (List (O × Box))) (o : O) : Prop := ∃ n b, Sighting frames n o b

/-- Enough overlap, and classes that the mode does not tell apart. -/
def Alike (thr : ℚ) (mode : MatchMode) (b b₀ : Box) : Prop :=
  thr ≤ iouEntry b.xyxy b₀.xyxy ∧ Compatible mode b.getCls b₀.getCls

/-- Objects that can be told apart.  An object that is seen again overlaps the box in which it was
    last seen.  Where it overlaps the last box of another object too, either it overlaps its own more,
    or the other object is there as well and overlaps that box more. -/
structure Distinguishable (thr : ℚ) (mode : MatchMode) (maxAge : ℤ) (frames : List (List (O × Box))) : Prop where
  once : ∀ frame ∈ frames, (frame.map Prod.fst).Nodup
  near : ∀ n o b m b₀, Sighting frames n o b → LastSighting frames n o m b₀ →
    (n : ℤ) ≤ m + maxAge + 1 ∧ Alike thr mode b b₀
  nearer : ∀ n o b o' m' b₀', Sighting frames n o b → LastSighting frames n o' m' b₀' → o ≠ o' →
    (n : ℤ) ≤ m' + maxAge + 1 → Alike thr mode b b₀' →
      (∃ m b₀, LastSighting frames n o m b₀ ∧ iouEntry b.xyxy b₀'.xyxy < iouEntry b.xyxy b₀.xyxy) ∨
      ∃ b', Sighting frames n o' b' ∧ iouEntry b.xyxy b₀'.xyxy < iouEntry b'.xyxy b₀'.xyxy

/-- The detections, each with the id of its object. -/
def namedBoxes (name : O → ℕ) (frame : List (O × Box)) : List Box := frame.map fun d => d.2.stamp (name d.1)

section

variable {frames past rest : List (List (O × Box))} {frame : List (O × Box)} {n m m' : ℕ} {o : O} {b b' : Box}

theorem sighting_append (here : n < past.length) : Sighting (past ++ rest) n o b ↔ Sighting past n o b := by
  simp only [Sighting, List.getElem?_append_left here]

theorem sighting_now : Sighting (past ++ frame :: rest) past.length o b ↔ (o, b) ∈ frame := by
  simp [Sighting]

theorem Sighting.lt_length (sighted : Sighting frames n o b) : n < frames.length := by
  obtain ⟨frame, at_n, -⟩ := sighted
  exact (List.getElem?_eq_some_iff.mp at_n).1

theorem Sighting.unique (once : ∀ frame ∈ frames, (frame.map Prod.fst).Nodup) (sighted : Sighting frames n o b)
    (sighted' : Sighting frames n o b') : b = b' := by
  obtain ⟨frame, at_n, mem⟩ := sighted
  obtain ⟨frame', at_n', mem'⟩ := sighted'
  obtain rfl := Option.some.inj (at_n.symm.trans at_n')
  have same := List.inj_on_of_nodup_map (once frame (List.mem_of_getElem? at_n)) mem mem' rfl
  exact congrArg Prod.snd same

theorem LastSighting.unique (once : ∀ frame ∈ frames, (frame.map Prod.fst).Nodup)
    (last : LastSighting frames n o m b) (last' : LastSighting frames n o m' b') : m = m' ∧ b = b' := by
  have le : m ≤ m' := by
    by_contra! later
    exact last'.unseen m b later last.before last.sighted
  have ge : m' ≤ m := by
    by_contra! later
    exact last.unseen m' b' later last'.before last'.sighted
  obtain rfl := le_antisymm le ge
  exact ⟨rfl, last.sighted.unique once last'.sighted⟩

/-- An object that was seen was seen last at some time. -/
theorem exists_lastSighting (sighted : Sighting frames m o b) (before : m < n) :
    ∃ m' b', LastSighting frames n o m' b' := by
  induction n with
  | zero => cases before
  | succ n ih =>
    by_cases now : ∃ b', Sighting frames n o b'
    · obtain ⟨b', now⟩ := now
      exact ⟨n, b', Nat.lt_succ_self n, now, fun k _ later before => by omega⟩
    · have earlier : m < n := by
        apply lt_of_le_of_ne (Nat.le_of_lt_succ before)
        rintro rfl
        exact now ⟨b, sighted⟩
      obtain ⟨m', b', last⟩ := ih earlier
      refine ⟨m', b', last.before.trans (Nat.lt_succ_self n), last.sighted, fun k b'' later before again => ?_⟩
      cases (Nat.le_of_lt_succ before).lt_or_eq with
      | inl earlier => exact last.unseen k b'' later earlier again
      | inr same =>
        subst same
        exact now ⟨b'', again⟩

theorem seen_concat : Seen (past ++ [frame]) o ↔ Seen past o ∨ o ∈ frame.map Prod.fst := by
  constructor
  · rintro ⟨n, b, sighted⟩
    have inside := sighted.lt_length
    rw [List.length_append, List.length_singleton] at inside
    cases (Nat.le_of_lt_succ inside).lt_or_eq with
    | inl earlier => exact .inl ⟨n, b, (sighting_append earlier).mp sighted⟩
    | inr now =>
      subst now
      exact .inr (List.mem_map_of_mem (sighting_now.mp sighted))
  · rintro (⟨n, b, sighted⟩ | now)
    · exact ⟨n, b, (sighting_append sighted.lt_length).mpr sighted⟩
    · obtain ⟨d, mem, rfl⟩ := List.mem_map.mp now
      exact ⟨past.length, d.2, sighting_now.mpr mem⟩

end

/-- Distinct objects can be given any ids. -/
theorem exists_naming {os : List O} (distinct : os.Nodup) {ids : List ℕ} (len : ids.length = os.length) :
    ∃ g : O → ℕ, os.map g = ids := by
  classical
  induction os generalizing ids with
  | nil => exact ⟨fun _ => 0, (List.length_eq_zero_iff.mp len).symm⟩
  | cons o os ih =>
    cases ids with
    | nil => cases len
    | cons id ids =>
      obtain ⟨other, distinct⟩ := List.nodup_cons.mp distinct
      obtain ⟨g, rfl⟩ := ih distinct (Nat.succ.inj len)
      refine ⟨Function.update g o id, ?_⟩
      rw [List.map_cons, Function.update_self]
      congr 1
      apply List.map_congr_left
      intro o' mem
      apply Function.update_of_ne
      rintro rfl
      exact other mem

/-! ## Ids for objects -/

/-- The tracker has seen these frames, and has given each object an id. -/
structure Named (name : O → ℕ) (t : ByteTrackLite) (past : List (List (O × Box))) : Prop where
  ok : t.IdsOk
  history : History t (past.map (namedBoxes name))
  below : ∀ o, Seen past o → name o < t.nextId
  injective : Set.InjOn name {o | Seen past o}

section

variable {name : O → ℕ} {t : ByteTrackLite} {past rest : List (List (O × Box))} {frame : List (O × Box)}

/-- A live track is where its object was last seen. -/
theorem Named.object (named : Named name t past) {trk : Track} (mem : trk ∈ t.tracks) :
    ∃ o m b, LastSighting (past ++ rest) past.length o m b ∧ name o = trk.id ∧ trk.xyxy = b.xyxy ∧
      trk.cls = b.getCls ∧ (past.length : ℤ) ≤ m + t.maxAge + 1 := by
  obtain ⟨m, b', last, ticks, box, cls⟩ := named.history.live trk mem
  obtain ⟨out, at_m, in_out⟩ := last.stamped
  rw [List.getElem?_map, Option.map_eq_some_iff] at at_m
  obtain ⟨then_seen, at_m, rfl⟩ := at_m
  obtain ⟨⟨o, b⟩, in_frame, rfl⟩ := List.mem_map.mp in_out
  have is : name o = trk.id := Option.some.inj last.has_id
  have young := named.history.young trk mem
  rw [List.length_map] at ticks
  refine ⟨o, m, b, ⟨by omega, ?_, ?_⟩, is, box, cls, by omega⟩
  · exact (sighting_append (by omega)).mpr ⟨then_seen, at_m, in_frame⟩
  · intro k b'' later before again
    obtain ⟨again_seen, at_k, in_again⟩ := (sighting_append before).mp again
    have at_k' : (past.map (namedBoxes name))[k]? = some (namedBoxes name again_seen) := by
      rw [List.getElem?_map, at_k, Option.map_some]
    apply last.latest k _ later at_k'
    rw [← is]
    exact mem_trackIds (List.mem_map_of_mem in_again) rfl

theorem LastSighting.seen {n m : ℕ} {o : O} {b : Box} (last : LastSighting (past ++ rest) n o m b)
    (le : n ≤ past.length) : Seen past o :=
  ⟨m, b, (sighting_append (last.before.trans_le le)).mp last.sighted⟩

/-- An object that was seen in time has a live track. -/
theorem Named.track (named : Named name t past) {o : O} {m : ℕ} {b : Box}
    (once : ∀ frame ∈ past ++ rest, (frame.map Prod.fst).Nodup)
    (last : LastSighting (past ++ rest) past.length o m b) (recent : (past.length : ℤ) ≤ m + t.maxAge + 1) :
    ∃ (ti : ℕ) (trk : Track), t.tracks[ti]? = some trk ∧ trk.id = name o ∧ trk.xyxy = b.xyxy ∧ trk.cls = b.getCls := by
  obtain ⟨then_seen, at_m, in_frame⟩ := (sighting_append last.before).mp last.sighted
  have at_m' : (past.map (namedBoxes name))[m]? = some (namedBoxes name then_seen) := by
    rw [List.getElem?_map, at_m, Option.map_some]
  have stamped : name o ∈ trackIds (namedBoxes name then_seen) :=
    mem_trackIds (List.mem_map_of_mem in_frame) rfl
  have live := named.history.recent m _ (name o) at_m' stamped (by
    rw [List.length_map]
    omega)
  obtain ⟨trk, mem, is⟩ := List.mem_map.mp live
  obtain ⟨ti, at_ti⟩ := List.mem_iff_getElem?.mp mem
  -- The track is one of this object, so it is where this object was last seen.
  obtain ⟨o', m', b', last', name_eq, box, cls, -⟩ := @Named.object _ _ _ _ rest named trk mem
  have same : o' = o := named.injective (last'.seen le_rfl) (last.seen le_rfl) (name_eq.trans is)
  subst same
  obtain ⟨-, rfl⟩ := last'.unique once last
  exact ⟨ti, trk, at_ti, is, box, cls⟩

/-- The pairs of a detection and the track of its object. -/
def OwnPair (name : O → ℕ) (t : ByteTrackLite) (past : List (List (O × Box))) (frame : List (O × Box))
    (di ti : ℕ) : Prop :=
  ∃ (o : O) (b : Box) (trk : Track),
    frame[di]? = some (o, b) ∧ t.tracks[ti]? = some trk ∧ Seen past o ∧ trk.id = name o

theorem compatible_iff {mode : MatchMode} {a b : Int32} :
    Compatible mode a b ↔ mode = .any ∨ canonicalCls a mode = canonicalCls b mode := by
  constructor
  · exact .inr
  · rintro (rfl | same)
    · rfl
    · exact same

theorem getElem?_boxes {di : ℕ} {b : Box} : (frame.map Prod.snd)[di]? = some b ↔ ∃ o, frame[di]? = some (o, b) := by
  simp only [List.getElem?_map, Option.map_eq_some_iff, Prod.exists, exists_eq_right]

theorem sighting_of_getElem? {di : ℕ} {o : O} {b : Box} (at_di : frame[di]? = some (o, b)) :
    Sighting (past ++ frame :: rest) past.length o b :=
  sighting_now.mpr (List.mem_of_getElem? at_di)

theorem OwnPair.eligible (named : Named name t past)
    (apart : Distinguishable t.iouThr.1 t.matchMode t.maxAge (past ++ frame :: rest)) {di ti : ℕ}
    (own : OwnPair name t past frame di ti) : t.EligiblePair (frame.map Prod.snd) di ti := by
  obtain ⟨o, b, trk, at_di, at_ti, seen, is⟩ := own
  obtain ⟨o', m, b₀, last, name_eq, box, cls, -⟩ :=
    @Named.object _ _ _ _ (frame :: rest) named trk (List.mem_of_getElem? at_ti)
  obtain rfl : o' = o := named.injective (last.seen le_rfl) seen (name_eq.trans is)
  obtain ⟨-, overlap, compatible⟩ := apart.near past.length o' b m b₀ (sighting_of_getElem? at_di) last
  refine ⟨b, trk, getElem?_boxes.mpr ⟨o', at_di⟩, at_ti, ?_, ?_⟩
  · rwa [box]
  · rw [cls]
    exact compatible_iff.mp compatible

theorem OwnPair.left_unique (ok : t.IdsOk) {di ti ti' : ℕ} (own : OwnPair name t past frame di ti)
    (own' : OwnPair name t past frame di ti') : ti = ti' := by
  obtain ⟨o, b, trk, at_di, at_ti, -, is⟩ := own
  obtain ⟨o', b', trk', at_di', at_ti', -, is'⟩ := own'
  cases at_di.symm.trans at_di'
  have ids : t.liveIds[ti]? = t.liveIds[ti']? := by
    simp only [liveIds, List.getElem?_map, at_ti, at_ti', Option.map_some, is, is']
  have bound : ti < t.liveIds.length := by
    simpa [liveIds] using (List.getElem?_eq_some_iff.mp at_ti).1
  exact (List.getElem?_inj bound ok.distinct).mp ids

theorem OwnPair.right_unique (named : Named name t past) (once : (frame.map Prod.fst).Nodup) {di di' ti : ℕ}
    (own : OwnPair name t past frame di ti) (own' : OwnPair name t past frame di' ti) : di = di' := by
  obtain ⟨o, b, trk, at_di, at_ti, seen, is⟩ := own
  obtain ⟨o', b', trk', at_di', at_ti', seen', is'⟩ := own'
  cases at_ti.symm.trans at_ti'
  obtain rfl : o = o' := named.injective seen seen' (is.symm.trans is')
  have objects : (frame.map Prod.fst)[di]? = (frame.map Prod.fst)[di']? := by
    simp only [List.getElem?_map, at_di, at_di', Option.map_some]
  have bound : di < (frame.map Prod.fst).length := by
    simpa using (List.getElem?_eq_some_iff.mp at_di).1
  exact (List.getElem?_inj bound once).mp objects

/-- A pair of a detection and the track of another object comes after one with an own track. -/
theorem OwnPair.dominates (named : Named name t past)
    (apart : Distinguishable t.iouThr.1 t.matchMode t.maxAge (past ++ frame :: rest)) {di ti : ℕ}
    (eligible : t.EligiblePair (frame.map Prod.snd) di ti) (other : ¬ OwnPair name t past frame di ti) :
    ∃ di' ti', OwnPair name t past frame di' ti' ∧ (di' = di ∨ ti' = ti) ∧
      Precedes (t.pairIou (frame.map Prod.snd)) (di', ti') (di, ti) := by
  obtain ⟨b, trk, hb, at_ti, overlap, alike⟩ := eligible
  obtain ⟨o, at_di⟩ := getElem?_boxes.mp hb
  obtain ⟨o', m', b₀', last', is, box, cls, recent⟩ :=
    @Named.object _ _ _ _ (frame :: rest) named trk (List.mem_of_getElem? at_ti)
  rw [box] at overlap
  rw [cls] at alike
  have two : o ≠ o' := by
    rintro rfl
    exact other ⟨o, b, trk, at_di, at_ti, last'.seen le_rfl, is.symm⟩
  have pair : t.pairIou (frame.map Prod.snd) di ti = iouEntry b.xyxy b₀'.xyxy := by
    rw [pairIou_eq hb at_ti, box]
  have now : Sighting (past ++ frame :: rest) past.length o b := sighting_of_getElem? at_di
  cases apart.nearer past.length o b o' m' b₀' now last' two recent ⟨overlap, compatible_iff.mpr alike⟩ with
  | inl own =>
    -- The detection is nearer to where its own object was last seen.
    obtain ⟨m, b₀, last, more⟩ := own
    have soon := (apart.near past.length o b m b₀ now last).1
    obtain ⟨ti', trk', at_ti', is', box', -⟩ := named.track apart.once last soon
    refine ⟨di, ti', ⟨o, b, trk', at_di, at_ti', last.seen le_rfl, is'⟩, .inl rfl, .inl ?_⟩
    rw [pair, pairIou_eq hb at_ti', box']
    exact more
  | inr theirs =>
    -- The other object is there as well and nearer to its track.
    obtain ⟨b', sighted', more⟩ := theirs
    obtain ⟨di', at_di'⟩ := List.mem_iff_getElem?.mp (sighting_now.mp sighted')
    refine ⟨di', ti, ⟨o', b', trk, at_di', at_ti, last'.seen le_rfl, is.symm⟩, .inr rfl, .inl ?_⟩
    rw [pair, pairIou_eq (getElem?_boxes.mpr ⟨o', at_di'⟩) at_ti, box]
    exact more

/-- Objects that can be told apart are matched with their own tracks. -/
theorem Named.matching_iff (named : Named name t past) (pos : 0 < t.iouThr.1)
    (apart : Distinguishable t.iouThr.1 t.matchMode t.maxAge (past ++ frame :: rest)) (di ti : ℕ) :
    t.matching (frame.map Prod.snd) di = some ti ↔ OwnPair name t past frame di ti := by
  have once : (frame.map Prod.fst).Nodup := apart.once frame (by simp)
  have finite : {p : ℕ × ℕ | t.EligiblePair (frame.map Prod.snd) p.1 p.2}.Finite := by
    apply ((Set.finite_lt_nat (frame.map Prod.snd).length).prod (Set.finite_lt_nat t.tracks.length)).subset
    rintro p ⟨b, trk, hb, ht, -⟩
    exact ⟨(List.getElem?_eq_some_iff.mp hb).1, (List.getElem?_eq_some_iff.mp ht).1⟩
  have greedy : IsGreedy (t.EligiblePair (frame.map Prod.snd)) (Precedes (t.pairIou (frame.map Prod.snd)))
      (OwnPair name t past frame) :=
    ⟨OwnPair.eligible named apart, OwnPair.left_unique named.ok, OwnPair.right_unique named once,
      OwnPair.dominates named apart⟩
  exact IsGreedy.unique finite.wellFoundedOn (matching_calledFor pos) greedy di ti

/-! ## A step -/

/-- An object that has been seen keeps its id, and one that has not gets an id off the counter. -/
theorem Named.specId (named : Named name t past) (pos : 0 < t.iouThr.1)
    (apart : Distinguishable t.iouThr.1 t.matchMode t.maxAge (past ++ frame :: rest)) {di : ℕ} {o : O} {b : Box}
    (at_di : frame[di]? = some (o, b)) :
    (Seen past o → t.specId (t.matching (frame.map Prod.snd)) di = name o) ∧
      (¬ Seen past o → t.nextId ≤ t.specId (t.matching (frame.map Prod.snd)) di) := by
  constructor
  · rintro ⟨n, b', sighted⟩
    have before : n < past.length := sighted.lt_length
    have sighted' : Sighting (past ++ frame :: rest) n o b' := (sighting_append before).mpr sighted
    obtain ⟨m, b₀, last⟩ := exists_lastSighting sighted' before
    have soon := (apart.near past.length o b m b₀ (sighting_of_getElem? at_di) last).1
    obtain ⟨ti, trk, at_ti, is, -⟩ := named.track apart.once last soon
    have held := (named.matching_iff pos apart di ti).mpr ⟨o, b, trk, at_di, at_ti, last.seen le_rfl, is⟩
    simp only [ByteTrackLite.specId, held, Option.bind_some, at_ti, is]
  · intro new
    cases held : t.matching (frame.map Prod.snd) di with
    | none =>
      simp only [ByteTrackLite.specId, held, Option.bind_none]
      exact Nat.le_add_right _ _
    | some ti =>
      obtain ⟨o', b', trk, at_di', -, seen, -⟩ := (named.matching_iff pos apart di ti).mp held
      cases at_di.symm.trans at_di'
      exact absurd seen new

theorem stampIds_getElem? {boxes : List Box} {di : ℕ} {b : Box} (hb : boxes[di]? = some b) :
    (t.stampIds boxes)[di]? = some (t.specId (t.matching boxes) di) := by
  have stamped := update_ids (t := t) hb
  rw [update_eq_settle, settle, List.getElem?_zipWith_eq_some] at stamped
  obtain ⟨b', id, -, at_di, same⟩ := stamped
  have ids := congrArg Box.trackId same
  rw [Box.stamp_trackId, Box.stamp_trackId] at ids
  rwa [Option.some.inj ids] at at_di

theorem stampIds_below (ok : t.IdsOk) {boxes : List Box} {id : ℕ} (mem : id ∈ t.stampIds boxes) :
    id < (t.update boxes).1.nextId := by
  cases stampIds_cases mem with
  | inl live =>
    rw [nextId_update]
    exact (ok.range id live).2.trans_le (Nat.le_add_right _ _)
  | inr fresh => exact fresh.2

theorem namedBoxes_congr {name' : O → ℕ} (same : ∀ o, Seen past o → name' o = name o) :
    past.map (namedBoxes name') = past.map (namedBoxes name) := by
  apply List.map_congr_left
  intro frame mem
  apply List.map_congr_left
  intro d in_frame
  obtain ⟨n, at_n⟩ := List.mem_iff_getElem?.mp mem
  rw [same d.1 ⟨n, d.2, frame, at_n, in_frame⟩]

/-- The names that a frame extends the names so far to. -/
theorem Named.extend (named : Named name t past) (pos : 0 < t.iouThr.1)
    (apart : Distinguishable t.iouThr.1 t.matchMode t.maxAge (past ++ frame :: rest)) :
    ∃ name' : O → ℕ, (∀ o, Seen past o → name' o = name o) ∧
      (frame.map Prod.fst).map name' = t.stampIds (frame.map Prod.snd) ∧
      ∀ o, ¬ Seen past o → o ∈ frame.map Prod.fst → t.nextId ≤ name' o := by
  classical
  have once : (frame.map Prod.fst).Nodup := apart.once frame (by simp)
  have len : (t.stampIds (frame.map Prod.snd)).length = (frame.map Prod.fst).length := by
    rw [length_stampIds, List.length_map, List.length_map]
  obtain ⟨g, ids⟩ := exists_naming once len
  have given : ∀ {di : ℕ} {o : O} {b : Box}, frame[di]? = some (o, b) →
      g o = t.specId (t.matching (frame.map Prod.snd)) di := by
    intro di o b at_di
    have stamped := stampIds_getElem? (t := t) (getElem?_boxes.mpr ⟨o, at_di⟩)
    rw [← ids, List.getElem?_map, List.getElem?_map, at_di] at stamped
    exact Option.some.inj stamped
  have shown : ∀ {o : O}, o ∈ frame.map Prod.fst →
      ∃ (di : ℕ) (b : Box), frame[di]? = some (o, b) := by
    intro o mem
    obtain ⟨d, in_frame, rfl⟩ := List.mem_map.mp mem
    obtain ⟨di, at_di⟩ := List.mem_iff_getElem?.mp in_frame
    exact ⟨di, d.2, at_di⟩
  -- Only the objects of the frame get the names that it calls for.
  obtain ⟨name', now, other⟩ : ∃ name' : O → ℕ, (∀ o ∈ frame.map Prod.fst, name' o = g o) ∧
      ∀ o ∉ frame.map Prod.fst, name' o = name o :=
    ⟨fun o => if o ∈ frame.map Prod.fst then g o else name o, fun _ mem => if_pos mem, fun _ mem => if_neg mem⟩
  refine ⟨name', fun o seen => ?_, ?_, fun o new mem => ?_⟩
  · by_cases mem : o ∈ frame.map Prod.fst
    · obtain ⟨di, b, at_di⟩ := shown mem
      rw [now o mem, given at_di, (named.specId pos apart at_di).1 seen]
    · exact other o mem
  · rw [← ids]
    exact List.map_congr_left now
  · obtain ⟨di, b, at_di⟩ := shown mem
    rw [now o mem, given at_di]
    exact (named.specId pos apart at_di).2 new

theorem Named.update (named : Named name t past) (pos : 0 < t.iouThr.1) (age : 0 ≤ t.maxAge)
    (apart : Distinguishable t.iouThr.1 t.matchMode t.maxAge (past ++ frame :: rest)) :
    ∃ name' : O → ℕ, (∀ o, Seen past o → name' o = name o) ∧
      (t.update (frame.map Prod.snd)).2 = namedBoxes name' frame ∧
      Named name' (t.update (frame.map Prod.snd)).1 (past ++ [frame]) := by
  obtain ⟨name', same, ids, fresh⟩ := named.extend pos apart
  have out : (t.update (frame.map Prod.snd)).2 = namedBoxes name' frame := by
    rw [update_eq_settle, settle, ← ids, List.map_map, List.zipWith_map, List.zipWith_self]
    rfl
  have stamped : ∀ o ∈ frame.map Prod.fst, name' o ∈ t.stampIds (frame.map Prod.snd) := by
    intro o mem
    rw [← ids]
    exact List.mem_map_of_mem mem
  have old : ∀ o, Seen past o → name' o < t.nextId := by
    intro o seen
    rw [same o seen]
    exact named.below o seen
  refine ⟨name', same, out, named.ok.update _, ?_, ?_, ?_⟩
  · rw [List.map_append, namedBoxes_congr same, List.map_singleton, ← out]
    exact named.history.update named.ok age _
  · intro o seen
    cases seen_concat.mp seen with
    | inl before =>
      rw [nextId_update]
      exact (old o before).trans_le (Nat.le_add_right _ _)
    | inr now => exact stampIds_below named.ok (stamped o now)
  · intro o seen o' seen' equal
    have distinct : ((frame.map Prod.fst).map name').Nodup := by
      rw [ids]
      exact stampIds_nodup named.ok _
    by_cases before : Seen past o
    · by_cases before' : Seen past o'
      · exact named.injective before before' (by rw [← same o before, ← same o' before', equal])
      · -- A new object gets an id above those of the old ones.
        have above := fresh o' before' ((seen_concat.mp seen').resolve_left before')
        have below := old o before
        omega
    · have now := (seen_concat.mp seen).resolve_left before
      have above := fresh o before now
      by_cases before' : Seen past o'
      · have below := old o' before'
        omega
      · exact List.inj_on_of_nodup_map distinct now ((seen_concat.mp seen').resolve_left before') equal

/-! ## Runs -/

/-- A run on objects that can be told apart extends the names so far, and stamps every detection with the
    name of its object. -/
theorem Named.run (named : Named name t past) (pos : 0 < t.iouThr.1) (age : 0 ≤ t.maxAge)
    (apart : Distinguishable t.iouThr.1 t.matchMode t.maxAge (past ++ rest)) :
    ∃ name' : O → ℕ, (∀ o, Seen past o → name' o = name o) ∧ Set.InjOn name' {o | Seen (past ++ rest) o} ∧
      outputs t (rest.map fun frame => .update (frame.map Prod.snd)) = rest.map (namedBoxes name') := by
  induction rest generalizing name t past with
  | nil => exact ⟨name, fun _ _ => rfl, by simpa using named.injective, rfl⟩
  | cons frame rest ih =>
    obtain ⟨name₁, same₁, out, next⟩ := named.update pos age apart
    have split : past ++ frame :: rest = past ++ [frame] ++ rest := by simp
    rw [split] at apart ⊢
    have thr : (t.update (frame.map Prod.snd)).1.iouThr = t.iouThr := iouThr_update t _
    have mode : (t.update (frame.map Prod.snd)).1.matchMode = t.matchMode := by simp [update_eq_settle, settle]
    obtain ⟨name', same, injective, outs⟩ := ih next (by rwa [thr]) (by rwa [maxAge_update]) (by
      rwa [thr, mode, maxAge_update])
    refine ⟨name', fun o seen => ?_, injective, ?_⟩
    · rw [same o (seen_concat.mpr (.inl seen)), same₁ o seen]
    · -- The names of this frame do not change any more.
      have kept : namedBoxes name' frame = namedBoxes name₁ frame := by
        apply List.map_congr_left
        intro d mem
        rw [same d.1 (seen_concat.mpr (.inr (List.mem_map_of_mem mem)))]
      simp only [List.map_cons, outputs, Op.apply, outs, out, kept]

theorem named_init (name : O → ℕ) (iouThr : IouThr) (maxAge : ℤ) (matchMode : String) :
    Named name (ByteTrackLite.init iouThr maxAge matchMode) ([] : List (List (O × Box))) where
  ok := idsOk_init iouThr maxAge matchMode
  history := ⟨by simp [ByteTrackLite.init], by simp [ByteTrackLite.init], by simp⟩
  below := by
    rintro o ⟨n, b, frame, none, -⟩
    cases none
  injective := by
    rintro o ⟨n, b, frame, none, -⟩
    cases none

end

/-- Objects that can be told apart keep their ids: with a constant `max_age`, a run of a fresh tracker gives
    every object one id, no two objects the same one, and stamps each detection with that of its object. -/
theorem objects_keep_their_ids (iouThr : IouThr) (pos : 0 < iouThr.1) (maxAge : ℤ) (age : 0 ≤ maxAge)
    (matchMode : String) (frames : List (List (O × Box)))
    (apart : Distinguishable iouThr.1 (normalizeMode matchMode) maxAge frames) :
    ∃ name : O → ℕ, Set.InjOn name {o | Seen frames o} ∧
      outputs (ByteTrackLite.init iouThr maxAge matchMode) (frames.map fun frame => .update (frame.map Prod.snd)) =
        frames.map fun frame => frame.map fun d => d.2.stamp (name d.1) := by
  have start := named_init (fun _ : O => 0) iouThr maxAge matchMode
  obtain ⟨name, -, injective, outs⟩ := @Named.run _ _ _ _ frames start
    (by simpa only [ByteTrackLite.init] using pos) (by simpa only [ByteTrackLite.init] using age)
    (by simpa only [ByteTrackLite.init, List.nil_append] using apart)
  exact ⟨name, by simpa only [List.nil_append] using injective, outs⟩

/-- Half a step to the right of the walker; the two boxes overlap by a third. -/
def companion : Box := walker.move (translate (1 / 20) 0)

/-- Two people side by side, who are then detected in the other order. -/
def companions : List (List (Bool × Box)) := [[(true, walker), (false, companion)], [(false, companion), (true, walker)]]

theorem seen_companions (o : Bool) : Seen companions o :=
  ⟨1, if o then walker else companion, _, rfl, by cases o <;> simp⟩

/-- Each of the two is nearer to themselves. -/
theorem companions_distinguishable : Distinguishable (3 / 10) (normalizeMode "strict") 90 companions := by
  have places : ∀ {n o b m o' b'}, Sighting companions n o b → LastSighting companions n o' m b' →
      n = 1 ∧ m = 0 ∧ (b = if o then walker else companion) ∧ b' = if o' then walker else companion := by
    rintro n o b m o' b' ⟨frame, at_n, mem⟩ ⟨before, ⟨frame', at_m, mem'⟩, -⟩
    have inside : n < 2 := (List.getElem?_eq_some_iff.mp at_n).1
    obtain ⟨rfl, rfl⟩ : n = 1 ∧ m = 0 := by omega
    cases at_n
    cases at_m
    refine ⟨rfl, rfl, ?_, ?_⟩
    · cases o <;> simpa using mem
    · cases o' <;> simpa using mem'
  have last : ∀ o, LastSighting companions 1 o 0 (if o then walker else companion) := by
    intro o
    exact ⟨Nat.zero_lt_one, ⟨_, rfl, by cases o <;> simp⟩, fun k b' later before => by omega⟩
  refine ⟨?_, ?_, ?_⟩
  · intro frame mem
    simp only [companions, List.mem_cons, List.not_mem_nil, or_false] at mem
    obtain rfl | rfl := mem <;> decide
  · intro n o b m b₀ now before
    obtain ⟨rfl, rfl, rfl, rfl⟩ := places now before
    refine ⟨by norm_num, ?_, rfl⟩
    cases o <;> decide +kernel
  · intro n o b o' m' b₀' now before two _ _
    obtain ⟨rfl, rfl, rfl, rfl⟩ := places now before
    refine .inl ⟨0, _, last o, ?_⟩
    cases o <;> cases o' <;> first | exact absurd rfl two | decide +kernel

theorem objects_keep_their_ids_companions :
    ∃ name : Bool → ℕ, name true ≠ name false ∧
      outputs (ByteTrackLite.init ⟨3 / 10, by norm_num⟩ 90 "strict")
          ([[walker, companion], [companion, walker]].map .update) =
        [[walker.stamp (name true), companion.stamp (name false)],
          [companion.stamp (name false), walker.stamp (name true)]] := by
  obtain ⟨name, injective, outs⟩ :=
    objects_keep_their_ids ⟨3 / 10, by norm_num⟩ (by norm_num) 90 (by norm_num) "strict" companions
      companions_distinguishable
  refine ⟨name, fun same => ?_, outs⟩
  exact absurd (injective (seen_companions true) (seen_companions false) same) (by decide)

end VisionNx.Tracker
