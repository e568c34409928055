import VisionNx.Library.Rearrangements
import VisionNx.Tracker.NonInterference
import VisionNx.Tracker.Specification

/-! # The order of the detections

Two trackers get the same detections, each frame in an order of its own.  As long as no
two eligible pairs of the first tracker tie, the matching is decided by the overlaps
alone, which do not depend on the order.  Then the second tracker's tracks are at all
times the first one's in another order and with other ids: `Renames` is this relation, and
its parameter `f` takes the ids of the first tracker to those of the second. -/

namespace VisionNx.Tracker

open GreedyMatching Rearrangements

/-! ## Two runs -/

/-- No two eligible pairs have the same IoU. -/
def ByteTrackLite.Untied (t : ByteTrackLite) (boxes : List Box) : Prop :=
  ∀ di ti di' ti', t.EligiblePair boxes di ti → t.EligiblePair boxes di' ti' →
    t.pairIou boxes di ti = t.pairIou boxes di' ti' → di = di' ∧ ti = ti'

/-- The same call, but with the detections in any order. -/
def Op.Reorders : Op → Op → Prop
  | .update boxes, .update boxes' => boxes.Perm boxes'
  | .setParams maxAge matchMode, .setParams maxAge' matchMode' => maxAge = maxAge' ∧ matchMode = matchMode'
  | _, _ => False

/-- The same call, and detection `i` of the one is detection `σ i` of the other. -/
def Op.Corresponds (σ : Equiv.Perm ℕ) : Op → Op → Prop
  | .update boxes, .update boxes' => Rearranges σ boxes boxes'
  | .setParams maxAge matchMode, .setParams maxAge' matchMode' => maxAge = maxAge' ∧ matchMode = matchMode'
  | _, _ => False

/-- The calls correspond one by one, those at place `n` by `σ n`. -/
def Correspond (σ : ℕ → Equiv.Perm ℕ) (ops ops' : List Op) : Prop :=
  ops.length = ops'.length ∧
    ∀ (n : ℕ) (op op' : Op), ops[n]? = some op → ops'[n]? = some op' → op.Corresponds (σ n) op'

theorem Op.Reorders.exists_corresponds {op op' : Op} (reorders : op.Reorders op') :
    ∃ σ, op.Corresponds σ op' := by
  cases op with
  | update boxes =>
    cases op' with
    | update boxes' => exact exists_rearranges reorders
    | setParams => cases reorders
  | setParams maxAge matchMode =>
    cases op' with
    | update boxes' => cases reorders
    | setParams => exact ⟨Equiv.refl ℕ, reorders⟩

theorem Correspond.nil_left {σ : ℕ → Equiv.Perm ℕ} {ops' : List Op} (corr : Correspond σ [] ops') : ops' = [] :=
  List.length_eq_zero_iff.mp corr.1.symm

theorem Correspond.cons_left {σ : ℕ → Equiv.Perm ℕ} {op : Op} {ops ops' : List Op}
    (corr : Correspond σ (op :: ops) ops') :
    ∃ op' rest, ops' = op' :: rest ∧ op.Corresponds (σ 0) op' ∧ Correspond (fun n => σ (n + 1)) ops rest := by
  obtain ⟨len, calls⟩ := corr
  cases ops' with
  | nil => cases len
  | cons op' rest =>
    refine ⟨op', rest, rfl, calls 0 op op' rfl rfl, by simpa using len, ?_⟩
    intro n o o' here here'
    exact calls (n + 1) o o' here here'

theorem exists_correspond {ops ops' : List Op} (reordered : List.Forall₂ Op.Reorders ops ops') :
    ∃ σ, Correspond σ ops ops' := by
  induction reordered with
  | nil => exact ⟨fun _ => Equiv.refl ℕ, rfl, by simp⟩
  | cons first _ ih =>
    obtain ⟨σ₀, first⟩ := first.exists_corresponds
    obtain ⟨σ, len, rest⟩ := ih
    refine ⟨fun n => Nat.casesOn n σ₀ σ, by simpa using len, ?_⟩
    intro n op op' here here'
    cases n with
    | zero =>
      obtain rfl := Option.some.inj here
      obtain rfl := Option.some.inj here'
      exact first
    | succ n => exact rest n op op' here here'

namespace ByteTrackLite

/-! ## The matching -/

/-- The tracks of `t'` are those of `t`, at other places and with other ids. -/
structure Renames (f : ℕ → ℕ) (t t' : ByteTrackLite) : Prop where
  iouThr : t'.iouThr = t.iouThr
  maxAge : t'.maxAge = t.maxAge
  matchMode : t'.matchMode = t.matchMode
  nextId : t'.nextId = t.nextId
  ok : t.IdsOk
  ok' : t'.IdsOk
  tracks : (t.tracks.map (Track.relabel f)).Perm t'.tracks
  below : ∀ id, id < t.nextId → f id < t'.nextId
  injective : Set.InjOn f {id | id < t.nextId}

section

variable {f : ℕ → ℕ} {t t' : ByteTrackLite} {boxes boxes' : List Box} {σ τ : Equiv.Perm ℕ}

theorem pairIou_rearranged (box_at : Rearranges σ boxes boxes')
    (track_at : Rearranges τ (t.tracks.map (Track.relabel f)) t'.tracks) (di ti : ℕ) :
    t'.pairIou boxes' (σ di) (τ ti) = t.pairIou boxes di ti := by
  have track_at := track_at ti
  rw [List.getElem?_map] at track_at
  simp only [pairIou, iouMatrix, List.getElem?_map, box_at di, track_at, Option.map_map]
  rfl

theorem Renames.eligiblePair_iff (rel : Renames f t t') (box_at : Rearranges σ boxes boxes')
    (track_at : Rearranges τ (t.tracks.map (Track.relabel f)) t'.tracks) (di ti : ℕ) :
    t'.EligiblePair boxes' (σ di) (τ ti) ↔ t.EligiblePair boxes di ti := by
  have track_at := track_at ti
  rw [List.getElem?_map] at track_at
  simp only [EligiblePair, box_at di, track_at, rel.iouThr, rel.matchMode, Option.map_eq_some_iff]
  constructor
  · rintro ⟨b, _, hb, ⟨trk, ht, rfl⟩, pair⟩
    exact ⟨b, trk, hb, ht, pair⟩
  · rintro ⟨b, trk, hb, ht, pair⟩
    exact ⟨b, _, hb, ⟨trk, ht, rfl⟩, pair⟩

/-- Corresponding detections are matched to corresponding tracks. -/
theorem Renames.matching_eq (rel : Renames f t t') (pos : 0 < t.iouThr.1) (untied : t.Untied boxes)
    (box_at : Rearranges σ boxes boxes') (track_at : Rearranges τ (t.tracks.map (Track.relabel f)) t'.tracks)
    (di : ℕ) : t'.matching boxes' (σ di) = (t.matching boxes di).map τ := by
  have pos' : 0 < t'.iouThr.1 := by
    rw [rel.iouThr]
    exact pos
  have iou := pairIou_rearranged box_at track_at
  have called' : IsGreedy (t'.EligiblePair boxes') (Precedes (t'.pairIou boxes'))
      fun di ti => t'.matching boxes' di = some ti := matching_calledFor pos'
  have read : IsGreedy (t.EligiblePair boxes)
      (fun p q => Precedes (t'.pairIou boxes') (σ p.1, τ p.2) (σ q.1, τ q.2))
      fun di ti => t'.matching boxes' (σ di) = some (τ ti) := by
    refine called'.comap σ.injective τ.injective ?_ ?_ ?_ ?_
    · exact fun di ti => (rel.eligiblePair_iff box_at track_at di ti).symm
    · exact fun _ _ _ _ earlier => earlier
    · exact fun _ ti _ => τ.surjective ti
    · exact fun di _ _ => σ.surjective di
  -- Without ties the places do not count, so this is a matching that the first tracker may use.
  have called : t.CalledFor boxes fun di => (t'.matching boxes' (σ di)).map τ.symm := by
    have same : ∀ di ti, (t'.matching boxes' (σ di)).map τ.symm = some ti ↔
        t'.matching boxes' (σ di) = some (τ ti) := by
      intro di ti
      simp [Option.map_eq_some_iff, Equiv.symm_apply_eq]
    have ordered : IsGreedy (t.EligiblePair boxes) (Precedes (t.pairIou boxes))
        fun di ti => t'.matching boxes' (σ di) = some (τ ti) := by
      refine read.congr (fun _ _ => Iff.rfl) ?_
      intro p q eligible_p eligible_q distinct earlier
      simp only [Precedes, iou] at earlier
      cases earlier with
      | inl larger => exact .inl larger
      | inr tie =>
        obtain ⟨first, second⟩ := untied _ _ _ _ eligible_p eligible_q tie.1
        exact absurd (Prod.ext first second) distinct
    simpa only [CalledFor, same] using ordered
  have unique := congrFun (called.unique (matching_calledFor pos)) di
  rw [← unique, Option.map_map]
  simp

/-! ## One update -/

theorem Renames.claimant_eq (rel : Renames f t t') (pos : 0 < t.iouThr.1) (untied : t.Untied boxes)
    (box_at : Rearranges σ boxes boxes') (track_at : Rearranges τ (t.tracks.map (Track.relabel f)) t'.tracks)
    (ti : ℕ) : claimant (t'.matching boxes') (τ ti) 0 boxes' = claimant (t.matching boxes) ti 0 boxes := by
  have matched := rel.matching_eq pos untied box_at track_at
  by_cases held : ∃ di, t.matching boxes di = some ti
  · obtain ⟨di, held⟩ := held
    obtain ⟨b, hb⟩ : ∃ b, boxes[di]? = some b := ⟨_, List.getElem?_eq_getElem (matching_inside held).1⟩
    rw [claimant_of_matched (t.matching_injective boxes) hb (by rwa [Nat.zero_add])]
    apply claimant_of_matched (t'.matching_injective boxes') ((box_at di).trans hb)
    rw [Nat.zero_add, matched, held, Option.map_some]
  · rw [claimant_eq_none fun di here => held ⟨di, here⟩]
    apply claimant_eq_none
    intro di' here
    obtain ⟨di, rfl⟩ := σ.surjective di'
    rw [matched, Option.map_eq_some_iff] at here
    obtain ⟨ti', held', same⟩ := here
    exact held ⟨di, τ.injective same ▸ held'⟩

theorem Renames.survivors (rel : Renames f t t') (pos : 0 < t.iouThr.1) (untied : t.Untied boxes)
    (box_at : Rearranges σ boxes boxes') :
    ((t.survivors boxes).map (Track.relabel f)).Perm (t'.survivors boxes') := by
  obtain ⟨τ, track_at⟩ := exists_rearranges rel.tracks
  have advanced_at : Rearranges τ ((t.advanced boxes).map (Track.relabel f)) (t'.advanced boxes') := by
    intro ti
    rw [advanced, advanced, List.getElem?_mapIdx, track_at, List.getElem?_map, List.getElem?_map,
      List.getElem?_mapIdx, rel.claimant_eq pos untied box_at track_at]
    cases t.tracks[ti]? with
    | none => rfl
    | some trk => simp [Track.relabel_advance]
  have kept := advanced_at.perm.filter fun trk => decide ((trk.timeSinceUpdate : ℤ) ≤ t.maxAge)
  rw [List.filter_map] at kept
  show (((t.advanced boxes).filter _).map (Track.relabel f)).Perm (prune t'.maxAge (t'.advanced boxes'))
  rw [prune, rel.maxAge]
  exact kept

theorem Renames.owners (rel : Renames f t t') (pos : 0 < t.iouThr.1) (untied : t.Untied boxes)
    (box_at : Rearranges σ boxes boxes') :
    Rearranges σ ((t.owners boxes).map (Option.map f)) (t'.owners boxes') := by
  obtain ⟨τ, track_at⟩ := exists_rearranges rel.tracks
  have live_at : ∀ ti, t'.liveIds[τ ti]? = t.liveIds[ti]?.map f := by
    intro ti
    rw [liveIds, liveIds, List.getElem?_map, track_at, List.getElem?_map, List.getElem?_map, Option.map_map,
      Option.map_map]
    rfl
  intro di
  rw [List.getElem?_map, getElem?_owners, getElem?_owners, box_at, rel.matching_eq pos untied box_at track_at]
  cases boxes[di]? with
  | none => rfl
  | some b =>
    cases t.matching boxes di with
    | none => rfl
    | some ti => simp [live_at]

/-- `f`, and for the ids that this update gives out what the second tracker gives out in their place. -/
def extended (f : ℕ → ℕ) (σ : Equiv.Perm ℕ) (t t' : ByteTrackLite) (boxes boxes' : List Box) (id : ℕ) : ℕ :=
  if id < t.nextId then f id else ((t'.stampIds boxes')[σ ((t.stampIds boxes).idxOf id)]?).getD 0

theorem extended_old {id : ℕ} (old : id < t.nextId) : extended f σ t t' boxes boxes' id = f id :=
  if_pos old

theorem Renames.extended_fresh (rel : Renames f t t') (box_at : Rearranges σ boxes boxes') {di id : ℕ}
    (stamped : (t.stampIds boxes)[di]? = some id) (fresh : t.nextId ≤ id) :
    (t'.stampIds boxes')[σ di]? = some (extended f σ t t' boxes boxes' id) := by
  obtain ⟨inside, rfl⟩ := List.getElem?_eq_some_iff.mp stamped
  have place : (t.stampIds boxes).idxOf (t.stampIds boxes)[di] = di :=
    (stampIds_nodup rel.ok boxes).idxOf_getElem di inside
  have inside' : σ di < (t'.stampIds boxes').length := by
    rw [length_stampIds, box_at.lt_length_iff, ← length_stampIds t]
    exact inside
  rw [extended, if_neg (not_lt.mpr fresh), place, List.getElem?_eq_getElem inside', Option.getD_some]

/-- What is on a detection: the id that it takes over or the next one. -/
theorem getElem?_stampIds (di : ℕ) :
    (t.stampIds boxes)[di]? =
      (t.owners boxes)[di]?.map fun o => o.getD (t.nextId + ((t.owners boxes).take di).count none) :=
  getElem?_fillFresh _ _ _

theorem Renames.stampIds (rel : Renames f t t') (pos : 0 < t.iouThr.1) (untied : t.Untied boxes)
    (box_at : Rearranges σ boxes boxes') :
    Rearranges σ ((t.stampIds boxes).map (extended f σ t t' boxes boxes')) (t'.stampIds boxes') := by
  intro di
  have own := rel.owners pos untied box_at di
  have here := @getElem?_stampIds t boxes di
  rw [List.getElem?_map] at own ⊢
  cases owner : (t.owners boxes)[di]? with
  | none =>
    rw [owner, Option.map_none] at own here
    rw [here, getElem?_stampIds, own]
    rfl
  | some o =>
    rw [owner, Option.map_some] at own here
    cases o with
    | none =>
      rw [rel.extended_fresh box_at here (Nat.le_add_right _ _), here, Option.map_some]
    | some id =>
      have live : id ∈ t.liveIds := owners_live (List.reduceOption_mem_iff.mpr (List.mem_of_getElem? owner))
      rw [here, getElem?_stampIds, own, Option.map_some, Option.map_some]
      simp [extended_old (rel.ok.range id live).2]

/-- The track that a detection opens, given its owner and its id. -/
def opened (z : (Box × Option ℕ) × ℕ) : Option Track :=
  if z.1.2.isNone then some (Track.new z.2 z.1.1.xyxy z.1.1.getCls) else none

theorem births_eq_filterMap {next : ℕ} {own : List (Option ℕ)} {bs : List Box} (len : own.length = bs.length) :
    births next own bs = ((bs.zip own).zip (fillFresh next own)).filterMap opened := by
  induction own generalizing next bs with
  | nil => cases bs <;> rfl
  | cons o own ih =>
    cases bs with
    | nil => cases len
    | cons b bs =>
      have tail := fun next => @ih next bs (by simpa using len)
      cases o <;> simp [births, fillFresh, tail, opened]

theorem births_eq_opened (t : ByteTrackLite) (boxes : List Box) :
    births t.nextId (t.owners boxes) boxes =
      ((boxes.zip (t.owners boxes)).zip (t.stampIds boxes)).filterMap opened :=
  births_eq_filterMap (t.length_owners boxes)

theorem Renames.births (rel : Renames f t t') (pos : 0 < t.iouThr.1) (untied : t.Untied boxes)
    (box_at : Rearranges σ boxes boxes') :
    ((births t.nextId (t.owners boxes) boxes).map (Track.relabel (extended f σ t t' boxes boxes'))).Perm
      (births t'.nextId (t'.owners boxes') boxes') := by
  have stamped_at := (box_at.zip (rel.owners pos untied box_at)).zip (rel.stampIds pos untied box_at)
  have new := stamped_at.perm.filterMap opened
  have read : ((boxes.zip ((t.owners boxes).map (Option.map f))).zip
        ((t.stampIds boxes).map (extended f σ t t' boxes boxes'))) =
      ((boxes.zip (t.owners boxes)).zip (t.stampIds boxes)).map
        (Prod.map (Prod.map id (Option.map f)) (extended f σ t t' boxes boxes')) := by
    rw [← List.zip_map, ← List.zip_map, List.map_id]
  have relabeled : ∀ z, opened (Prod.map (Prod.map id (Option.map f)) (extended f σ t t' boxes boxes') z) =
      (opened z).map (Track.relabel (extended f σ t t' boxes boxes')) := by
    rintro ⟨⟨b, o⟩, id⟩
    cases o <;> rfl
  rw [births_eq_opened, births_eq_opened, List.map_filterMap]
  rw [read, List.filterMap_map] at new
  simpa only [Function.comp_def, relabeled] using new

theorem Renames.count_none (rel : Renames f t t') (pos : 0 < t.iouThr.1) (untied : t.Untied boxes)
    (box_at : Rearranges σ boxes boxes') : (t'.owners boxes').count none = (t.owners boxes).count none := by
  rw [← (rel.owners pos untied box_at).perm.count_eq, List.count_eq_countP, List.countP_map, List.count_eq_countP]
  apply List.countP_congr
  intro o _
  cases o <;> simp

/-- An id from the counter's range is on some detection, and what it is taken to is from that range too. -/
theorem Renames.fresh_at (rel : Renames f t t') (pos : 0 < t.iouThr.1) (untied : t.Untied boxes)
    (box_at : Rearranges σ boxes boxes') {id : ℕ} (fresh : t.nextId ≤ id) (issued : id < (t.update boxes).1.nextId) :
    ∃ di, (t.stampIds boxes)[di]? = some id ∧
      (t'.stampIds boxes')[σ di]? = some (extended f σ t t' boxes boxes' id) ∧
      t'.nextId ≤ extended f σ t t' boxes boxes' id ∧
      extended f σ t t' boxes boxes' id < (t'.update boxes').1.nextId := by
  have stamped : id ∈ t.stampIds boxes := by
    have range := stampIds_fresh rel.ok boxes
    rw [nextId_update] at issued
    exact List.mem_of_mem_filter (range ▸ List.mem_range'_1.mpr ⟨fresh, issued⟩)
  obtain ⟨di, here⟩ := List.mem_iff_getElem?.mp stamped
  have there := rel.extended_fresh box_at here fresh
  refine ⟨di, here, there, ?_⟩
  -- Had the second tracker's detection an owner, so had the first one's, and its id were an old one.
  have own := rel.owners pos untied box_at di
  have read := @getElem?_stampIds t boxes di
  have read' := @getElem?_stampIds t' boxes' (σ di)
  rw [here] at read
  rw [there] at read'
  obtain ⟨o, owner, value⟩ := Option.map_eq_some_iff.mp read.symm
  rw [List.getElem?_map, owner, Option.map_some] at own
  cases o with
  | some old =>
    have live : old ∈ t.liveIds := owners_live (List.reduceOption_mem_iff.mpr (List.mem_of_getElem? owner))
    obtain rfl : old = id := value
    exact absurd (rel.ok.range old live).2 (not_lt.mpr fresh)
  | none =>
    rw [own, Option.map_some, Option.some.injEq] at read'
    have bound : extended f σ t t' boxes boxes' id < (t'.update boxes').1.nextId := by
      cases stampIds_cases (List.mem_of_getElem? there) with
      | inl live =>
        have := (rel.ok'.range _ live).2
        simp at this ⊢
        omega
      | inr range => exact range.2
    exact ⟨read' ▸ Nat.le_add_right _ _, bound⟩

theorem Renames.tracks_update (rel : Renames f t t') (pos : 0 < t.iouThr.1) (untied : t.Untied boxes)
    (box_at : Rearranges σ boxes boxes') :
    ((t.update boxes).1.tracks.map (Track.relabel (extended f σ t t' boxes boxes'))).Perm
      (t'.update boxes').1.tracks := by
  have old : (t.survivors boxes).map (Track.relabel (extended f σ t t' boxes boxes')) =
      (t.survivors boxes).map (Track.relabel f) := by
    apply List.map_congr_left
    intro trk mem
    have live := (t.survivors_ids_sublist boxes).subset (List.mem_map_of_mem mem)
    rw [Track.relabel, Track.relabel, extended_old (rel.ok.range _ live).2]
  rw [update_eq_settle, update_eq_settle, settle, settle, List.map_append, old]
  exact (rel.survivors pos untied box_at).append (rel.births pos untied box_at)

theorem Renames.injective_update (rel : Renames f t t') (pos : 0 < t.iouThr.1) (untied : t.Untied boxes)
    (box_at : Rearranges σ boxes boxes') :
    Set.InjOn (extended f σ t t' boxes boxes') {id | id < (t.update boxes).1.nextId} := by
  -- An old id is taken below the second tracker's counter, a new one is not.
  have apart : ∀ {id id'}, id < t.nextId → t.nextId ≤ id' → id' < (t.update boxes).1.nextId →
      extended f σ t t' boxes boxes' id ≠ extended f σ t t' boxes boxes' id' := by
    intro id id' old fresh issued same
    obtain ⟨_, _, _, high, _⟩ := rel.fresh_at pos untied box_at fresh issued
    rw [← same, extended_old old] at high
    exact absurd (rel.below id old) (not_lt.mpr high)
  intro id issued id' issued' same
  cases lt_or_ge id t.nextId with
  | inl old =>
    cases lt_or_ge id' t.nextId with
    | inl old' =>
      rw [extended_old old, extended_old old'] at same
      exact rel.injective old old' same
    | inr fresh' => exact absurd same (apart old fresh' issued')
  | inr fresh =>
    cases lt_or_ge id' t.nextId with
    | inl old' => exact absurd same.symm (apart old' fresh issued)
    | inr fresh' =>
      obtain ⟨di, here, there, _⟩ := rel.fresh_at pos untied box_at fresh issued
      obtain ⟨di', here', there', _⟩ := rel.fresh_at pos untied box_at fresh' issued'
      rw [← same] at there'
      have inside := (List.getElem?_eq_some_iff.mp there).1
      have place := (List.getElem?_inj inside (stampIds_nodup rel.ok' boxes')).mp (there.trans there'.symm)
      rw [σ.injective place] at here
      exact Option.some.inj (here.symm.trans here')

theorem Renames.update (rel : Renames f t t') (pos : 0 < t.iouThr.1) (untied : t.Untied boxes)
    (box_at : Rearranges σ boxes boxes') :
    Renames (extended f σ t t' boxes boxes') (t.update boxes).1 (t'.update boxes').1 where
  iouThr := by simp [update_eq_settle, settle, rel.iouThr]
  maxAge := by simp [rel.maxAge]
  matchMode := by simp [rel.matchMode]
  nextId := by rw [nextId_update, nextId_update, rel.nextId, rel.count_none pos untied box_at]
  ok := rel.ok.update boxes
  ok' := rel.ok'.update boxes'
  tracks := rel.tracks_update pos untied box_at
  below := by
    intro id issued
    cases lt_or_ge id t.nextId with
    | inl old =>
      rw [extended_old old, nextId_update]
      exact (rel.below id old).trans_le (Nat.le_add_right _ _)
    | inr fresh =>
      obtain ⟨_, _, _, _, bound⟩ := rel.fresh_at pos untied box_at fresh issued
      exact bound
  injective := rel.injective_update pos untied box_at

theorem Renames.output (rel : Renames f t t') (pos : 0 < t.iouThr.1) (untied : t.Untied boxes)
    (box_at : Rearranges σ boxes boxes') :
    Rearranges σ ((t.update boxes).2.map (Box.relabel (extended f σ t t' boxes boxes')))
      (t'.update boxes').2 := by
  intro di
  have stamped := rel.stampIds pos untied box_at di
  rw [List.getElem?_map] at stamped
  rw [update_eq_settle, update_eq_settle, settle, settle, List.getElem?_map, List.getElem?_zipWith,
    List.getElem?_zipWith, box_at, stamped]
  cases boxes[di]? with
  | none => rfl
  | some b => cases (t.stampIds boxes)[di]? <;> rfl

end

end ByteTrackLite

/-! ## Whole runs -/

open ByteTrackLite

/-- The boxes that the calls at place `n` return correspond by `σ n`, up to the renaming of their ids. -/
def OutputsCorrespond (σ : ℕ → Equiv.Perm ℕ) (f : ℕ → ℕ) (outs outs' : List (List Box)) : Prop :=
  outs.length = outs'.length ∧ ∀ (n : ℕ) (out out' : List Box), outs[n]? = some out → outs'[n]? = some out' →
    Rearranges (σ n) (out.map (Box.relabel f)) out'

theorem OutputsCorrespond.cons {σ : ℕ → Equiv.Perm ℕ} {f : ℕ → ℕ} {out out' : List Box}
    {outs outs' : List (List Box)} (first : Rearranges (σ 0) (out.map (Box.relabel f)) out')
    (rest : OutputsCorrespond (fun n => σ (n + 1)) f outs outs') :
    OutputsCorrespond σ f (out :: outs) (out' :: outs') := by
  refine ⟨congrArg (· + 1) rest.1, fun n o o' here here' => ?_⟩
  cases n with
  | zero =>
    obtain rfl := Option.some.inj here
    obtain rfl := Option.some.inj here'
    exact first
  | succ n => exact rest.2 n o o' here here'

theorem iouThr_apply (t : ByteTrackLite) (op : Op) : (op.apply t).1.iouThr = t.iouThr := by
  cases op with
  | update boxes => simp [Op.apply, update_eq_settle, settle]
  | setParams => rfl

/-- One call of both trackers. -/
theorem ByteTrackLite.Renames.apply {f : ℕ → ℕ} {t t' : ByteTrackLite} (rel : Renames f t t')
    (pos : 0 < t.iouThr.1) {σ : Equiv.Perm ℕ} {op op' : Op} (corr : op.Corresponds σ op')
    (untied : ∀ boxes, op = .update boxes → t.Untied boxes) :
    ∃ f', (∀ id, id < t.nextId → f' id = f id) ∧ Renames f' (op.apply t).1 (op'.apply t').1 ∧
      Rearranges σ ((op.apply t).2.map (Box.relabel f')) (op'.apply t').2 := by
  cases op with
  | update boxes =>
    cases op' with
    | setParams => cases corr
    | update boxes' =>
      have untied := untied boxes rfl
      exact ⟨_, fun _ => extended_old, rel.update pos untied corr, rel.output pos untied corr⟩
  | setParams maxAge matchMode =>
    cases op' with
    | update boxes' => cases corr
    | setParams =>
      obtain ⟨rfl, rfl⟩ := corr
      refine ⟨f, fun _ _ => rfl, ⟨rel.iouThr, ?_, ?_, rel.nextId, ?_, ?_, rel.tracks, rel.below, rel.injective⟩,
        fun _ => rfl⟩
      · simp [Op.apply, setParams, rel.maxAge]
      · simp [Op.apply, setParams, rel.matchMode]
      · exact ⟨rel.ok.next_pos, rel.ok.distinct, rel.ok.range⟩
      · exact ⟨rel.ok'.next_pos, rel.ok'.distinct, rel.ok'.range⟩

theorem ByteTrackLite.Renames.run {f : ℕ → ℕ} {t t' : ByteTrackLite} (rel : Renames f t t')
    (pos : 0 < t.iouThr.1) {σ : ℕ → Equiv.Perm ℕ} {ops ops' : List Op} (corr : Correspond σ ops ops')
    (untied : ∀ pre boxes post, ops = pre ++ .update boxes :: post → (exec t pre).Untied boxes) :
    ∃ f', (∀ id, id < t.nextId → f' id = f id) ∧ Renames f' (exec t ops) (exec t' ops') ∧
      OutputsCorrespond σ f' (outputs t ops) (outputs t' ops') := by
  induction ops generalizing f t t' σ ops' with
  | nil =>
    obtain rfl := corr.nil_left
    exact ⟨f, fun _ _ => rfl, rel, rfl, by simp [outputs]⟩
  | cons op ops ih =>
    obtain ⟨op', ops', rfl, first, rest⟩ := corr.cons_left
    have untied_here : ∀ boxes, op = .update boxes → t.Untied boxes := by
      rintro boxes rfl
      exact untied [] boxes ops rfl
    obtain ⟨f₁, agree, rel₁, out⟩ := rel.apply pos first untied_here
    have untied_later : ∀ pre boxes post, ops = pre ++ .update boxes :: post →
        (exec (op.apply t).1 pre).Untied boxes := by
      rintro pre boxes post rfl
      exact untied (op :: pre) boxes post rfl
    have pos₁ : 0 < (op.apply t).1.iouThr.1 := by
      rw [iouThr_apply]
      exact pos
    obtain ⟨f₂, agree₂, rel₂, outs⟩ := ih rel₁ pos₁ rest untied_later
    have grows : t.nextId ≤ (op.apply t).1.nextId := nextId_exec_le t [op]
    refine ⟨f₂, fun id old => (agree₂ id (old.trans_le grows)).trans (agree id old), rel₂, outs.cons ?_⟩
    -- What this call stamped is below the counter, where the renaming no longer changes.
    have same : (op.apply t).2.map (Box.relabel f₂) = (op.apply t).2.map (Box.relabel f₁) := by
      apply List.map_congr_left
      intro b mem
      cases has_id : b.trackId with
      | none => simp [Box.relabel, has_id]
      | some id =>
        have below : id < (op.apply t).1.nextId :=
          @outputs_below t rel.ok [op] _ id List.mem_cons_self (mem_trackIds mem has_id)
        simp [Box.relabel, has_id, agree₂ id below]
    rw [same]
    exact out

theorem renames_init (iouThr : IouThr) (maxAge : ℤ) (matchMode : String) :
    Renames id (ByteTrackLite.init iouThr maxAge matchMode) (ByteTrackLite.init iouThr maxAge matchMode) where
  iouThr := rfl
  maxAge := rfl
  matchMode := rfl
  nextId := rfl
  ok := idsOk_init iouThr maxAge matchMode
  ok' := idsOk_init iouThr maxAge matchMode
  tracks := by simp [ByteTrackLite.init]
  below _ old := old
  injective := Function.injective_id.injOn

/-- Corresponding boxes carry corresponding ids, so each run's ids are the renamed ids of the other. -/
theorem OutputsCorrespond.image {σ : ℕ → Equiv.Perm ℕ} {f : ℕ → ℕ} {outs outs' : List (List Box)}
    (corr : OutputsCorrespond σ f outs outs') :
    f '' {id | ∃ out ∈ outs, id ∈ trackIds out} = {id | ∃ out ∈ outs', id ∈ trackIds out} := by
  ext id'
  constructor
  · rintro ⟨id, ⟨out, mem, stamped⟩, rfl⟩
    obtain ⟨n, here⟩ := List.mem_iff_getElem?.mp mem
    have inside := (List.getElem?_eq_some_iff.mp here).1
    rw [corr.1] at inside
    have there := List.getElem?_eq_getElem inside
    obtain ⟨b, in_out, has_id⟩ := List.mem_filterMap.mp stamped
    have renamed : (b.relabel f).trackId = some (f id) := congrArg (Option.map f) has_id
    refine ⟨_, List.mem_of_getElem? there, mem_trackIds ?_ renamed⟩
    exact (corr.2 n _ _ here there).perm.mem_iff.mp (List.mem_map_of_mem in_out)
  · rintro ⟨out', mem, stamped⟩
    obtain ⟨n, there⟩ := List.mem_iff_getElem?.mp mem
    have inside := (List.getElem?_eq_some_iff.mp there).1
    rw [← corr.1] at inside
    have here := List.getElem?_eq_getElem inside
    obtain ⟨b', in_out', renamed⟩ := List.mem_filterMap.mp stamped
    obtain ⟨b, in_out, rfl⟩ := List.mem_map.mp ((corr.2 n _ _ here there).perm.mem_iff.mpr in_out')
    obtain ⟨id, has_id, rfl⟩ := Option.map_eq_some_iff.mp renamed
    exact ⟨id, ⟨_, List.mem_of_getElem? here, mem_trackIds in_out has_id⟩, rfl⟩

/-- Two runs of a fresh tracker that differ in the order of the detections alone.  If the first run
    has no ties, then whichever detections of the two runs are taken to correspond, there is a bijection
    between their ids under which corresponding detections carry corresponding ids. -/
theorem order_independence (iouThr : IouThr) (pos : 0 < iouThr.1) (maxAge : ℤ) (matchMode : String)
    (ops ops' : List Op) (reordered : List.Forall₂ Op.Reorders ops ops')
    (untied : ∀ pre boxes post, ops = pre ++ .update boxes :: post →
      (exec (ByteTrackLite.init iouThr maxAge matchMode) pre).Untied boxes) :
    let t₀ := ByteTrackLite.init iouThr maxAge matchMode
    let outs := outputs t₀ ops
    let outs' := outputs t₀ ops'
    (∃ σ, Correspond σ ops ops') ∧
    ∀ σ, Correspond σ ops ops' → ∃ f : ℕ → ℕ,
      Set.BijOn f {id | ∃ out ∈ outs, id ∈ trackIds out} {id | ∃ out ∈ outs', id ∈ trackIds out} ∧
      OutputsCorrespond σ f outs outs' := by
  intro t₀ outs outs'
  refine ⟨exists_correspond reordered, fun σ corr => ?_⟩
  obtain ⟨f, -, rel, corr'⟩ := (renames_init iouThr maxAge matchMode).run pos corr untied
  have injective : Set.InjOn f {id | ∃ out ∈ outs, id ∈ trackIds out} := by
    apply rel.injective.mono
    rintro id ⟨out, mem, stamped⟩
    exact outputs_below (idsOk_init iouThr maxAge matchMode) mem stamped
  refine ⟨f, ?_, corr'⟩
  have image := injective.bijOn_image
  rwa [corr'.image] at image

/-- A walker and a van that come in the other order in the first frame swap their ids. -/
theorem order_independence_swapped :
    let t₀ := ByteTrackLite.init ⟨3 / 10, by norm_num⟩ 90 "strict"
    ∃ f : ℕ → ℕ, f 1 = 2 ∧ f 2 = 1 ∧
      outputs t₀ ([[walker, van], [van]].map .update) = [[walker.stamp 1, van.stamp 2], [van.stamp 2]] ∧
      outputs t₀ ([[van, walker], [van]].map .update) = [[van.stamp 1, walker.stamp 2], [van.stamp 1]] := by
  intro t₀
  have run : outputs t₀ ([[walker, van], [van]].map .update) = [[walker.stamp 1, van.stamp 2], [van.stamp 2]] := by
    rw [show t₀ = ByteTrackLite.init ⟨3 / 10, by norm_num⟩ 90 "strict" from rfl]
    decide +kernel
  have run' : outputs t₀ ([[van, walker], [van]].map .update) = [[van.stamp 1, walker.stamp 2], [van.stamp 1]] := by
    rw [show t₀ = ByteTrackLite.init ⟨3 / 10, by norm_num⟩ 90 "strict" from rfl]
    decide +kernel
  have untied : ∀ pre boxes post, [[walker, van], [van]].map Op.update = pre ++ .update boxes :: post →
      (exec t₀ pre).Untied boxes := by
    intro pre boxes post split
    cases pre with
    | nil =>
      rintro di ti di' ti' ⟨b, trk, _, none, _⟩
      cases none
    | cons op pre =>
      cases pre with
      | nil =>
        obtain ⟨rfl, rest⟩ := List.cons.inj split
        obtain ⟨rfl, -⟩ : boxes = [van] ∧ post = [] := by simpa [eq_comm] using rest
        have tracks : (exec t₀ [.update [walker, van]]).tracks =
            [Track.new 1 walker.xyxy 0, Track.new 2 van.xyxy 7] := by
          rw [show t₀ = ByteTrackLite.init ⟨3 / 10, by norm_num⟩ 90 "strict" from rfl]
          decide +kernel
        have only : ∀ di ti, (exec t₀ [.update [walker, van]]).EligiblePair [van] di ti → di = 0 ∧ ti = 1 := by
          rintro di ti ⟨b, trk, hb, ht, -, alike⟩
          have hdi := (List.getElem?_eq_some_iff.mp hb).1
          obtain rfl : di = 0 := by simpa using hdi
          obtain rfl : van = b := by simpa using hb
          rw [tracks] at ht
          refine ⟨rfl, ?_⟩
          match ti with
          | 0 =>
            obtain rfl : Track.new 1 walker.xyxy 0 = trk := by simpa using ht
            exact absurd alike (by decide +kernel)
          | 1 => rfl
          | _ + 2 => simp at ht
        intro di ti di' ti' eligible eligible' _
        obtain ⟨rfl, rfl⟩ := only di ti eligible
        obtain ⟨rfl, rfl⟩ := only di' ti' eligible'
        exact ⟨rfl, rfl⟩
      | cons op' pre => simp at split
  have reordered : List.Forall₂ Op.Reorders ([[walker, van], [van]].map .update)
      ([[van, walker], [van]].map .update) :=
    .cons (List.Perm.swap van walker []) (.cons (List.Perm.refl [van]) .nil)
  obtain ⟨⟨σ, corr⟩, bijection⟩ := order_independence ⟨3 / 10, by norm_num⟩ (by decide +kernel) 90 "strict" _ _
    reordered untied
  obtain ⟨f, -, same⟩ := bijection σ corr
  rw [run, run'] at same
  have second := (same.2 1 _ _ rfl rfl).perm
  have first := (same.2 0 _ _ rfl rfl).perm
  have of_van : f 2 = 1 := by simpa [Box.relabel, Box.stamp] using second
  refine ⟨f, ?_, of_van, run, run'⟩
  have of_walker := first.mem_iff.mp (List.mem_cons_self)
  have apart : walker.stamp (f 1) ≠ van.stamp 1 := by
    intro same
    have classes := congrArg Box.cls same
    rw [Box.stamp_cls, Box.stamp_cls] at classes
    exact absurd classes (by decide)
  have stamps : walker.stamp (f 1) = walker.stamp 2 := by
    simpa [Box.relabel_stamp, apart] using of_walker
  have ids := congrArg Box.trackId stamps
  rw [Box.stamp_trackId, Box.stamp_trackId] at ids
  exact Option.some.inj ids

end VisionNx.Tracker
