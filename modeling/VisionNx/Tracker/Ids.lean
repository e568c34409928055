import Mathlib.Data.List.ReduceOption
import VisionNx.Tracker.Update

/-! # Track ids over a run

A run of one tracker interleaves `update` with `set_params`.  `IdsOk` is the invariant
of its states: live ids are distinct, positive and below `_next_id`.  Ids are never
given out twice because a fresh one is taken from the counter and an old one from a
live track.
-/

namespace VisionNx.Tracker

/-! ## Runs -/

inductive Op where
  | update (boxes : List Box)
  | setParams (maxAge : Option ℤ) (matchMode : Option String)

/-- The tracker after a call, and the boxes it returns. -/
def Op.apply (t : ByteTrackLite) : Op → ByteTrackLite × List Box
  | .update boxes => t.update boxes
  | .setParams maxAge matchMode => (t.setParams none maxAge matchMode, [])

def exec (t : ByteTrackLite) : List Op → ByteTrackLite
  | [] => t
  | op :: ops => exec (op.apply t).1 ops

/-- The boxes that each call of a run returns. -/
def outputs (t : ByteTrackLite) : List Op → List (List Box)
  | [] => []
  | op :: ops => (op.apply t).2 :: outputs (op.apply t).1 ops

def trackIds (boxes : List Box) : List ℕ := boxes.filterMap (·.trackId)

/-- The id of a track that was live during the run and is not live at its end. -/
def Pruned (t : ByteTrackLite) (ops : List Op) (id : ℕ) : Prop :=
  ∃ earlier later, ops = earlier ++ later ∧ id ∈ (exec t earlier).liveIds ∧ id ∉ (exec t ops).liveIds

theorem exec_append (t : ByteTrackLite) (ops ops' : List Op) :
    exec t (ops ++ ops') = exec (exec t ops) ops' := by
  induction ops generalizing t with
  | nil => rfl
  | cons op ops ih => exact ih _

/-! ## Numbering the gaps -/

theorem mem_fillFresh {next id : ℕ} {own : List (Option ℕ)} (mem : id ∈ fillFresh next own) :
    id ∈ own.reduceOption ∨ next ≤ id ∧ id < next + own.count none := by
  induction own generalizing next with
  | nil => cases mem
  | cons o own ih =>
    cases o with
    | some i =>
      obtain rfl | mem := List.mem_cons.mp mem
      · exact .inl (by simp)
      · cases ih mem with
        | inl old => exact .inl (by simp_all)
        | inr fresh => exact .inr (by simpa using fresh)
    | none =>
      simp only [List.count_cons_self, List.reduceOption_cons_of_none]
      obtain rfl | mem := List.mem_cons.mp mem
      · exact .inr (by omega)
      · cases ih mem with
        | inl old => exact .inl old
        | inr fresh => exact .inr (by omega)

theorem fillFresh_nodup {next : ℕ} {own : List (Option ℕ)}
    (distinct : own.reduceOption.Nodup) (below : ∀ i ∈ own.reduceOption, i < next) :
    (fillFresh next own).Nodup := by
  induction own generalizing next with
  | nil => exact List.nodup_nil
  | cons o own ih =>
    cases o with
    | some i =>
      simp only [List.reduceOption_cons_of_some, List.nodup_cons, List.mem_cons, forall_eq_or_imp]
        at distinct below
      -- A kept id is below `next`, so no gap gets it.
      refine List.nodup_cons.mpr ⟨fun mem => ?_, ih distinct.2 below.2⟩
      cases mem_fillFresh mem with
      | inl old => exact distinct.1 old
      | inr fresh => omega
    | none =>
      simp only [List.reduceOption_cons_of_none] at distinct below
      refine List.nodup_cons.mpr ⟨fun mem => ?_,
        ih distinct fun i mem => (below i mem).trans (Nat.lt_succ_self _)⟩
      cases mem_fillFresh mem with
      | inl old => exact lt_irrefl _ (below next old)
      | inr fresh => omega

theorem filter_fillFresh {next : ℕ} {own : List (Option ℕ)} {old : ℕ → Bool}
    (kept : ∀ i ∈ own.reduceOption, old i = true) (fresh : ∀ i, next ≤ i → old i = false) :
    (fillFresh next own).filter (fun i => !old i) = List.range' next (own.count none) := by
  induction own generalizing next with
  | nil => rfl
  | cons o own ih =>
    cases o with
    | some i =>
      simp only [List.reduceOption_cons_of_some, List.mem_cons, forall_eq_or_imp] at kept
      simpa [fillFresh, kept.1] using ih kept.2 fresh
    | none =>
      simp only [List.reduceOption_cons_of_none] at kept
      simp only [fillFresh, fresh next le_rfl, Bool.not_false, List.filter_cons_of_pos,
        List.count_cons_self, List.range'_succ]
      rw [ih kept fun i hi => fresh i (by omega)]

theorem births_ids {next : ℕ} {own : List (Option ℕ)} {bs : List Box} (len : own.length = bs.length) :
    (births next own bs).map (·.id) = List.range' next (own.count none) := by
  induction own generalizing next bs with
  | nil => cases bs <;> simp [births]
  | cons o own ih =>
    cases bs with
    | nil => simp at len
    | cons b bs =>
      simp only [List.length_cons, Nat.add_right_cancel_iff] at len
      cases o with
      | some i => simpa [births] using ih len
      | none => simp [births, ih len, Track.new, List.range'_succ]

theorem trackIds_stamped {boxes : List Box} {ids : List ℕ} (len : ids.length = boxes.length) :
    trackIds (List.zipWith Box.stamp boxes ids) = ids := by
  induction boxes generalizing ids with
  | nil => simpa [trackIds, eq_comm] using len
  | cons b bs ih =>
    cases ids with
    | nil => simp at len
    | cons id ids => simpa [trackIds] using ih (by simpa using len)

/-- A box without its track id. -/
def Box.untracked (b : Box) : Box := { b with trackId := none }

theorem untracked_stamped {boxes : List Box} {ids : List ℕ} (len : ids.length = boxes.length) :
    (List.zipWith Box.stamp boxes ids).map Box.untracked = boxes.map Box.untracked := by
  induction boxes generalizing ids with
  | nil => rfl
  | cons b bs ih =>
    cases ids with
    | nil => simp at len
    | cons id ids =>
      rw [List.zipWith_cons_cons, List.map_cons, List.map_cons, ih (by simpa using len)]
      rfl

namespace ByteTrackLite

/-! ## One update -/

structure IdsOk (t : ByteTrackLite) : Prop where
  next_pos : 1 ≤ t.nextId
  distinct : t.liveIds.Nodup
  range : ∀ id ∈ t.liveIds, 1 ≤ id ∧ id < t.nextId

theorem length_owners (t : ByteTrackLite) (boxes : List Box) :
    (t.owners boxes).length = boxes.length := by
  simp [owners]

theorem length_stampIds (t : ByteTrackLite) (boxes : List Box) :
    (t.stampIds boxes).length = boxes.length := by
  simp [stampIds, owners]

theorem matching_injective (t : ByteTrackLite) (boxes : List Box) (i i' j : ℕ)
    (held : t.matching boxes i = some j) (held' : t.matching boxes i' = some j) : i = i' :=
  (t.matching_greedy boxes).right_unique held held'

theorem owners_live {t : ByteTrackLite} {boxes : List Box} {id : ℕ}
    (mem : id ∈ (t.owners boxes).reduceOption) : id ∈ t.liveIds := by
  simp only [owners, ownIds, List.reduceOption_mem_iff, List.mem_map] at mem
  obtain ⟨i, _, found⟩ := mem
  obtain ⟨ti, _, at_ti⟩ := Option.bind_eq_some_iff.mp found
  exact List.mem_of_getElem? at_ti

theorem owners_distinct {t : ByteTrackLite} (ok : t.IdsOk) (boxes : List Box) :
    (t.owners boxes).reduceOption.Nodup := by
  simp only [owners, ownIds, List.reduceOption, List.filterMap_map]
  refine List.Nodup.filterMap ?_ List.nodup_range'
  intro i i' id found found'
  obtain ⟨ti, held, at_ti⟩ := Option.bind_eq_some_iff.mp found
  obtain ⟨ti', held', at_ti'⟩ := Option.bind_eq_some_iff.mp found'
  have bound := (List.getElem?_eq_some_iff.mp at_ti).1
  -- Distinct tracks have distinct ids, and the matching is injective.
  have same : ti = ti' := (List.getElem?_inj bound ok.distinct).mp (at_ti.trans at_ti'.symm)
  exact t.matching_injective boxes i i' ti held (same ▸ held')

theorem survivors_ids_sublist (t : ByteTrackLite) (boxes : List Box) :
    List.Sublist ((t.survivors boxes).map (·.id)) t.liveIds := by
  have sub : List.Sublist (t.survivors boxes) _ := List.filter_sublist
  have ids := sub.map (·.id)
  -- Neither refreshing nor ageing changes an id.
  have kept : (t.tracks.mapIdx fun ti trk =>
      trk.advance (claimant (t.matching boxes) ti 0 boxes)).map (·.id) = t.liveIds := by
    apply List.ext_getElem?
    simp [liveIds, Function.comp_def]
  rwa [kept] at ids

theorem liveIds_update (t : ByteTrackLite) (boxes : List Box) :
    (t.update boxes).1.liveIds = (t.survivors boxes).map (·.id) ++
      List.range' t.nextId ((t.owners boxes).count none) := by
  simp [update_eq_settle, settle, liveIds, births_ids (t.length_owners boxes)]

@[simp] theorem nextId_update (t : ByteTrackLite) (boxes : List Box) :
    (t.update boxes).1.nextId = t.nextId + (t.owners boxes).count none := by
  simp [update_eq_settle, settle]

theorem trackIds_update (t : ByteTrackLite) (boxes : List Box) :
    trackIds (t.update boxes).2 = t.stampIds boxes := by
  rw [update_eq_settle]
  exact trackIds_stamped (t.length_stampIds boxes)

/-- The tracker only stamps the boxes, in their order. -/
theorem untracked_update (t : ByteTrackLite) (boxes : List Box) :
    (t.update boxes).2.map Box.untracked = boxes.map Box.untracked := by
  rw [update_eq_settle]
  exact untracked_stamped (t.length_stampIds boxes)

theorem IdsOk.update {t : ByteTrackLite} (ok : t.IdsOk) (boxes : List Box) :
    (t.update boxes).1.IdsOk := by
  have sub := t.survivors_ids_sublist boxes
  refine ⟨by simpa using ok.next_pos.trans (Nat.le_add_right _ _), ?_, ?_⟩
  · rw [liveIds_update, List.nodup_append]
    refine ⟨ok.distinct.sublist sub, List.nodup_range', ?_⟩
    -- New tracks are numbered from the counter on, which is above every live id.
    intro id old id' fresh
    have := (ok.range id (sub.subset old)).2
    rw [List.mem_range'_1] at fresh
    omega
  · intro id mem
    rw [liveIds_update, List.mem_append, List.mem_range'_1] at mem
    rw [nextId_update]
    cases mem with
    | inl old =>
      have := ok.range id (sub.subset old)
      omega
    | inr fresh =>
      have := ok.next_pos
      omega

theorem stampIds_cases {t : ByteTrackLite} {boxes : List Box} {id : ℕ}
    (mem : id ∈ t.stampIds boxes) :
    id ∈ t.liveIds ∨ t.nextId ≤ id ∧ id < (t.update boxes).1.nextId := by
  rw [nextId_update]
  exact (mem_fillFresh mem).imp_left owners_live

theorem stampIds_nodup {t : ByteTrackLite} (ok : t.IdsOk) (boxes : List Box) :
    (t.stampIds boxes).Nodup :=
  fillFresh_nodup (owners_distinct ok boxes) fun id mem => (ok.range id (owners_live mem)).2

/-- The ids of an update that were not live before it come off the counter, in
    detection order. -/
theorem stampIds_fresh {t : ByteTrackLite} (ok : t.IdsOk) (boxes : List Box) :
    (t.stampIds boxes).filter (fun id => !decide (id ∈ t.liveIds)) =
      List.range' t.nextId ((t.owners boxes).count none) := by
  apply filter_fillFresh
  · intro id mem
    exact decide_eq_true (owners_live mem)
  · intro id high
    refine decide_eq_false fun live => ?_
    have := (ok.range id live).2
    omega

end ByteTrackLite

/-! ## Whole runs -/

open ByteTrackLite

theorem idsOk_init (iouThr : IouThr) (maxAge : ℤ) (matchMode : String) :
    (ByteTrackLite.init iouThr maxAge matchMode).IdsOk :=
  ⟨le_rfl, List.nodup_nil, by simp [liveIds, ByteTrackLite.init]⟩

theorem idsOk_exec {t : ByteTrackLite} (ok : t.IdsOk) (ops : List Op) : (exec t ops).IdsOk := by
  induction ops generalizing t with
  | nil => exact ok
  | cons op ops ih =>
    cases op with
    | update boxes => exact ih (ok.update boxes)
    | setParams maxAge matchMode => exact ih ⟨ok.next_pos, ok.distinct, ok.range⟩

/-- The counter never goes back, and an id below it that is not live never becomes
    live again. -/
theorem exec_keeps_dead {t : ByteTrackLite} {id : ℕ} (dead : id ∉ t.liveIds) (old : id < t.nextId)
    (ops : List Op) : id ∉ (exec t ops).liveIds ∧ id < (exec t ops).nextId := by
  induction ops generalizing t with
  | nil => exact ⟨dead, old⟩
  | cons op ops ih =>
    cases op with
    | update boxes =>
      refine ih ?_ ?_
      · simp only [Op.apply, liveIds_update, List.mem_append, List.mem_range'_1, not_or]
        exact ⟨fun mem => dead ((t.survivors_ids_sublist boxes).subset mem), by omega⟩
      · exact old.trans_le (by simp [Op.apply])
    | setParams maxAge matchMode => exact ih dead old

theorem nextId_exec_le (t : ByteTrackLite) (ops : List Op) : t.nextId ≤ (exec t ops).nextId := by
  induction ops generalizing t with
  | nil => exact le_rfl
  | cons op ops ih =>
    refine le_trans ?_ (ih (op.apply t).1)
    cases op <;> simp [Op.apply, setParams]

theorem outputs_below {t : ByteTrackLite} (ok : t.IdsOk) {ops : List Op} {boxes : List Box} {id : ℕ}
    (out : boxes ∈ outputs t ops) (mem : id ∈ trackIds boxes) : id < (exec t ops).nextId := by
  induction ops generalizing t with
  | nil => cases out
  | cons op ops ih =>
    cases op with
    | setParams maxAge matchMode =>
      obtain rfl | out := List.mem_cons.mp out
      · simp [Op.apply, trackIds] at mem
      · exact ih ⟨ok.next_pos, ok.distinct, ok.range⟩ out
    | update bs =>
      obtain rfl | out := List.mem_cons.mp out
      · rw [Op.apply, trackIds_update] at mem
        have below : id < (t.update bs).1.nextId := by
          cases stampIds_cases mem with
          | inl live => exact (ok.range id live).2.trans_le (by simp)
          | inr fresh => exact fresh.2
        exact below.trans_le (nextId_exec_le _ _)
      · exact ih (ok.update bs) out

theorem pruned_dead {t : ByteTrackLite} (ok : t.IdsOk) {pre : List Op} {id : ℕ}
    (pruned : Pruned t pre id) (post : List Op) :
    id ∉ (exec t (pre ++ post)).liveIds ∧ id < (exec t (pre ++ post)).nextId := by
  obtain ⟨earlier, later, rfl, live, dead⟩ := pruned
  have old : id < (exec t (earlier ++ later)).nextId := by
    rw [exec_append]
    have ok' := idsOk_exec ok earlier
    exact ((ok'.range id live).2).trans_le (nextId_exec_le _ later)
  rw [exec_append]
  exact exec_keeps_dead dead old post

/-- The contract of `update` on ids, in any state a run reaches: it returns the boxes
    with pairwise distinct ids, each the id of a live track or the next one off the
    counter, which is above all ids stamped so far; and no id comes back once its
    track has been pruned. -/
theorem update_id_contract (iouThr : IouThr) (maxAge : ℤ) (matchMode : String) (ops : List Op)
    (boxes : List Box) :
    let t₀ := ByteTrackLite.init iouThr maxAge matchMode
    let t := exec t₀ ops
    ∃ ids : List ℕ,
      ids.length = boxes.length ∧ (t.update boxes).2 = List.zipWith Box.stamp boxes ids ∧
      ids.Nodup ∧ (∀ id ∈ ids, 1 ≤ id) ∧
      (∃ k, ids.filter (fun id => !decide (id ∈ t.liveIds)) = List.range' t.nextId k) ∧
      (∀ out ∈ outputs t₀ ops, ∀ id ∈ trackIds out, id < t.nextId) ∧
      (∀ pre post, ops = pre ++ post → ∀ id, Pruned t₀ pre id → id ∉ ids) ∧
      t.liveIds.Nodup ∧ ∀ id ∈ t.liveIds, id < t.nextId := by
  intro t₀ t
  have ok₀ : t₀.IdsOk := idsOk_init iouThr maxAge matchMode
  have ok : t.IdsOk := idsOk_exec ok₀ ops
  refine ⟨t.stampIds boxes, t.length_stampIds boxes, by rw [update_eq_settle, settle],
    stampIds_nodup ok boxes, ?_, ⟨_, stampIds_fresh ok boxes⟩,
    fun out mem id stamped => outputs_below ok₀ mem stamped, ?_, ok.distinct,
    fun id live => (ok.range id live).2⟩
  · intro id mem
    cases stampIds_cases mem with
    | inl live => exact (ok.range id live).1
    | inr fresh => exact ok.next_pos.trans fresh.1
  · rintro pre post rfl id pruned mem
    obtain ⟨dead, old⟩ := pruned_dead ok₀ pruned post
    cases stampIds_cases mem with
    | inl live => exact dead live
    | inr fresh => exact absurd old (Nat.not_lt.mpr fresh.1)

end VisionNx.Tracker
