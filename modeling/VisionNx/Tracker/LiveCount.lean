import Mathlib.Algebra.BigOperators.Group.Finset.Piecewise
import Mathlib.Algebra.Order.BigOperators.Group.Finset
import VisionNx.Tracker.History

/-! # How many tracks are live

Every live track was stamped by one of the last updates, and no update stamps more tracks than
it has boxes.  So a tracker never holds more tracks than there were boxes in the last
`max_age + 1` updates, however long it runs. -/

namespace VisionNx.Tracker

open ByteTrackLite

/-- The boxes of the updates among some calls. -/
def updatesOf (ops : List Op) : List (List Box) :=
  ops.filterMap fun
    | .update boxes => some boxes
    | .setParams _ _ => none

/-- The number of tracks that were stamped `k` updates ago. -/
def ofAge (k : ℕ) (tracks : List Track) : ℕ := tracks.countP fun trk => trk.timeSinceUpdate == k

/-! ## Sums -/

theorem length_eq_sum_ofAge {limit : ℕ} {tracks : List Track} (young : ∀ trk ∈ tracks, trk.timeSinceUpdate ≤ limit) :
    tracks.length = ∑ k ∈ Finset.range (limit + 1), ofAge k tracks := by
  induction tracks with
  | nil => simp [ofAge]
  | cons trk tracks ih =>
    have inside : trk.timeSinceUpdate < limit + 1 := Nat.lt_succ_of_le (young trk List.mem_cons_self)
    have rest := ih fun trk mem => young trk (List.mem_cons_of_mem _ mem)
    simp only [ofAge, List.countP_cons, beq_iff_eq, Finset.sum_add_distrib, Finset.sum_ite_eq, Finset.mem_range,
      inside, if_true] at rest ⊢
    rw [← rest, List.length_cons]

theorem sum_lengths (past : List (List Box)) (n : ℕ) :
    ∑ k ∈ Finset.range n, (past[k]?.map List.length).getD 0 = ((past.take n).map List.length).sum := by
  induction past generalizing n with
  | nil => simp
  | cons boxes past ih =>
    cases n with
    | zero => rfl
    | succ n =>
      rw [Finset.sum_range_succ', List.take_succ_cons, List.map_cons, List.sum_cons, ← ih n, Nat.add_comm]
      simp

theorem countP_mapIdx_le {p q : Track → Bool} {f : ℕ → Track → Track} (imp : ∀ i trk, p (f i trk) = true → q trk = true)
    (tracks : List Track) : (tracks.mapIdx f).countP p ≤ tracks.countP q := by
  induction tracks generalizing f with
  | nil => exact le_rfl
  | cons trk tracks ih =>
    rw [List.mapIdx_cons, List.countP_cons, List.countP_cons]
    have rest := ih fun i trk => imp (i + 1) trk
    by_cases here : p (f 0 trk) = true
    · rw [if_pos here, if_pos (imp 0 trk here)]
      exact Nat.add_le_add_right rest 1
    · rw [if_neg here]
      exact rest.trans (Nat.le_add_right _ _)

/-! ## One update -/

/-- The tracks that an update stamps are at most as many as its boxes. -/
theorem ofAge_zero_update {t : ByteTrackLite} (ok : t.IdsOk) (boxes : List Box) :
    ofAge 0 (t.update boxes).1.tracks ≤ boxes.length := by
  have stamped : ∀ trk ∈ (t.update boxes).1.tracks, trk.timeSinceUpdate = 0 → trk.id ∈ t.stampIds boxes := by
    intro trk mem now
    cases mem_tracks_update.mp mem with
    | inl old =>
      obtain ⟨ti, trk₀, at_ti, rfl, -⟩ := old
      cases claimed : claimant (t.matching boxes) ti 0 boxes with
      | none =>
        rw [claimed] at now
        cases now
      | some b =>
        obtain ⟨di, -, at_di⟩ := stamped_of_claimant at_ti claimed
        rw [Track.advance_id]
        exact List.mem_of_getElem? at_di
    | inr born =>
      obtain ⟨di, b, -, -, at_di, -⟩ := births_cases born
      exact List.mem_of_getElem? at_di
  let now := (t.update boxes).1.tracks.filter fun trk => trk.timeSinceUpdate == 0
  have distinct : (now.map (·.id)).Nodup := (List.filter_sublist.map _).nodup (ok.update boxes).distinct
  have among : now.map (·.id) ⊆ t.stampIds boxes := by
    intro id mem
    obtain ⟨trk, in_now, rfl⟩ := List.mem_map.mp mem
    obtain ⟨live, is_now⟩ := List.mem_filter.mp in_now
    exact stamped trk live (beq_iff_eq.mp is_now)
  have le := (List.subperm_of_subset distinct among).length_le
  rwa [List.length_map, t.length_stampIds, ← List.countP_eq_length_filter] at le

/-- The others have got one update older. -/
theorem ofAge_succ_update (t : ByteTrackLite) (boxes : List Box) (k : ℕ) :
    ofAge (k + 1) (t.update boxes).1.tracks ≤ ofAge k t.tracks := by
  have born : (births t.nextId (t.owners boxes) boxes).countP (fun trk => trk.timeSinceUpdate == k + 1) = 0 := by
    rw [List.countP_eq_zero]
    intro trk mem
    obtain ⟨_, _, _, _, _, is_new⟩ := births_cases mem
    rw [is_new]
    exact Bool.false_ne_true
  have older : ∀ (i : ℕ) (trk : Track), ((trk.advance
    (claimant (t.matching boxes) i 0 boxes)).timeSinceUpdate == k + 1) = true →
      (trk.timeSinceUpdate == k) = true := by
    intro i trk is_older
    cases claimed : claimant (t.matching boxes) i 0 boxes with
    | none =>
      rw [claimed] at is_older
      exact beq_iff_eq.mpr (Nat.succ.inj (beq_iff_eq.mp is_older))
    | some b =>
      rw [claimed] at is_older
      cases beq_iff_eq.mp is_older
  rw [update_eq_settle]
  simp only [ofAge, settle, List.countP_append, born, Nat.add_zero, survivors, prune]
  exact (List.filter_sublist.countP_le).trans (countP_mapIdx_le older t.tracks)

/-! ## Runs -/

/-- The tracker has been updated with `past`, the last update first, and kept no track for longer
    than `limit` allows. -/
structure Counted (limit : ℕ) (t : ByteTrackLite) (past : List (List Box)) : Prop where
  ok : t.IdsOk
  age : t.maxAge ≤ limit
  young : ∀ trk ∈ t.tracks, trk.timeSinceUpdate ≤ limit
  counts : ∀ k, ofAge k t.tracks ≤ (past[k]?.map List.length).getD 0

/-- A call that does not set `max_age` above `limit`. -/
def Op.AgeAtMost (limit : ℕ) : Op → Prop
  | .update _ => True
  | .setParams maxAge _ => ∀ age, maxAge = some age → age ≤ limit

theorem counted_init {limit : ℕ} (iouThr : IouThr) {maxAge : ℤ} (le : maxAge ≤ limit) (matchMode : String) :
    Counted limit (ByteTrackLite.init iouThr maxAge matchMode) [] where
  ok := idsOk_init iouThr maxAge matchMode
  age := le
  young := nofun
  counts _ := le_rfl

variable {limit : ℕ} {t : ByteTrackLite} {past : List (List Box)}

theorem Counted.update (counted : Counted limit t past) (boxes : List Box) :
    Counted limit (t.update boxes).1 (boxes :: past) where
  ok := counted.ok.update boxes
  age := by
    rw [maxAge_update]
    exact counted.age
  young trk mem := by
    cases mem_tracks_update.mp mem with
    | inl old =>
      obtain ⟨_, _, _, _, young⟩ := old
      exact_mod_cast young.trans counted.age
    | inr born =>
      obtain ⟨_, _, _, _, _, is_new⟩ := births_cases born
      rw [is_new]
      exact Nat.zero_le limit
  counts k := by
    cases k with
    | zero => exact ofAge_zero_update counted.ok boxes
    | succ k => exact (ofAge_succ_update t boxes k).trans (counted.counts k)

theorem Counted.setParams (counted : Counted limit t past) {maxAge : Option ℤ} {matchMode : Option String}
    (le : ∀ age, maxAge = some age → age ≤ limit) : Counted limit (t.setParams none maxAge matchMode) past where
  ok := ⟨counted.ok.next_pos, counted.ok.distinct, counted.ok.range⟩
  age := by
    cases maxAge with
    | none => exact counted.age
    | some age => exact le age rfl
  young := counted.young
  counts := counted.counts

theorem Counted.run (counted : Counted limit t past) {ops : List Op} (le : ∀ op ∈ ops, op.AgeAtMost limit) :
    Counted limit (exec t ops) ((updatesOf ops).reverse ++ past) := by
  induction ops generalizing t past with
  | nil => exact counted
  | cons op ops ih =>
    have rest := fun op mem => le op (List.mem_cons_of_mem _ mem)
    cases op with
    | update boxes =>
      have counted' := ih (counted.update boxes) rest
      have past_eq : (updatesOf (.update boxes :: ops)).reverse ++ past = (updatesOf ops).reverse ++ boxes :: past := by
        simp [updatesOf]
      rw [past_eq]
      exact counted'
    | setParams maxAge matchMode => exact ih (counted.setParams (le _ List.mem_cons_self)) rest

/-- There are no more tracks than there were boxes in the last `limit + 1` updates. -/
theorem Counted.liveCount_le (counted : Counted limit t past) :
    t.liveCount ≤ ((past.take (limit + 1)).map List.length).sum := by
  rw [liveCount, length_eq_sum_ofAge counted.young, ← sum_lengths]
  exact Finset.sum_le_sum fun k _ => counted.counts k

end VisionNx.Tracker
