import Mathlib.Data.Finite.Prod
import Mathlib.Data.Finset.Card
import Mathlib.Order.Interval.Finset.Nat
import Mathlib.Tactic.Linarith
import VisionNx.Library.GreedyMatching
import VisionNx.Tracker.Basic

/-! # The greedy loop computes the greedy matching

The loop takes the first maximal entry of the IoU matrix, locks the pair in and masks
its row and column with `-1`, until the maximum drops below the threshold.  `LoopInv`
says what has been settled after some rounds: the masked entries are those of matched
rows and columns, and every eligible pair among them is matched or comes after a
matched pair of its row or column.  When the loop stops nothing eligible is left, so
the matching is the greedy one for the order `Precedes`: larger IoU, then smaller
detection index, then smaller track position.
-/

namespace VisionNx.Tracker

open GreedyMatching

/-! ## The order of the pairs -/

/-- Detection-track pairs in the order in which the loop prefers them. -/
def Precedes (iou : ℕ → ℕ → ℚ) (p q : ℕ × ℕ) : Prop :=
  iou q.1 q.2 < iou p.1 p.2 ∨
    iou p.1 p.2 = iou q.1 q.2 ∧ (p.1 < q.1 ∨ p.1 = q.1 ∧ p.2 < q.2)

instance (iou : ℕ → ℕ → ℚ) : IsStrictOrder (ℕ × ℕ) (Precedes iou) where
  irrefl p h := by
    obtain h | ⟨_, h⟩ := h
    · exact lt_irrefl _ h
    · omega
  trans p q r hpq hqr := by
    rcases hpq with hpq | ⟨epq, hpq⟩ <;> rcases hqr with hqr | ⟨eqr, hqr⟩
    -- One strict inequality is enough; two ties are decided by the positions.
    · exact .inl (hqr.trans hpq)
    · exact .inl (eqr ▸ hpq)
    · exact .inl (epq ▸ hqr)
    · exact .inr ⟨epq.trans eqr, by omega⟩

/-- The pairs of an `n × m` problem that the loop may match. -/
def Eligible (thr : ℚ) (n m : ℕ) (iou : ℕ → ℕ → ℚ) (i j : ℕ) : Prop :=
  i < n ∧ j < m ∧ thr ≤ iou i j

theorem eligible_finite (thr : ℚ) (n m : ℕ) (iou : ℕ → ℕ → ℚ) :
    {p : ℕ × ℕ | Eligible thr n m iou p.1 p.2}.Finite := by
  apply ((Set.finite_lt_nat n).prod (Set.finite_lt_nat m)).subset
  intro p eligible
  exact ⟨eligible.1, eligible.2.1⟩

/-- A problem of the tracker has at most one greedy matching. -/
theorem greedy_unique {thr : ℚ} {n m : ℕ} {iou : ℕ → ℕ → ℚ} {M N : ℕ → ℕ → Prop}
    (greedy : IsGreedy (Eligible thr n m iou) (Precedes iou) M)
    (other : IsGreedy (Eligible thr n m iou) (Precedes iou) N) (i j : ℕ) : M i j ↔ N i j :=
  greedy.unique (eligible_finite thr n m iou).wellFoundedOn other i j

/-! ## `np.argmax` -/

theorem idxOf_range {n k : ℕ} (h : k < n) : (List.range n).idxOf k = k := by
  have := List.nodup_range.idxOf_getElem k (by simpa using h)
  simpa using this

theorem lex_of_flat_le {m k i j : ℕ} (hj : j < m) (h : k ≤ i * m + j) :
    k / m < i ∨ k / m = i ∧ k % m ≤ j := by
  have split : k / m * m + k % m = k := Nat.div_add_mod' k m
  have row : k / m ≤ i := by
    by_contra! later
    have : (i + 1) * m ≤ k / m * m := Nat.mul_le_mul_right m later
    rw [Nat.succ_mul] at this
    omega
  cases row.lt_or_eq with
  | inl lt => exact .inl lt
  | inr eq =>
    rw [eq] at split
    exact .inr ⟨eq, by omega⟩

/-- The flat index that `argmax` returns is in range, and its pair precedes every
    other pair in range. -/
theorem argmax_spec {n m : ℕ} (hn : 0 < n) (hm : 0 < m) (iou : ℕ → ℕ → ℚ) :
    argmax n m iou / m < n ∧ argmax n m iou % m < m ∧
      ∀ i j, i < n → j < m → (i, j) ≠ (argmax n m iou / m, argmax n m iou % m) →
        Precedes iou (argmax n m iou / m, argmax n m iou % m) (i, j) := by
  obtain ⟨k, found⟩ : ∃ k, (List.range (n * m)).argmax (fun k => iou (k / m) (k % m)) = some k := by
    apply Option.ne_none_iff_exists'.mp
    rw [Ne, List.argmax_eq_none, List.range_eq_nil]
    exact (Nat.mul_pos hn hm).ne'
  have value : argmax n m iou = k := by simp [argmax, found]
  obtain ⟨mem, maximal, first⟩ := List.argmax_eq_some_iff.mp found
  rw [List.mem_range] at mem
  rw [value]
  refine ⟨Nat.div_lt_of_lt_mul (by rwa [Nat.mul_comm]), Nat.mod_lt _ hm, ?_⟩
  intro i j hi hj ne
  have flat_lt : i * m + j < n * m := by
    have : (i + 1) * m ≤ n * m := Nat.mul_le_mul_right m hi
    rw [Nat.succ_mul] at this
    omega
  have flat_div : (i * m + j) / m = i := by
    rw [Nat.mul_comm, Nat.mul_add_div hm, Nat.div_eq_of_lt hj, Nat.add_zero]
  have flat_mod : (i * m + j) % m = j := by
    rw [Nat.mul_comm, Nat.mul_add_mod, Nat.mod_eq_of_lt hj]
  -- `np.argmax` takes the first of several maximal entries, so ties go by flat index.
  have le := maximal (i * m + j) (List.mem_range.mpr flat_lt)
  have earlier := first (i * m + j) (List.mem_range.mpr flat_lt)
  simp only [flat_div, flat_mod, idxOf_range mem, idxOf_range flat_lt] at le earlier
  cases le.lt_or_eq with
  | inl lt => exact .inl lt
  | inr eq =>
    refine .inr ⟨eq.symm, ?_⟩
    obtain row | ⟨row, col⟩ := lex_of_flat_le hj (earlier eq.symm.le)
    · exact .inl row
    · refine .inr ⟨row, lt_of_le_of_ne col fun same => ne ?_⟩
      exact Prod.ext row.symm same.symm

/-! ## The loop invariant -/

/-- What holds of the loop's state after any number of rounds on the matrix `iou`. -/
structure LoopInv (thr : ℚ) (n m : ℕ) (iou : ℕ → ℕ → ℚ) (s : GreedyState) : Prop where
  det_iff : ∀ i, s.detMatched i = true ↔ ∃ j, s.detToTrack i = some j
  trk_iff : ∀ j, s.trkMatched j = true ↔ ∃ i, s.detToTrack i = some j
  masked : ∀ i j, s.iou i j = if s.detMatched i ∨ s.trkMatched j then -1 else iou i j
  eligible : ∀ {i j}, s.detToTrack i = some j → Eligible thr n m iou i j
  injective : ∀ {i i' j}, s.detToTrack i = some j → s.detToTrack i' = some j → i = i'
  dominated : ∀ {i j}, Eligible thr n m iou i j → s.detToTrack i ≠ some j →
    s.detMatched i = true ∨ s.trkMatched j = true →
    ∃ i' j', s.detToTrack i' = some j' ∧ (i' = i ∨ j' = j) ∧ Precedes iou (i', j') (i, j)

section

variable {thr : ℚ} {n m : ℕ} {iou : ℕ → ℕ → ℚ} {s s' : GreedyState}

theorem loopInv_init : LoopInv thr n m iou { iou } where
  det_iff := by simp
  trk_iff := by simp
  masked := by simp
  eligible := by simp
  injective := by simp
  dominated := by simp

/-- An entry of a matched row or column is masked, and `-1` is below the threshold. -/
theorem LoopInv.unmasked (inv : LoopInv thr n m iou s) (thr_gt : -1 < thr) {di ti : ℕ}
    (high : ¬ s.iou di ti < thr) : s.detMatched di = false ∧ s.trkMatched ti = false := by
  by_contra! matched
  refine high ?_
  rw [inv.masked, if_pos]
  · exact thr_gt
  · cases hd : s.detMatched di
    · exact .inr (by simpa using matched hd)
    · exact .inl rfl

/-- What one round can do.  The defensive branch of the source is not among it. -/
theorem greedyRound_cases (thr_gt : -1 < thr) (hn : 0 < n) (hm : 0 < m)
    (inv : LoopInv thr n m iou s) :
    (greedyRound thr n m s = none ∧
      ∀ i j, Eligible thr n m iou i j → s.detMatched i = true ∨ s.trkMatched j = true) ∨
    ∃ di ti, greedyRound thr n m s = some (s.lock di ti) ∧ Eligible thr n m iou di ti ∧
      s.detMatched di = false ∧ s.trkMatched ti = false ∧
      ∀ i j, Eligible thr n m iou i j → (i, j) ≠ (di, ti) → s.detMatched i = false →
        s.trkMatched j = false → Precedes iou (di, ti) (i, j) := by
  obtain ⟨row, col, best⟩ := argmax_spec hn hm s.iou
  simp only [greedyRound]
  generalize argmax n m s.iou / m = di at *
  generalize argmax n m s.iou % m = ti at *
  have alive : ∀ i j, s.detMatched i = false → s.trkMatched j = false → s.iou i j = iou i j := by
    intro i j hi hj
    simp [inv.masked, hi, hj]
  by_cases low : s.iou di ti < thr
  · -- The maximum is below the threshold, so no eligible pair is unmasked.
    refine .inl ⟨by simp [low], fun i j eligible => ?_⟩
    by_contra! free
    simp only [ne_eq, Bool.not_eq_true] at free
    have value := alive i j free.1 free.2
    have : s.iou i j ≤ s.iou di ti := by
      by_cases same : (i, j) = (di, ti)
      · rw [Prod.mk.injEq] at same
        rw [same.1, same.2]
      · obtain lt | ⟨eq, _⟩ := best i j eligible.1 eligible.2.1 same
        · exact lt.le
        · exact eq.ge
    have := eligible.2.2
    linarith
  · have unmasked := inv.unmasked thr_gt low
    have value := alive di ti unmasked.1 unmasked.2
    refine .inr ⟨di, ti, by simp [low, unmasked], ⟨row, col, by rw [← value]; linarith⟩,
      unmasked.1, unmasked.2, fun i j eligible ne hi hj => ?_⟩
    have earlier := best i j eligible.1 eligible.2.1 ne
    simpa only [Precedes, value, alive i j hi hj] using earlier

theorem LoopInv.unclaimed_det (inv : LoopInv thr n m iou s) {di : ℕ} (det_free : s.detMatched di = false) :
    s.detToTrack di = none := by
  by_contra some
  have := (inv.det_iff di).mpr (Option.ne_none_iff_exists'.mp some)
  simp [det_free] at this

theorem LoopInv.unclaimed_trk (inv : LoopInv thr n m iou s) {ti : ℕ} (trk_free : s.trkMatched ti = false) (i : ℕ) :
    s.detToTrack i ≠ some ti := by
  intro some
  have := (inv.trk_iff ti).mpr ⟨i, some⟩
  simp [trk_free] at this

@[simp] theorem lock_self (s : GreedyState) (di ti : ℕ) : (s.lock di ti).detToTrack di = some ti := by
  simp [GreedyState.lock]

/-- The matches are the old ones and the new pair. -/
theorem lock_cases {di ti i j : ℕ} (held : (s.lock di ti).detToTrack i = some j) :
    (i = di ∧ j = ti) ∨ s.detToTrack i = some j := by
  by_cases same : i = di
  · simp only [GreedyState.lock, same, if_true, Option.some.injEq] at held
    exact .inl ⟨same, held.symm⟩
  · simp only [GreedyState.lock, same, if_false] at held
    exact .inr held

theorem lock_keeps {di ti i j : ℕ} (det_none : s.detToTrack di = none) (held : s.detToTrack i = some j) :
    (s.lock di ti).detToTrack i = some j := by
  have other : i ≠ di := by
    rintro rfl
    cases det_none.symm.trans held
  simpa [GreedyState.lock, other] using held

/-- Locking in the best unmasked pair keeps the invariant. -/
theorem LoopInv.lock (inv : LoopInv thr n m iou s) {di ti : ℕ}
    (eligible : Eligible thr n m iou di ti)
    (det_free : s.detMatched di = false) (trk_free : s.trkMatched ti = false)
    (best : ∀ i j, Eligible thr n m iou i j → (i, j) ≠ (di, ti) → s.detMatched i = false →
      s.trkMatched j = false → Precedes iou (di, ti) (i, j)) :
    LoopInv thr n m iou (s.lock di ti) where
  det_iff i := by
    by_cases same : i = di <;> simp [GreedyState.lock, same, inv.det_iff]
  trk_iff j := by
    by_cases same : j = ti
    · simp only [GreedyState.lock, same, if_true, true_iff]
      exact ⟨di, by simp⟩
    · simp only [GreedyState.lock, same, if_false, inv.trk_iff]
      constructor
      · rintro ⟨i, held⟩
        exact ⟨i, lock_keeps (inv.unclaimed_det det_free) held⟩
      · rintro ⟨i, held⟩
        exact ⟨i, (lock_cases held).resolve_left fun new => same new.2⟩
  masked i j := by
    by_cases hi : i = di <;> by_cases hj : j = ti <;> simp [GreedyState.lock, hi, hj, inv.masked]
  eligible {i j} held := by
    obtain ⟨rfl, rfl⟩ | old := lock_cases held
    · exact eligible
    · exact inv.eligible old
  injective {i i' j} held held' := by
    cases lock_cases held with
    | inl new =>
      cases lock_cases held' with
      | inl new' => rw [new.1, new'.1]
      | inr old' => exact absurd (new.2 ▸ old') (inv.unclaimed_trk trk_free i')
    | inr old =>
      cases lock_cases held' with
      | inl new' => exact absurd (new'.2 ▸ old) (inv.unclaimed_trk trk_free i)
      | inr old' => exact inv.injective old old'
  dominated {i j} eligible' ne blocked := by
    -- Blocked before this round, or just now by the pair that was locked in.
    by_cases before : s.detMatched i = true ∨ s.trkMatched j = true
    · have ne' : s.detToTrack i ≠ some j := fun held => ne (lock_keeps (inv.unclaimed_det det_free) held)
      obtain ⟨i', j', chosen, share, earlier⟩ := inv.dominated eligible' ne' before
      exact ⟨i', j', lock_keeps (inv.unclaimed_det det_free) chosen, share, earlier⟩
    · simp only [not_or, Bool.not_eq_true] at before
      have fresh : (i, j) ≠ (di, ti) := by
        rintro ⟨⟩
        exact ne (lock_self s di ti)
      refine ⟨di, ti, lock_self s di ti, ?_, best i j eligible' fresh before.1 before.2⟩
      by_contra! apart
      simp [GreedyState.lock, apart.1.symm, apart.2.symm, before] at blocked

/-! ## The loop ends -/

def freeCount (n : ℕ) (matched : ℕ → Bool) : ℕ :=
  ((Finset.range n).filter fun i => matched i = false).card

theorem freeCount_le (n : ℕ) (matched : ℕ → Bool) : freeCount n matched ≤ n :=
  (Finset.card_filter_le _ _).trans (Finset.card_range n).le

theorem freeCount_raise {n k : ℕ} {matched : ℕ → Bool} (hk : k < n) (down : matched k = false) :
    freeCount n (fun i => if i = k then true else matched i) < freeCount n matched := by
  apply Finset.card_lt_card
  refine ⟨fun i mem => ?_, fun sub => ?_⟩
  · simp only [Finset.mem_filter, Finset.mem_range] at mem ⊢
    refine ⟨mem.1, ?_⟩
    by_contra up
    by_cases same : i = k <;> simp [same, up] at mem
  · have := sub (Finset.mem_filter.mpr ⟨Finset.mem_range.mpr hk, down⟩)
    simp at this

/-- As many rounds as may still lock a pair in. -/
def roundsLeft (n m : ℕ) (s : GreedyState) : ℕ := min (freeCount n s.detMatched) (freeCount m s.trkMatched)

theorem roundsLeft_init (n m : ℕ) (iou : ℕ → ℕ → ℚ) : roundsLeft n m { iou } ≤ min n m :=
  min_le_min (freeCount_le n _) (freeCount_le m _)

/-- A round that goes on locks a pair in, which uses up one detection and one track. -/
theorem greedyRound_progress (thr_gt : -1 < thr) (hn : 0 < n) (hm : 0 < m) (inv : LoopInv thr n m iou s)
    (next : greedyRound thr n m s = some s') :
    LoopInv thr n m iou s' ∧ roundsLeft n m s' + 1 ≤ roundsLeft n m s := by
  obtain ⟨stop, _⟩ | ⟨di, ti, locked, eligible, det_free, trk_free, best⟩ :=
    greedyRound_cases thr_gt hn hm inv
  · rw [stop] at next
    cases next
  · obtain rfl : s.lock di ti = s' := Option.some.inj (locked.symm.trans next)
    have fewer_dets := freeCount_raise eligible.1 det_free
    have fewer_trks := freeCount_raise eligible.2.1 trk_free
    refine ⟨inv.lock eligible det_free trk_free best, ?_⟩
    simp only [roundsLeft, GreedyState.lock]
    omega

/-- More rounds than there are free indices of either kind are never taken. -/
theorem greedyLoop_stops (thr_gt : -1 < thr) (hn : 0 < n) (hm : 0 < m) (fuel : ℕ)
    (inv : LoopInv thr n m iou s) (enough : roundsLeft n m s < fuel) :
    LoopInv thr n m iou (greedyLoop thr n m fuel s) ∧
      greedyRound thr n m (greedyLoop thr n m fuel s) = none := by
  induction fuel generalizing s with
  | zero => omega
  | succ fuel ih =>
    unfold greedyLoop
    split
    next stop => exact ⟨inv, stop⟩
    next s' next =>
      obtain ⟨inv', fewer⟩ := greedyRound_progress thr_gt hn hm inv next
      exact ih inv' (by omega)

theorem greedyMatch_stops (thr_gt : -1 < thr) (hn : 0 < n) (hm : 0 < m) :
    LoopInv thr n m iou (greedyMatch thr n m iou) ∧
      greedyRound thr n m (greedyMatch thr n m iou) = none := by
  apply greedyLoop_stops thr_gt hn hm _ loopInv_init
  exact Nat.lt_succ_of_le (roundsLeft_init n m iou)

/-- The loop computes the greedy matching of the eligible pairs. -/
theorem greedyMatch_greedy (thr_gt : -1 < thr) (hn : 0 < n) (hm : 0 < m) :
    IsGreedy (Eligible thr n m iou) (Precedes iou)
      (fun i j => (greedyMatch thr n m iou).detToTrack i = some j) := by
  obtain ⟨inv, stop⟩ := @greedyMatch_stops thr n m iou thr_gt hn hm
  have settled : ∀ i j, Eligible thr n m iou i j →
      (greedyMatch thr n m iou).detMatched i = true ∨
        (greedyMatch thr n m iou).trkMatched j = true := by
    obtain ⟨_, settled⟩ | ⟨di, ti, next, _⟩ := greedyRound_cases thr_gt hn hm inv
    · exact settled
    · rw [stop] at next
      cases next
  refine ⟨inv.eligible, ?_, inv.injective, fun eligible ne => ?_⟩
  · intro i j j' held held'
    exact Option.some.inj (held.symm.trans held')
  · exact inv.dominated eligible ne (settled _ _ eligible)

/-! ## The loop without a bound -/

/-- The state after `k` rounds of `while True` that go on, if the loop takes so many. -/
def afterRounds (thr : ℚ) (n m : ℕ) : ℕ → GreedyState → Option GreedyState
  | 0, s => some s
  | k + 1, s => (greedyRound thr n m s).bind (afterRounds thr n m k)

/-- The next round takes the branch for a row or a column that is already matched. -/
def TakesDefensiveBranch (thr : ℚ) (n m : ℕ) (s : GreedyState) : Prop :=
  let di := argmax n m s.iou / m
  let ti := argmax n m s.iou % m
  ¬ s.iou di ti < thr ∧ (s.detMatched di || s.trkMatched ti) = true

theorem afterRounds_inv (thr_gt : -1 < thr) (hn : 0 < n) (hm : 0 < m) (k : ℕ) (inv : LoopInv thr n m iou s)
    (reached : afterRounds thr n m k s = some s') :
    LoopInv thr n m iou s' ∧ roundsLeft n m s' + k ≤ roundsLeft n m s := by
  induction k generalizing s with
  | zero =>
    cases reached
    exact ⟨inv, le_rfl⟩
  | succ k ih =>
    obtain ⟨s₁, next, rest⟩ := Option.bind_eq_some_iff.mp reached
    obtain ⟨inv₁, fewer₁⟩ := greedyRound_progress thr_gt hn hm inv next
    obtain ⟨inv', fewer⟩ := ih inv₁ rest
    exact ⟨inv', by omega⟩

/-- The loop with a bound takes rounds of the loop without one. -/
theorem afterRounds_greedyLoop (fuel : ℕ) (s : GreedyState) :
    ∃ k, afterRounds thr n m k s = some (greedyLoop thr n m fuel s) := by
  induction fuel generalizing s with
  | zero => exact ⟨0, rfl⟩
  | succ fuel ih =>
    unfold greedyLoop
    split
    next stop => exact ⟨0, rfl⟩
    next s' next =>
      obtain ⟨k, reached⟩ := ih s'
      refine ⟨k + 1, ?_⟩
      rw [afterRounds, next]
      exact reached

/-- Behind a round that breaks there is no other. -/
theorem afterRounds_le {k j : ℕ} {t : GreedyState} (reached : afterRounds thr n m k s = some t)
    (stop : greedyRound thr n m t = none) (reached' : afterRounds thr n m j s = some s') : j ≤ k := by
  induction k generalizing s j with
  | zero =>
    cases reached
    cases j with
    | zero => exact le_rfl
    | succ j =>
      rw [afterRounds, stop] at reached'
      cases reached'
  | succ k ih =>
    obtain ⟨s₁, next, rest⟩ := Option.bind_eq_some_iff.mp reached
    cases j with
    | zero => exact Nat.zero_le _
    | succ j =>
      rw [afterRounds, next] at reached'
      exact Nat.succ_le_succ (ih rest reached')

/-- `while True` breaks in its round `k + 1`, at the latest in round `min n m + 1`, and
    no round takes the defensive branch. -/
theorem while_true_terminates (thr : ℚ) (n m : ℕ) (iou : ℕ → ℕ → ℚ) (thr_gt : -1 < thr) (hn : 0 < n)
    (hm : 0 < m) :
    ∃ k, k + 1 ≤ min n m + 1 ∧ afterRounds thr n m k { iou } = some (greedyMatch thr n m iou) ∧
      greedyRound thr n m (greedyMatch thr n m iou) = none ∧
      ∀ j s, afterRounds thr n m j { iou } = some s → j ≤ k ∧ ¬ TakesDefensiveBranch thr n m s := by
  obtain ⟨-, stop⟩ := @greedyMatch_stops thr n m iou thr_gt hn hm
  obtain ⟨k, reached⟩ := @afterRounds_greedyLoop thr n m (min n m + 1) { iou }
  have bound := (afterRounds_inv thr_gt hn hm k loopInv_init reached).2
  have start := roundsLeft_init n m iou
  refine ⟨k, by omega, reached, stop, fun j s reached' => ⟨afterRounds_le reached stop reached', ?_⟩⟩
  obtain ⟨inv, -⟩ := afterRounds_inv thr_gt hn hm j loopInv_init reached'
  intro ⟨high, matched⟩
  obtain ⟨det_free, trk_free⟩ := inv.unmasked thr_gt high
  rw [det_free, trk_free] at matched
  cases matched

/-- Two detections that overlap both of two tracks alike. -/
theorem while_true_terminates_two :
    ∃ k, k + 1 ≤ 3 ∧
      afterRounds (3 / 10) 2 2 k { iou := fun _ _ => 1 / 2 } = some (greedyMatch (3 / 10) 2 2 fun _ _ => 1 / 2) ∧
      greedyRound (3 / 10) 2 2 (greedyMatch (3 / 10) 2 2 fun _ _ => 1 / 2) = none ∧
      ∀ j s, afterRounds (3 / 10) 2 2 j { iou := fun _ _ => 1 / 2 } = some s →
        j ≤ k ∧ ¬ TakesDefensiveBranch (3 / 10) 2 2 s :=
  while_true_terminates (3 / 10) 2 2 (fun _ _ => 1 / 2) (by norm_num) (by decide) (by decide)

end

end VisionNx.Tracker
