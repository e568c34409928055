import VisionNx.Tracker.History

/-! # A lowered `max_age`

`update` matches before it prunes.  As long as no track is older than `max_age` that makes
no difference; but `set_params` may lower `max_age` below the age of a live track, and
the update after it then revives a track that the new limit has given up. -/

namespace VisionNx.Tracker

namespace ByteTrackLite

/-- No live track has been missed more often than `max_age` allows. -/
def Young (t : ByteTrackLite) : Prop := ∀ trk ∈ t.tracks, (trk.timeSinceUpdate : ℤ) ≤ t.maxAge

/-- A detection takes over the id of a track only if the track is not too old. -/
def RevivesInTime (t : ByteTrackLite) (boxes : List Box) : Prop :=
  ∀ trk ∈ t.tracks, trk.id ∈ trackIds (t.update boxes).2 → (trk.timeSinceUpdate : ℤ) ≤ t.maxAge

theorem Young.revivesInTime {t : ByteTrackLite} (young : t.Young) (boxes : List Box) : t.RevivesInTime boxes :=
  fun trk live _ => young trk live

theorem Young.update {t : ByteTrackLite} (age : 0 ≤ t.maxAge) (boxes : List Box) : (t.update boxes).1.Young := by
  intro trk mem
  rw [maxAge_update]
  exact young_update age boxes mem

end ByteTrackLite

open ByteTrackLite

/-- A call that leaves `max_age` non-negative. -/
def Op.AgeNonneg : Op → Prop
  | .update _ => True
  | .setParams maxAge _ => ∀ age, maxAge = some age → 0 ≤ age

/-- A call that does not set `max_age` below the age of a live track. -/
def Op.SparesTracks (t : ByteTrackLite) : Op → Prop
  | .update _ => True
  | .setParams maxAge _ => ∀ age, maxAge = some age → ∀ trk ∈ t.tracks, (trk.timeSinceUpdate : ℤ) ≤ age

theorem Op.AgeNonneg.apply {t : ByteTrackLite} (age : 0 ≤ t.maxAge) {op : Op} (nonneg : op.AgeNonneg) :
    0 ≤ (op.apply t).1.maxAge := by
  cases op with
  | update boxes => simpa [Op.apply] using age
  | setParams maxAge matchMode =>
    cases maxAge with
    | none => exact age
    | some limit => exact nonneg limit rfl

theorem ByteTrackLite.Young.apply {t : ByteTrackLite} (young : t.Young) (age : 0 ≤ t.maxAge) {op : Op}
    (spares : op.SparesTracks t) : (op.apply t).1.Young := by
  cases op with
  | update boxes => exact Young.update age boxes
  | setParams maxAge matchMode =>
    cases maxAge with
    | none => exact young
    | some limit => exact spares limit rfl

theorem ByteTrackLite.Young.run {t : ByteTrackLite} (young : t.Young) (age : 0 ≤ t.maxAge) {ops : List Op}
    (nonneg : ∀ op ∈ ops, op.AgeNonneg)
    (spares : ∀ pre op post, ops = pre ++ op :: post → op.SparesTracks (exec t pre)) :
    ∀ pre post, ops = pre ++ post → (exec t pre).Young := by
  induction ops generalizing t with
  | nil =>
    intro pre post split
    obtain rfl := (List.append_eq_nil_iff.mp split.symm).1
    exact young
  | cons op ops ih =>
    intro pre post split
    cases pre with
    | nil => exact young
    | cons op' pre =>
      obtain ⟨rfl, rfl⟩ := List.cons.inj split
      obtain ⟨nonneg_op, nonneg_rest⟩ := List.forall_mem_cons.mp nonneg
      have spares_rest : ∀ pre' op' post', pre ++ post = pre' ++ op' :: post' →
          op'.SparesTracks (exec (op.apply t).1 pre') := by
        intro pre' op' post' split
        exact spares (op :: pre') op' post' (congrArg (op :: ·) split)
      exact ih (young.apply age (spares [] op _ rfl)) (nonneg_op.apply age) nonneg_rest spares_rest pre post rfl

/-- In a run that never sets `max_age` below the age of a live track, no update revives a track that
    has been missed more often than the `max_age` in force allows. -/
theorem revived_in_time (iouThr : IouThr) (maxAge : ℤ) (matchMode : String) (age : 0 ≤ maxAge) (ops : List Op)
    (nonneg : ∀ op ∈ ops, op.AgeNonneg)
    (spares : ∀ pre op post, ops = pre ++ op :: post →
      op.SparesTracks (exec (ByteTrackLite.init iouThr maxAge matchMode) pre)) :
    ∀ pre boxes post, ops = pre ++ .update boxes :: post →
      (exec (ByteTrackLite.init iouThr maxAge matchMode) pre).RevivesInTime boxes := by
  intro pre boxes post split
  have young₀ : (ByteTrackLite.init iouThr maxAge matchMode).Young := by
    simp [Young, ByteTrackLite.init]
  have young := young₀.run (by simpa only [ByteTrackLite.init] using age) nonneg spares pre _ split
  exact young.revivesInTime boxes

/-- Five missed updates, then `max_age` 2, then the walker in its old place: it is track 1 again. -/
def lowered : List Op :=
  [.update [walker], .update [], .update [], .update [], .update [], .update [], .setParams (some 2) none]

theorem lowered_revives :
    ¬ ∀ (iouThr : IouThr) (maxAge : ℤ) (matchMode : String), 0 ≤ maxAge → ∀ ops : List Op,
      (∀ op ∈ ops, op.AgeNonneg) → ∀ pre boxes post, ops = pre ++ .update boxes :: post →
        (exec (ByteTrackLite.init iouThr maxAge matchMode) pre).RevivesInTime boxes := by
  intro never
  have nonneg : ∀ op ∈ lowered ++ [.update [walker]], op.AgeNonneg := by
    intro op mem
    simp only [lowered, List.mem_append, List.mem_cons, List.not_mem_nil, or_false] at mem
    obtain (rfl | rfl | rfl | rfl | rfl | rfl | rfl) | rfl := mem
    case inl.inr.inr.inr.inr.inr.inr =>
      intro age given
      obtain rfl := Option.some.inj given
      decide
    all_goals exact trivial
  have in_time := never ⟨3 / 10, by norm_num⟩ 90 "strict" (by decide) _ nonneg lowered [walker] [] rfl
  have tracks : (exec (ByteTrackLite.init ⟨3 / 10, by norm_num⟩ 90 "strict") lowered).tracks =
      [{ Track.new 1 walker.xyxy 0 with timeSinceUpdate := 5 }] := by
    decide +kernel
  have stamped : 1 ∈ trackIds
      ((exec (ByteTrackLite.init ⟨3 / 10, by norm_num⟩ 90 "strict") lowered).update [walker]).2 := by
    decide +kernel
  have limit : (exec (ByteTrackLite.init ⟨3 / 10, by norm_num⟩ 90 "strict") lowered).maxAge = 2 := by
    decide +kernel
  have old := in_time _ (tracks ▸ List.mem_singleton_self _) stamped
  rw [limit] at old
  exact absurd old (by decide)

/-- One missed update and then `max_age` 1: the track is just young enough. -/
theorem revived_in_time_at_limit :
    (exec (ByteTrackLite.init ⟨3 / 10, by norm_num⟩ 90 "strict")
      [.update [walker], .update [], .setParams (some 1) none]).RevivesInTime [walker] := by
  apply revived_in_time ⟨3 / 10, by norm_num⟩ 90 "strict" (by decide)
    [.update [walker], .update [], .setParams (some 1) none, .update [walker]] _ _ _ [walker] [] rfl
  · intro op mem
    simp only [List.mem_cons, List.not_mem_nil, or_false] at mem
    obtain rfl | rfl | rfl | rfl := mem
    · exact trivial
    · exact trivial
    · intro age given
      obtain rfl := Option.some.inj given
      decide
    · exact trivial
  · intro pre op post split
    match pre with
    | [] =>
      obtain ⟨rfl, -⟩ := List.cons.inj split
      exact trivial
    | [_] =>
      simp only [List.cons_append, List.nil_append, List.cons.injEq] at split
      obtain ⟨-, rfl, -⟩ := split
      exact trivial
    | [_, _] =>
      simp only [List.cons_append, List.nil_append, List.cons.injEq] at split
      obtain ⟨rfl, rfl, rfl, -⟩ := split
      intro age given
      obtain rfl := Option.some.inj given
      have tracks : (exec (ByteTrackLite.init ⟨3 / 10, by norm_num⟩ 90 "strict") [.update [walker], .update []]).tracks =
          [{ Track.new 1 walker.xyxy 0 with timeSinceUpdate := 1 }] := by
        decide +kernel
      rw [tracks]
      intro trk mem
      obtain rfl := List.mem_singleton.mp mem
      decide
    | [_, _, _] =>
      simp only [List.cons_append, List.nil_append, List.cons.injEq] at split
      obtain ⟨-, -, -, rfl, -⟩ := split
      exact trivial
    | _ :: _ :: _ :: _ :: _ => simp at split

end VisionNx.Tracker
