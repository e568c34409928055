import VisionNx.Agent.TrackIdentity
import VisionNx.Agent.TrackUuidLru
import VisionNx.Tracker.History

/-! # UUIDs of live tracks

The tracker drops a track by its age and the agent drops a UUID by the order of use.  A
cache that has room for all live tracks keeps the UUID of a track while it is live, with
one exception: when a track is matched again by the last update that can do so, other
tracks that have just been dropped and opened may have taken its place. -/

namespace VisionNx.Agent

open Tracker LruHistory

variable {U : Type}

/-! ## Frames on one connection -/

/-- The boxes of one reply, by their track ids. -/
def resolveIds (cap : ℕ) (random : ℕ → U) : List ℤ → TrackUuids U → List (ℤ × U) × TrackUuids U
  | [], c => ([], c)
  | tid :: tids, c =>
    let ((uuid, _), c) := resolveTrackUuid cap random tid c
    let (resolved, c) := resolveIds cap random tids c
    ((tid, uuid) :: resolved, c)

/-- The track ids on the boxes, as the agent reads them. -/
def tids (out : List Box) : List ℤ := (trackIds out).map fun id : ℕ => (id : ℤ)

theorem mem_tids {out : List Box} {tid : ℤ} : tid ∈ tids out ↔ ∃ id ∈ trackIds out, (id : ℤ) = tid :=
  List.mem_map

def resolveFrames (cap : ℕ) (random : ℕ → U) : List (List Box) → ByteTrackLite → TrackUuids U → List (ℤ × U)
  | [], _, _ => []
  | boxes :: frames, t, c =>
    let (t, out) := t.update boxes
    let (resolved, c) := resolveIds cap random (tids out) c
    resolved ++ resolveFrames cap random frames t c

/-- The live tracks at the points of an update: as it begins, when those too old are gone,
    and with each new one. -/
def pointsInside (t : ByteTrackLite) (boxes : List Box) : List (List Track) :=
  t.tracks :: (births t.nextId (t.owners boxes) boxes).inits.map (t.survivors boxes ++ ·)

/-- There are never more than `cap` live tracks. -/
def WithinCap (cap : ℕ) : List (List Box) → ByteTrackLite → Prop
  | [], t => t.tracks.length ≤ cap
  | boxes :: frames, t =>
    (∀ tracks ∈ pointsInside t boxes, tracks.length ≤ cap) ∧ WithinCap cap frames (t.update boxes).1

instance decidableWithinCap (cap : ℕ) : ∀ frames t, Decidable (WithinCap cap frames t)
  | [], _ => inferInstanceAs (Decidable (_ ≤ _))
  | boxes :: frames, t =>
    @instDecidableAnd _ _ inferInstance (decidableWithinCap cap frames (t.update boxes).1)

/-- The stamped ids in their order, each with the number of its update. -/
def stampsFrom : ℕ → List (List Box) → List (ℕ × ℤ)
  | _, [] => []
  | n, out :: outs => (tids out).map (n, ·) ++ stampsFrom (n + 1) outs

/-- When a track that the last `maxAge` updates have missed is matched again, fewer than
    `cap` other ids have been stamped since its last stamp. -/
def RevivedInTime (cap : ℕ) (maxAge : ℤ) (stamps : List (ℕ × ℤ)) : Prop :=
  ∀ (older between newer : List (ℕ × ℤ)) (m n : ℕ) (tid : ℤ),
    stamps = older ++ (m, tid) :: (between ++ (n, tid) :: newer) → (∀ e ∈ between, e.2 ≠ tid) →
      (n : ℤ) = m + maxAge + 1 → (between.map Prod.snd).toFinset.card < cap

/-! ## The resolutions -/

variable {cap : ℕ} {random : ℕ → U}

theorem resolveIds_fst (ids : List ℤ) (c : TrackUuids U) : (resolveIds cap random ids c).1.map Prod.fst = ids := by
  induction ids generalizing c with
  | nil => rfl
  | cons tid ids ih => exact congrArg (tid :: ·) (ih _)

theorem resolveIds_append (ids ids' : List ℤ) (c : TrackUuids U) :
    (resolveIds cap random (ids ++ ids') c).1 =
      (resolveIds cap random ids c).1 ++ (resolveIds cap random ids' (resolveIds cap random ids c).2).1 := by
  induction ids generalizing c with
  | nil => rfl
  | cons tid ids ih => exact congrArg (_ :: ·) (ih _)

theorem resolveFrames_eq (frames : List (List Box)) (t : ByteTrackLite) (c : TrackUuids U) :
    resolveFrames cap random frames t c =
      (resolveIds cap random ((outputs t (frames.map .update)).flatMap tids) c).1 := by
  induction frames generalizing t c with
  | nil => rfl
  | cons boxes frames ih =>
    simp only [List.map_cons, outputs, List.flatMap_cons, resolveIds_append]
    exact congrArg (_ ++ ·) (ih _ _)

theorem Follows.ids {c : TrackUuids U} {h : List (ℤ × U)} (follows : Follows cap random c h)
    (positive : 0 < cap) (distinct : Function.Injective random) (ids : List ℤ) :
    Follows cap random (resolveIds cap random ids c).2 ((resolveIds cap random ids c).1.reverse ++ h) := by
  induction ids generalizing c h with
  | nil => exact follows
  | cons tid ids ih =>
    cases resolved : resolveTrackUuid cap random tid c with
    | mk result c' =>
      obtain ⟨uuid, isNew⟩ := result
      have next := ih (follows.resolve positive distinct resolved)
      simpa [resolveIds, resolved] using next

theorem resolveIds_constant_iff (positive : 0 < cap) (distinct : Function.Injective random) (ids : List ℤ) :
    Constant (resolveIds cap random ids {}).1 ↔ Spaced cap ids.reverse := by
  have used := ((follows_empty cap random).ids positive distinct ids).used
  rw [List.append_nil] at used
  have iff := used.constant_iff
  rw [List.map_reverse, resolveIds_fst] at iff
  rw [← iff]
  simp only [Constant, List.mem_reverse]

/-- The loop over the boxes of a reply resolves the ids that the tracker has stamped. -/
theorem emitBoxes_stamped (out : List Box) (c : TrackUuids U)
    (stamped : ∀ b ∈ out, ∃ id, b.trackId = some id ∧ 0 < id ∧ id < 2 ^ 31) :
    (emitBoxes random (out.map Box.json) c).1.map (fun object => (object.2, object.1.trackId)) =
        (resolveIds trackUuidCap random (tids out) c).1.map (fun r => (some r.1, r.2)) ∧
      (emitBoxes random (out.map Box.json) c).2 = (resolveIds trackUuidCap random (tids out) c).2 := by
  induction out generalizing c with
  | nil => exact ⟨rfl, rfl⟩
  | cons b out ih =>
    obtain ⟨id, has_id, pos, small⟩ := stamped b (List.mem_cons_self ..)
    have get_xyxy : b.json.get "xyxy" = b.xyxy.json := rfl
    have is_tid : boxTrackId b.json = some (id : ℤ) := by
      have resolved := resolvedTrackId_json has_id pos small
      simpa only [resolvedTrackId, get_xyxy, Xyxy.json] using resolved
    obtain ⟨objects, cache⟩ := ih (resolveTrackUuid trackUuidCap random id c).2
      fun b mem => stamped b (List.mem_cons_of_mem _ mem)
    have ids : tids (b :: out) = (id : ℤ) :: tids out := by simp [tids, trackIds, has_id]
    simp only [List.map_cons, emitBoxes, emitBox, get_xyxy, Xyxy.json, is_tid, ids, resolveIds,
      Option.toList_some, List.singleton_append, objects, cache, and_self]

/-! ## The stamps -/

theorem stampsFrom_snd (n : ℕ) (outs : List (List Box)) : (stampsFrom n outs).map Prod.snd = outs.flatMap tids := by
  induction outs generalizing n with
  | nil => rfl
  | cons out outs ih => simp [stampsFrom, ih]

theorem le_of_mem_stampsFrom {n : ℕ} {e : ℕ × ℤ} {outs : List (List Box)} (mem : e ∈ stampsFrom n outs) : n ≤ e.1 := by
  induction outs generalizing n with
  | nil => cases mem
  | cons out outs ih =>
    cases List.mem_append.mp mem with
    | inl now =>
      obtain ⟨tid, -, rfl⟩ := List.mem_map.mp now
      exact le_rfl
    | inr later => exact (Nat.le_succ n).trans (ih later)

theorem mem_stampsFrom {n k : ℕ} {tid : ℤ} {outs : List (List Box)} :
    (n + k, tid) ∈ stampsFrom n outs ↔ ∃ out, outs[k]? = some out ∧ tid ∈ tids out := by
  induction outs generalizing n k with
  | nil => simp [stampsFrom]
  | cons out outs ih =>
    rw [stampsFrom, List.mem_append]
    cases k with
    | zero =>
      have now : (n + 0, tid) ∉ stampsFrom (n + 1) outs := fun mem =>
        absurd (le_of_mem_stampsFrom mem) (Nat.not_succ_le_self n)
      rw [or_iff_left now]
      simp
    | succ k =>
      have later : (n + (k + 1), tid) ∉ (tids out).map (n, ·) := by simp
      rw [or_iff_right later, show n + (k + 1) = n + 1 + k by omega, ih, List.getElem?_cons_succ]

theorem stampsFrom_sorted (n : ℕ) (outs : List (List Box)) :
    (stampsFrom n outs).Pairwise fun e e' => e.1 ≤ e'.1 := by
  induction outs generalizing n with
  | nil => exact .nil
  | cons out outs ih =>
    refine List.pairwise_append.mpr ⟨?_, ih (n + 1), fun e now e' later => ?_⟩
    · exact List.pairwise_map.mpr (List.pairwise_of_forall fun _ _ => le_rfl)
    · obtain ⟨tid, -, rfl⟩ := List.mem_map.mp now
      exact (Nat.le_succ n).trans (le_of_mem_stampsFrom later)

theorem mem_stamps {k : ℕ} {tid : ℤ} {outs : List (List Box)} :
    (k, tid) ∈ stampsFrom 0 outs ↔ ∃ out, outs[k]? = some out ∧ tid ∈ tids out := by
  simpa using @mem_stampsFrom 0 k tid outs

/-- Two stamps, those in between and all others, in their order. -/
theorem between_of_sorted {older between newer : List (ℕ × ℤ)} {a b : ℕ × ℤ}
    (sorted : (older ++ a :: (between ++ b :: newer)).Pairwise fun e e' => e.1 ≤ e'.1) :
    a.1 ≤ b.1 ∧ (∀ e ∈ between, a.1 ≤ e.1 ∧ e.1 ≤ b.1) ∧
      ∀ e ∈ older ++ a :: (between ++ b :: newer), a.1 < e.1 → e.1 < b.1 → e ∈ between := by
  simp only [List.pairwise_append, List.pairwise_cons, List.mem_append, List.mem_cons] at sorted
  obtain ⟨-, ⟨after_a, -, ⟨after_b, -⟩, to_b⟩, to_a⟩ := sorted
  refine ⟨after_a b (by simp), fun e mem => ⟨after_a e (by simp [mem]), to_b e mem b (by simp)⟩, fun e mem low high => ?_⟩
  simp only [List.mem_append, List.mem_cons] at mem
  obtain mem | rfl | mem | rfl | mem := mem
  · have := to_a e mem a (by simp)
    omega
  · omega
  · exact mem
  · omega
  · have := after_b e mem
    omega

/-! ## The tracker at an update of a run -/

theorem outputs_take (t : ByteTrackLite) (ops : List Op) (n : ℕ) :
    (outputs t ops).take n = outputs t (ops.take n) := by
  induction ops generalizing t n with
  | nil => simp [outputs]
  | cons op ops ih =>
    cases n with
    | zero => rfl
    | succ n => exact congrArg ((op.apply t).2 :: ·) (ih _ n)

theorem outputs_getElem? {t : ByteTrackLite} {ops : List Op} {n : ℕ} {out : List Box}
    (at_n : (outputs t ops)[n]? = some out) :
    ∃ op, ops[n]? = some op ∧ out = (op.apply (exec t (ops.take n))).2 := by
  induction ops generalizing t n with
  | nil => simp [outputs] at at_n
  | cons op ops ih =>
    cases n with
    | zero => exact ⟨op, rfl, (Option.some.inj at_n).symm⟩
    | succ n => exact ih at_n

/-- Inside the cap is inside it after every update. -/
theorem WithinCap.after {frames : List (List Box)} {t : ByteTrackLite} (within : WithinCap cap frames t) (n : ℕ) :
    (exec t ((frames.take n).map .update)).tracks.length ≤ cap := by
  induction frames generalizing t n with
  | nil => simpa [exec, WithinCap] using within
  | cons boxes frames ih =>
    cases n with
    | zero => exact within.1 t.tracks (List.mem_cons_self ..)
    | succ n => exact ih within.2 n

section

variable {iouThr : IouThr} {maxAge : ℤ} {matchMode : String} {frames : List (List Box)}
  {older between newer : List (ℕ × ℤ)} {m n : ℕ} {tid : ℤ}

/-- The tracker of the connection before update `n`. -/
def trackerBefore (iouThr : IouThr) (maxAge : ℤ) (matchMode : String) (frames : List (List Box)) (n : ℕ) : ByteTrackLite :=
  exec (ByteTrackLite.init iouThr maxAge matchMode) ((frames.take n).map .update)

/-- The replies on the connection. -/
def replies (iouThr : IouThr) (maxAge : ℤ) (matchMode : String) (frames : List (List Box)) : List (List Box) :=
  outputs (ByteTrackLite.init iouThr maxAge matchMode) (frames.map .update)

theorem history_before (age : 0 ≤ maxAge) (n : ℕ) :
    History (trackerBefore iouThr maxAge matchMode frames n) ((replies iouThr maxAge matchMode frames).take n) := by
  have start : History (ByteTrackLite.init iouThr maxAge matchMode) [] :=
    ⟨by simp [ByteTrackLite.init], by simp [ByteTrackLite.init], by simp⟩
  have history := history_run start (idsOk_init iouThr maxAge matchMode) age (frames.take n)
  rw [List.nil_append, List.map_take, ← outputs_take] at history
  rw [trackerBefore, replies, List.map_take]
  exact history

/-- The ids stamped by the updates that a live track can go back to are live. -/
theorem live_of_recent (age : 0 ≤ maxAge) {out : List Box} (at_m : (replies iouThr maxAge matchMode frames)[m]? = some out)
    (mem : tid ∈ tids out) (le : m ≤ n) (inside : n < (replies iouThr maxAge matchMode frames).length)
    (recent : (n : ℤ) ≤ m + maxAge) :
    ∃ id ∈ (trackerBefore iouThr maxAge matchMode frames (n + 1)).liveIds, (id : ℤ) = tid := by
  obtain ⟨id, stamped, rfl⟩ := mem_tids.mp mem
  have history := @history_before iouThr maxAge matchMode frames age (n + 1)
  refine ⟨id, history.recent m out id ?_ stamped ?_, rfl⟩
  · rw [List.getElem?_take_of_lt (by omega), at_m]
  · have const : (trackerBefore iouThr maxAge matchMode frames (n + 1)).maxAge = maxAge := maxAge_run _ _
    rw [const, List.length_take, Nat.min_eq_left (by omega)]
    omega

theorem reply_of_split {k : ℕ} {tid' : ℤ}
    (split : stampsFrom 0 (replies iouThr maxAge matchMode frames) =
      older ++ (m, tid) :: (between ++ (n, tid) :: newer))
    (mem : (k, tid') ∈ older ++ (m, tid) :: (between ++ (n, tid) :: newer)) :
    ∃ out, (replies iouThr maxAge matchMode frames)[k]? = some out ∧ tid' ∈ tids out :=
  mem_stamps.mp (split ▸ mem)

/-- Between two stamps of a track that are no further apart than it may miss updates, all
    that are stamped are live with it after the second. -/
theorem few_between (age : 0 ≤ maxAge) (within : WithinCap cap frames (ByteTrackLite.init iouThr maxAge matchMode))
    (split : stampsFrom 0 (replies iouThr maxAge matchMode frames) =
      older ++ (m, tid) :: (between ++ (n, tid) :: newer))
    (others : ∀ e ∈ between, e.2 ≠ tid) (recent : (n : ℤ) ≤ m + maxAge) :
    (between.map Prod.snd).toFinset.card < cap := by
  have sorted := stampsFrom_sorted 0 (replies iouThr maxAge matchMode frames)
  rw [split] at sorted
  obtain ⟨-, inside, -⟩ := between_of_sorted sorted
  obtain ⟨last, at_n, mem_n⟩ := @reply_of_split _ _ _ _ _ _ _ _ _ _ n tid split (by simp)
  have bound := (List.getElem?_eq_some_iff.mp at_n).1
  have live : insert tid (between.map Prod.snd).toFinset ⊆
      ((trackerBefore iouThr maxAge matchMode frames (n + 1)).liveIds.map fun id : ℕ => (id : ℤ)).toFinset := by
    intro tid' mem
    rw [List.mem_toFinset, List.mem_map]
    obtain rfl | mem := Finset.mem_insert.mp mem
    · exact live_of_recent age at_n mem_n le_rfl bound (by omega)
    · obtain ⟨⟨k, tid'⟩, in_between, rfl⟩ := List.mem_map.mp (List.mem_toFinset.mp mem)
      obtain ⟨out, at_k, mem_k⟩ := @reply_of_split _ _ _ _ _ _ _ _ _ _ k tid' split (by simp [in_between])
      have := inside (k, tid') in_between
      exact live_of_recent age at_k mem_k this.2 bound (by omega)
  have new : tid ∉ (between.map Prod.snd).toFinset := by
    rw [List.mem_toFinset, List.mem_map]
    rintro ⟨e, mem, is⟩
    exact others e mem is
  have few := (Finset.card_le_card live).trans (List.toFinset_card_le _)
  rw [Finset.card_insert_of_notMem new, List.length_map, ByteTrackLite.liveIds, List.length_map] at few
  exact few.trans (within.after (n + 1))

/-- An id that has been stamped before is only stamped on a live track. -/
theorem live_of_stamped_again {out out' : List Box} {id : ℕ}
    (at_m : (replies iouThr maxAge matchMode frames)[m]? = some out) (mem : id ∈ trackIds out) (later : m < n)
    (at_n : (replies iouThr maxAge matchMode frames)[n]? = some out') (again : id ∈ trackIds out') :
    id ∈ (trackerBefore iouThr maxAge matchMode frames n).liveIds := by
  obtain ⟨op, at_op, rfl⟩ := outputs_getElem? at_n
  obtain ⟨boxes, -, rfl⟩ : ∃ boxes, boxes ∈ frames ∧ .update boxes = op := List.mem_map.mp (List.mem_of_getElem? at_op)
  rw [Op.apply, ByteTrackLite.trackIds_update, ← List.map_take] at again
  cases ByteTrackLite.stampIds_cases again with
  | inl live => exact live
  | inr fresh =>
    -- The counter is above all ids stamped so far.
    have earlier : out ∈ outputs (ByteTrackLite.init iouThr maxAge matchMode) ((frames.take n).map .update) := by
      rw [List.map_take, ← outputs_take]
      refine List.mem_of_getElem? (i := m) ?_
      rw [List.getElem?_take_of_lt later]
      exact at_m
    have below := outputs_below (idsOk_init iouThr maxAge matchMode) earlier mem
    exact absurd below (Nat.not_lt.mpr fresh.1)

/-- A track is matched again after at most `maxAge` updates that miss it. -/
theorem stamped_again_by (age : 0 ≤ maxAge)
    (split : stampsFrom 0 (replies iouThr maxAge matchMode frames) =
      older ++ (m, tid) :: (between ++ (n, tid) :: newer))
    (others : ∀ e ∈ between, e.2 ≠ tid) : (n : ℤ) ≤ m + maxAge + 1 := by
  have sorted := stampsFrom_sorted 0 (replies iouThr maxAge matchMode frames)
  rw [split] at sorted
  obtain ⟨le, -, all_between⟩ := between_of_sorted sorted
  obtain same | later := le.eq_or_lt
  · simp only at same
    omega
  obtain ⟨out, at_m, mem_m⟩ := @reply_of_split _ _ _ _ _ _ _ _ _ _ m tid split (by simp)
  obtain ⟨out', at_n, mem_n⟩ := @reply_of_split _ _ _ _ _ _ _ _ _ _ n tid split (by simp)
  obtain ⟨id, mem_id, rfl⟩ := mem_tids.mp mem_m
  obtain ⟨id', mem_id', same⟩ := mem_tids.mp mem_n
  obtain rfl := Int.ofNat.inj same
  obtain ⟨trk, mem_trk, rfl⟩ := List.mem_map.mp (live_of_stamped_again at_m mem_id later at_n mem_id')
  have history := @history_before iouThr maxAge matchMode frames age n
  obtain ⟨m', b, last, ticks, -⟩ := history.live trk mem_trk
  have young := history.young trk mem_trk
  have const : (trackerBefore iouThr maxAge matchMode frames n).maxAge = maxAge := maxAge_run _ _
  have bound := (List.getElem?_eq_some_iff.mp at_n).1
  rw [List.length_take, Nat.min_eq_left bound.le] at ticks
  -- The last stamp before update `n` is the one at `m`.
  have latest : m' ≤ m := by
    by_contra! after
    obtain ⟨out'', at_m', mem_b⟩ := last.stamped
    rw [List.getElem?_take_of_lt (by omega)] at at_m'
    have stamp := mem_stamps.mpr ⟨out'', at_m', mem_tids.mpr ⟨trk.id, mem_trackIds mem_b last.has_id, rfl⟩⟩
    exact others _ (all_between _ (split ▸ stamp) after (by simp only; omega)) rfl
  omega

end

/-! ## One UUID -/

theorem spaced_stamps {stamps : List (ℕ × ℤ)} : Spaced cap (stamps.map Prod.snd).reverse ↔
    ∀ (older between newer : List (ℕ × ℤ)) (m n : ℕ) (tid : ℤ),
      stamps = older ++ (m, tid) :: (between ++ (n, tid) :: newer) → (∀ e ∈ between, e.2 ≠ tid) →
        (between.map Prod.snd).toFinset.card < cap := by
  rw [spaced_reverse]
  constructor
  · intro spaced older between newer m n tid split others
    refine spaced (older.map Prod.snd) tid (between.map Prod.snd) (newer.map Prod.snd) (by simp [split]) ?_
    rw [List.mem_map]
    rintro ⟨e, mem, is⟩
    exact others e mem is
  · intro spaced older tid between newer split apart
    obtain ⟨older', rest, rfl, rfl, from_first⟩ := List.map_eq_append_iff.mp split
    obtain ⟨⟨m, tid⟩, rest, rfl, rfl, after_first⟩ := List.map_eq_cons_iff.mp from_first
    obtain ⟨between', rest, rfl, rfl, from_second⟩ := List.map_eq_append_iff.mp after_first
    obtain ⟨⟨n, tid'⟩, newer', rfl, same, rfl⟩ := List.map_eq_cons_iff.mp from_second
    obtain rfl : tid' = tid := same
    exact spaced older' between' newer' m n tid' rfl fun e mem is => apart (List.mem_map.mpr ⟨e, mem, is⟩)

/-- On a connection that never has more live tracks than the cache holds, all resolutions
    of a track id give one UUID exactly if tracks that are matched again by the last
    update that can do so are so in time. -/
theorem one_uuid_iff (positive : 0 < cap) (distinct : Function.Injective random) (iouThr : IouThr) (maxAge : ℤ)
    (matchMode : String) (age : 0 ≤ maxAge) (frames : List (List Box))
    (within : WithinCap cap frames (ByteTrackLite.init iouThr maxAge matchMode)) :
    (∀ r ∈ resolveFrames cap random frames (ByteTrackLite.init iouThr maxAge matchMode) {},
      ∀ r' ∈ resolveFrames cap random frames (ByteTrackLite.init iouThr maxAge matchMode) {},
        r.1 = r'.1 → r.2 = r'.2) ↔
      RevivedInTime cap maxAge (stampsFrom 0 (replies iouThr maxAge matchMode frames)) := by
  rw [resolveFrames_eq]
  refine (resolveIds_constant_iff positive distinct _).trans ?_
  rw [← stampsFrom_snd 0, spaced_stamps]
  constructor
  · exact fun spaced older between newer m n tid split others _ => spaced older between newer m n tid split others
  · intro revived older between newer m n tid split others
    -- Either the second stamp is the last one possible, or the track has been live throughout.
    obtain last | sooner := (stamped_again_by age split others).eq_or_lt
    · exact revived older between newer m n tid split others last
    · exact few_between age within split others (by omega)

/-- Three boxes that do not overlap. -/
def leftBox : Box := { xyxy := ⟨0, 0, 1 / 10, 1 / 10⟩, score := 1 / 2, cls := some 0 }

def middleBox : Box := { xyxy := ⟨4 / 10, 0, 5 / 10, 1 / 10⟩, score := 1 / 2, cls := some 0 }

def rightBox : Box := { xyxy := ⟨8 / 10, 0, 9 / 10, 1 / 10⟩, score := 1 / 2, cls := some 0 }

def nearThr : IouThr := ⟨3 / 10, by decide +kernel⟩

/-- The left track is matched again in the first place. -/
theorem one_uuid_iff_left_first :
    (∀ r ∈ resolveFrames 2 id [[leftBox, middleBox], [leftBox, rightBox]] (ByteTrackLite.init nearThr 0 "strict") {},
      ∀ r' ∈ resolveFrames 2 id [[leftBox, middleBox], [leftBox, rightBox]] (ByteTrackLite.init nearThr 0 "strict") {},
        r.1 = r'.1 → r.2 = r'.2) ↔
      RevivedInTime 2 0 (stampsFrom 0 (replies nearThr 0 "strict" [[leftBox, middleBox], [leftBox, rightBox]])) :=
  one_uuid_iff (by decide) Function.injective_id nearThr 0 "strict" (by decide) _ (by decide +kernel)

/-- With room for two tracks and two tracks live at any time, the UUID of the left track
    makes room for that of a new track which comes before it. -/
theorem live_track_gets_another_uuid : ∃ (cap : ℕ) (random : ℕ → ℕ) (maxAge : ℤ) (frames : List (List Box)),
    0 < cap ∧ Function.Injective random ∧ 0 ≤ maxAge ∧
    WithinCap cap frames (ByteTrackLite.init nearThr maxAge "strict") ∧
    ∃ r ∈ resolveFrames cap random frames (ByteTrackLite.init nearThr maxAge "strict") {},
      ∃ r' ∈ resolveFrames cap random frames (ByteTrackLite.init nearThr maxAge "strict") {},
        r.1 = r'.1 ∧ r.2 ≠ r'.2 :=
  ⟨2, id, 0, [[leftBox, middleBox], [rightBox, leftBox]], by decide, Function.injective_id, by decide,
    by decide +kernel, (1, 0), by decide +kernel, (1, 3), by decide +kernel, rfl, by decide⟩

end VisionNx.Agent
