import Mathlib.Algebra.Order.BigOperators.Group.Finset
import VisionNx.Agent.LiveTracks
import VisionNx.Tracker.Objects

/-! # One object, one UUID

The tracker gives an object one id as long as it can tell it apart, and the cache gives an
id one UUID as long as it does not drop it.  With few enough boxes in a frame nothing is
dropped that can come back, so the two chain: on one connection every object is shown
under one UUID of its own. -/

namespace VisionNx.Agent

open Tracker LruHistory

variable {U : Type} {O : Type*} {cap : ℕ} {random : ℕ → U}

/-- The objects that are shown for each frame on one connection. -/
def emitFrames (random : ℕ → U) :
    List (List Box) → ByteTrackLite → TrackUuids U → List (List (ObjectMetadata U × Option ℤ))
  | [], _, _ => []
  | boxes :: frames, t, c =>
    let (t, out) := t.update boxes
    let (objects, c) := emitBoxes random (out.map Box.json) c
    objects :: emitFrames random frames t c

/-- The objects that are shown for the boxes of each reply. -/
def emitReplies (random : ℕ → U) :
    List (List Box) → TrackUuids U → List (List (ObjectMetadata U × Option ℤ)) × TrackUuids U
  | [], c => ([], c)
  | out :: outs, c =>
    let (objects, c) := emitBoxes random (out.map Box.json) c
    let (rest, c) := emitReplies random outs c
    (objects :: rest, c)

theorem emitReplies_append (outs outs' : List (List Box)) (c : TrackUuids U) :
    emitReplies random (outs ++ outs') c =
      ((emitReplies random outs c).1 ++ (emitReplies random outs' (emitReplies random outs c).2).1,
        (emitReplies random outs' (emitReplies random outs c).2).2) := by
  induction outs generalizing c with
  | nil => rfl
  | cons out outs ih => simp only [List.cons_append, emitReplies, ih]

/-- What is shown for a frame is shown for the reply to it. -/
theorem emitFrames_eq (frames : List (List Box)) (t : ByteTrackLite) (c : TrackUuids U) :
    emitFrames random frames t c = (emitReplies random (outputs t (frames.map .update)) c).1 := by
  induction frames generalizing t c with
  | nil => rfl
  | cons boxes frames ih => simp only [emitFrames, List.map_cons, outputs, Op.apply, emitReplies, ih]

/-! ## Small frames -/

/-- The ids in the reply to frame `n`. -/
def idsAt (outs : List (List Box)) (n : ℕ) : Finset ℤ := ((outs[n]?.map tids).getD []).toFinset

theorem card_idsAt_le {outs : List (List Box)} {B : ℕ} (few : ∀ out ∈ outs, out.length ≤ B) (n : ℕ) :
    (idsAt outs n).card ≤ B := by
  rw [idsAt]
  cases at_n : outs[n]? with
  | none => simp
  | some out =>
    have ids : (tids out).length ≤ out.length := by
      rw [tids, List.length_map]
      exact List.length_filterMap_le _ _
    exact (List.toFinset_card_le _).trans (ids.trans (few out (List.mem_of_getElem? at_n)))

theorem mem_idsAt {outs : List (List Box)} {n : ℕ} {tid : ℤ} (stamp : (n, tid) ∈ stampsFrom 0 outs) :
    tid ∈ idsAt outs n := by
  obtain ⟨out, at_n, mem⟩ := mem_stamps.mp stamp
  rw [idsAt, at_n]
  exact List.mem_toFinset.mpr mem

/-- The outputs have as many boxes as the frames. -/
theorem length_replies {iouThr : IouThr} {maxAge : ℤ} {matchMode : String} {frames : List (List Box)} {B : ℕ}
    (few : ∀ boxes ∈ frames, boxes.length ≤ B) : ∀ out ∈ replies iouThr maxAge matchMode frames, out.length ≤ B := by
  intro out mem
  obtain ⟨n, at_n⟩ := List.mem_iff_getElem?.mp mem
  obtain ⟨op, at_op, rfl⟩ := outputs_getElem? at_n
  obtain ⟨boxes, in_frames, rfl⟩ := List.mem_map.mp (List.mem_of_getElem? at_op)
  have same := congrArg List.length (ByteTrackLite.untracked_update (exec (ByteTrackLite.init iouThr maxAge matchMode)
    ((frames.map .update).take n)) boxes)
  rw [List.length_map, List.length_map] at same
  exact same.trans_le (few boxes in_frames)

section

variable {iouThr : IouThr} {maxAge : ℤ} {matchMode : String} {frames : List (List Box)} {B : ℕ}

/-- With few boxes in a frame, few other ids are stamped between two stamps of a track. -/
theorem few_others (age : 0 ≤ maxAge) (few : ∀ boxes ∈ frames, boxes.length ≤ B) (room : (maxAge + 2) * B ≤ cap)
    {older between newer : List (ℕ × ℤ)} {m n : ℕ} {tid : ℤ}
    (split : stampsFrom 0 (replies iouThr maxAge matchMode frames) =
      older ++ (m, tid) :: (between ++ (n, tid) :: newer))
    (others : ∀ e ∈ between, e.2 ≠ tid) : (between.map Prod.snd).toFinset.card < cap := by
  have soon := stamped_again_by age split others
  have sorted := stampsFrom_sorted 0 (replies iouThr maxAge matchMode frames)
  have stamp : ∀ e ∈ older ++ (m, tid) :: (between ++ (n, tid) :: newer),
      e.2 ∈ idsAt (replies iouThr maxAge matchMode frames) e.1 := fun e mem => mem_idsAt (split ▸ mem)
  rw [split] at sorted
  obtain ⟨-, inside, -⟩ := between_of_sorted sorted
  -- All of them, and the id itself, are stamped by the updates from `m` to `m + maxAge + 1`.
  have window : insert tid (between.map Prod.snd).toFinset ⊆
      (Finset.range (maxAge.toNat + 2)).biUnion fun i => idsAt (replies iouThr maxAge matchMode frames) (m + i) := by
    intro tid' mem
    rw [Finset.mem_biUnion]
    obtain rfl | mem := Finset.mem_insert.mp mem
    · exact ⟨0, by simp, stamp (m, tid') (by simp)⟩
    · obtain ⟨e, in_between, rfl⟩ := List.mem_map.mp (List.mem_toFinset.mp mem)
      obtain ⟨low, high⟩ := inside e in_between
      refine ⟨e.1 - m, Finset.mem_range.mpr (by omega), ?_⟩
      rw [Nat.add_sub_cancel' low]
      exact stamp e (by simp [in_between])
  have count := (Finset.card_le_card window).trans
    (Finset.card_biUnion_le_card_mul _ _ B fun i _ => card_idsAt_le (length_replies few) (m + i))
  have new : tid ∉ (between.map Prod.snd).toFinset := by
    rw [List.mem_toFinset, List.mem_map]
    rintro ⟨e, mem, is⟩
    exact others e mem is
  rw [Finset.card_insert_of_notMem new, Finset.card_range] at count
  have total : ((maxAge.toNat + 2 : ℕ) * B : ℤ) ≤ cap := by
    rw [Nat.cast_add, Int.toNat_of_nonneg age]
    exact_mod_cast room
  have total' : (maxAge.toNat + 2) * B ≤ cap := by exact_mod_cast total
  omega

/-- With few boxes in a frame every id keeps its UUID. -/
theorem resolveIds_constant (positive : 0 < cap) (distinct : Function.Injective random) (age : 0 ≤ maxAge)
    (few : ∀ boxes ∈ frames, boxes.length ≤ B) (room : (maxAge + 2) * B ≤ cap) :
    Constant (resolveIds cap random ((replies iouThr maxAge matchMode frames).flatMap tids) {}).1 := by
  rw [resolveIds_constant_iff positive distinct, ← stampsFrom_snd 0, spaced_stamps]
  intro older between newer m n tid split others
  exact few_others age few room split others

end

/-! ## Resolved and shown -/

/-- Ids that keep their values are resolved by a function. -/
theorem exists_function [Nonempty U] {h : List (ℤ × U)} (constant : Constant h) :
    ∃ u : ℤ → U, ∀ r ∈ h, r.2 = u r.1 := by
  have value : ∀ tid, ∃ v, ∀ r ∈ h, r.1 = tid → r.2 = v := by
    intro tid
    by_cases known : ∃ r ∈ h, r.1 = tid
    · obtain ⟨r₀, mem₀, rfl⟩ := known
      exact ⟨r₀.2, fun r mem same => constant r mem r₀ mem₀ same⟩
    · exact ⟨Classical.arbitrary U, fun r mem same => absurd ⟨r, mem, same⟩ known⟩
  choose u known using value
  exact ⟨u, fun r mem => known r.1 r mem rfl⟩

theorem resolveIds_eq_map {ids : List ℤ} {c : TrackUuids U} {u : ℤ → U}
    (known : ∀ r ∈ (resolveIds cap random ids c).1, r.2 = u r.1) :
    (resolveIds cap random ids c).1.map Prod.snd = ids.map u := by
  have keys := @resolveIds_fst U cap random ids c
  conv_rhs => rw [← keys, List.map_map]
  exact List.map_congr_left known

/-- The cache never gives one UUID to two ids. -/
theorem resolveIds_injective (positive : 0 < cap) (distinct : Function.Injective random) {ids : List ℤ} {u : ℤ → U}
    (known : ∀ r ∈ (resolveIds cap random ids {}).1, r.2 = u r.1) {tid tid' : ℤ} (mem : tid ∈ ids) (mem' : tid' ∈ ids)
    (same : u tid = u tid') : tid = tid' := by
  have used := ((follows_empty cap random).ids positive distinct ids).used
  rw [List.append_nil] at used
  have keys := @resolveIds_fst U cap random ids {}
  rw [← keys] at mem mem'
  obtain ⟨r, resolved, rfl⟩ := List.mem_map.mp mem
  obtain ⟨r', resolved', rfl⟩ := List.mem_map.mp mem'
  rw [← known r resolved, ← known r' resolved'] at same
  exact used.key_of_value r (List.mem_reverse.mpr resolved) r' (List.mem_reverse.mpr resolved') same

/-- What is shown, if all ids are resolved by one function. -/
theorem emitReplies_uuids {u : ℤ → U} (outs : List (List Box)) (c : TrackUuids U)
    (stamped : ∀ out ∈ outs, ∀ b ∈ out, ∃ id, b.trackId = some id ∧ 0 < id ∧ id < 2 ^ 31)
    (known : ∀ r ∈ (resolveIds trackUuidCap random (outs.flatMap tids) c).1, r.2 = u r.1) :
    (emitReplies random outs c).1.map (List.map fun object => object.1.trackId) = outs.map fun out => (tids out).map u := by
  induction outs generalizing c with
  | nil => rfl
  | cons out outs ih =>
    obtain ⟨now, later⟩ := List.forall_mem_cons.mp stamped
    simp only [List.flatMap_cons, resolveIds_append, List.mem_append] at known
    obtain ⟨shown, cache⟩ := @emitBoxes_stamped U random out c now
    have rest := ih (resolveIds trackUuidCap random (tids out) c).2 later fun r mem => known r (.inr mem)
    have first : (emitBoxes random (out.map Box.json) c).1.map (fun object => object.1.trackId) = (tids out).map u := by
      have uuids := congrArg (List.map Prod.snd) shown
      simp only [List.map_map] at uuids
      refine Eq.trans ?_ (uuids.trans (Eq.trans ?_ (resolveIds_eq_map fun r mem => known r (.inl mem))))
      · rfl
      · rfl
    simp only [emitReplies, List.map_cons, cache, rest, first]

/-- No more ids are given out than there are detections. -/
theorem nextId_exec_le_total (t : ByteTrackLite) (frames : List (List Box)) :
    (exec t (frames.map .update)).nextId ≤ t.nextId + (frames.map List.length).sum := by
  induction frames generalizing t with
  | nil => exact le_rfl
  | cons boxes frames ih =>
    have new : (t.owners boxes).count none ≤ boxes.length := by
      rw [← t.length_owners boxes]
      exact List.count_le_length
    have rest := ih (t.update boxes).1
    rw [ByteTrackLite.nextId_update] at rest
    simp only [List.map_cons, exec, Op.apply, List.sum_cons]
    omega

/-- A run that gives out fewer than 2^31 ids stamps ids that the agent reads. -/
theorem stamped_run {t : ByteTrackLite} (ok : t.IdsOk) (frames : List (List Box))
    (short : t.nextId + (frames.map List.length).sum ≤ 2 ^ 31) :
    ∀ out ∈ outputs t (frames.map .update), ∀ b ∈ out, ∃ id, b.trackId = some id ∧ 0 < id ∧ id < 2 ^ 31 := by
  intro out mem b in_out
  obtain ⟨n, at_n⟩ := List.mem_iff_getElem?.mp mem
  obtain ⟨op, at_op, rfl⟩ := outputs_getElem? at_n
  obtain ⟨boxes, -, rfl⟩ := List.mem_map.mp (List.mem_of_getElem? at_op)
  obtain ⟨id, has_id, pos⟩ := Worker.stamped_update (idsOk_exec ok _) boxes b in_out
  have below := outputs_below ok mem (mem_trackIds in_out has_id)
  exact ⟨id, has_id, pos, below.trans_le ((nextId_exec_le_total t frames).trans short)⟩

/-! ## Objects -/

theorem tids_namedBoxes (name : O → ℕ) (frame : List (O × Box)) :
    tids (namedBoxes name frame) = frame.map fun d => (name d.1 : ℤ) := by
  induction frame with
  | nil => rfl
  | cons d frame ih => exact congrArg ((name d.1 : ℤ) :: ·) ih

/-- The replies to detections of objects that can be told apart are shown under one UUID for each object. -/
theorem exists_uuids (distinct : Function.Injective random) (iouThr : IouThr) (pos : 0 < iouThr.1) {maxAge : ℤ}
    (age : 0 ≤ maxAge) (matchMode : String) {frames : List (List (O × Box))}
    (apart : Distinguishable iouThr.1 (normalizeMode matchMode) maxAge frames) {B : ℕ}
    (few : ∀ frame ∈ frames, frame.length ≤ B) (room : (maxAge + 2) * B ≤ trackUuidCap)
    (short : (frames.map List.length).sum < 2 ^ 31) :
    ∃ uuid : O → U, Set.InjOn uuid {o | Seen frames o} ∧
      (emitReplies random (replies iouThr maxAge matchMode (frames.map (List.map Prod.snd))) {}).1.map
          (List.map fun object => object.1.trackId) =
        frames.map (List.map fun d => uuid d.1) := by
  have : Nonempty U := ⟨random 0⟩
  obtain ⟨name, -, injective, outs⟩ := @Named.run _ _ _ _ frames (named_init (fun _ : O => 0) iouThr maxAge matchMode)
    (by simpa only [ByteTrackLite.init] using pos) (by simpa only [ByteTrackLite.init] using age)
    (by simpa only [ByteTrackLite.init, List.nil_append] using apart)
  rw [List.nil_append] at injective
  have replied : replies iouThr maxAge matchMode (frames.map (List.map Prod.snd)) = frames.map (namedBoxes name) := by
    rw [replies, List.map_map]
    exact outs
  have few' : ∀ boxes ∈ frames.map (List.map Prod.snd), boxes.length ≤ B := by
    intro boxes mem
    obtain ⟨frame, in_frames, rfl⟩ := List.mem_map.mp mem
    rw [List.length_map]
    exact few frame in_frames
  have positive : 0 < trackUuidCap := by decide
  have constant := @resolveIds_constant U trackUuidCap random iouThr maxAge matchMode _ B positive distinct age few' room
  obtain ⟨u, known⟩ := exists_function constant
  refine ⟨fun o => u (name o), ?_, ?_⟩
  · have stamped : ∀ o, Seen frames o →
        (name o : ℤ) ∈ (replies iouThr maxAge matchMode (frames.map (List.map Prod.snd))).flatMap tids := by
      rintro o ⟨n, b, frame, at_n, mem⟩
      rw [replied, List.mem_flatMap]
      refine ⟨namedBoxes name frame, List.mem_map_of_mem (List.mem_of_getElem? at_n), ?_⟩
      rw [tids_namedBoxes]
      exact List.mem_map.mpr ⟨(o, b), mem, rfl⟩
    intro o seen o' seen' same
    have ids := resolveIds_injective positive distinct known (stamped o seen) (stamped o' seen') same
    exact injective seen seen' (Int.ofNat.inj ids)
  · have ok := idsOk_init iouThr maxAge matchMode
    have lengths : ((frames.map (List.map Prod.snd)).map List.length).sum = (frames.map List.length).sum := by
      simp only [List.map_map, Function.comp_def, List.length_map]
    have stamped : ∀ out ∈ replies iouThr maxAge matchMode (frames.map (List.map Prod.snd)), ∀ b ∈ out,
        ∃ id, b.trackId = some id ∧ 0 < id ∧ id < 2 ^ 31 := stamped_run ok (frames.map (List.map Prod.snd)) (by
      rw [lengths]
      show 1 + _ ≤ _
      omega)
    rw [emitReplies_uuids _ {} stamped known, replied, List.map_map]
    apply List.map_congr_left
    intro frame _
    simp only [Function.comp_apply, tids_namedBoxes, List.map_map]
    rfl

/-- On a connection with a constant `max_age`, where the objects can be told apart and no frame has more than
    `B` detections with `(max_age + 2) * B` within the cap of the cache, every object is shown under one UUID
    on all frames that show it, and no two objects under the same one. -/
theorem one_uuid_per_object (distinct : Function.Injective random) (iouThr : IouThr) (pos : 0 < iouThr.1) (maxAge : ℤ)
    (age : 0 ≤ maxAge) (matchMode : String) (frames : List (List (O × Box)))
    (apart : Distinguishable iouThr.1 (normalizeMode matchMode) maxAge frames) (B : ℕ)
    (few : ∀ frame ∈ frames, frame.length ≤ B) (room : (maxAge + 2) * B ≤ trackUuidCap)
    (short : (frames.map List.length).sum < 2 ^ 31) :
    ∃ uuid : O → U, Set.InjOn uuid {o | Seen frames o} ∧
      (emitFrames random (frames.map (List.map Prod.snd)) (ByteTrackLite.init iouThr maxAge matchMode) {}).map
          (List.map fun object => object.1.trackId) =
        frames.map (List.map fun d => uuid d.1) := by
  rw [emitFrames_eq]
  exact exists_uuids distinct iouThr pos age matchMode apart few room short

/-- Up to 44 detections in a frame fit the cache with the default `max_age`; here there are two. -/
theorem one_uuid_per_object_companions :
    ∃ uuid : Bool → ℕ, uuid true ≠ uuid false ∧
      (emitFrames id [[walker, companion], [companion, walker]] (ByteTrackLite.init ⟨3 / 10, by norm_num⟩ 90 "strict")
          {}).map (List.map fun object => object.1.trackId) =
        [[uuid true, uuid false], [uuid false, uuid true]] := by
  obtain ⟨uuid, injective, shown⟩ := one_uuid_per_object Function.injective_id ⟨3 / 10, by norm_num⟩ (by norm_num) 90
    (by norm_num) "strict" companions companions_distinguishable 44 (by decide) (by decide) (by decide)
  refine ⟨uuid, fun same => ?_, shown⟩
  exact absurd (injective (seen_companions true) (seen_companions false) same) (by decide)

end VisionNx.Agent
