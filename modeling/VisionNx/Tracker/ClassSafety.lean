import VisionNx.Tracker.NonInterference

/-! # One id, one class

While the match mode stays `strict` or `vehicle_group`, every id belongs to one canonical
class: a detection only takes over a track of its own class, and an id that comes off the
counter was on nothing before.  `Keyed` states this for the live tracks, with the class
of each id as a function of the id. -/

namespace VisionNx.Tracker

namespace ByteTrackLite

/-- Every live track is of the class that `key` assigns to its id. -/
structure Keyed (mode : MatchMode) (key : ℕ → Int32) (t : ByteTrackLite) : Prop where
  ok : t.IdsOk
  matchMode : t.matchMode = mode
  masked : mode ≠ .any
  pos : 0 < t.iouThr.1
  live : ∀ trk ∈ t.tracks, canonicalCls trk.cls mode = key trk.id

section

variable {mode : MatchMode} {key : ℕ → Int32} {t : ByteTrackLite} {boxes : List Box}

/-- A track that is claimed keeps its canonical class. -/
theorem Keyed.advance (keyed : Keyed mode key t) {ti : ℕ} {trk : Track} (ht : t.tracks[ti]? = some trk) :
    canonicalCls (trk.advance (claimant (t.matching boxes) ti 0 boxes)).cls mode = key trk.id := by
  obtain rfl := keyed.matchMode
  have params : SameParams t t := ⟨rfl, rfl, rfl, keyed.masked, keyed.pos⟩
  have same := @ofKey_advance t t (key trk.id) boxes params ti trk ht
  have before := keyed.live trk (List.mem_of_getElem? ht)
  simpa [Track.ofKey, before] using same

/-- `key`, and for the ids that come off the counter now the class of their detections. -/
def extendKey (mode : MatchMode) (key : ℕ → Int32) (t : ByteTrackLite) (boxes : List Box) (id : ℕ) : Int32 :=
  if id < t.nextId then key id
  else (boxes[(t.stampIds boxes).idxOf id]?.map fun b => canonicalCls b.getCls mode).getD 0

theorem extendKey_old {id : ℕ} (old : id < t.nextId) : extendKey mode key t boxes id = key id := if_pos old

theorem extendKey_fresh (ok : t.IdsOk) {di id : ℕ} {b : Box} (stamped : t.StampedAt boxes di b id)
    (fresh : t.nextId ≤ id) : extendKey mode key t boxes id = canonicalCls b.getCls mode := by
  obtain ⟨hb, hid⟩ := stamped
  obtain ⟨inside, rfl⟩ := List.getElem?_eq_some_iff.mp hid
  have place : (t.stampIds boxes).idxOf (t.stampIds boxes)[di] = di :=
    (stampIds_nodup ok boxes).idxOf_getElem di inside
  rw [extendKey, if_neg (not_lt.mpr fresh), place, hb, Option.map_some, Option.getD_some]

theorem nextId_le_of_born {trk : Track} (born : trk ∈ births t.nextId (t.owners boxes) boxes) :
    t.nextId ≤ trk.id := by
  have range : trk.id ∈ (births t.nextId (t.owners boxes) boxes).map (·.id) := List.mem_map_of_mem born
  rw [births_ids (t.length_owners boxes), List.mem_range'_1] at range
  exact range.1

/-- A detection is of the class of the id that it gets. -/
theorem Keyed.stamped (keyed : Keyed mode key t) {di id : ℕ} {b : Box} (stamped : t.StampedAt boxes di b id) :
    canonicalCls b.getCls mode = extendKey mode key t boxes id := by
  cases stamped_cases stamped with
  | inl claim =>
    obtain ⟨ti, trk, ht, rfl, claimed⟩ := claim
    have kept := @Keyed.advance _ _ _ boxes keyed _ _ ht
    have live : trk.id ∈ t.liveIds := List.mem_map_of_mem (List.mem_of_getElem? ht)
    rw [extendKey_old (keyed.ok.range _ live).2, ← kept, claimed]
    rfl
  | inr born => exact (extendKey_fresh keyed.ok stamped (nextId_le_of_born born)).symm

theorem Keyed.update (keyed : Keyed mode key t) (boxes : List Box) :
    Keyed mode (extendKey mode key t boxes) (t.update boxes).1 where
  ok := keyed.ok.update boxes
  matchMode := by rw [matchMode_update, keyed.matchMode]
  masked := keyed.masked
  pos := by
    rw [update_eq_settle, settle]
    exact keyed.pos
  live := by
    intro trk' mem
    cases mem_tracks_update.mp mem with
    | inl old =>
      obtain ⟨ti, trk, ht, rfl, -⟩ := old
      have live : trk.id ∈ t.liveIds := List.mem_map_of_mem (List.mem_of_getElem? ht)
      rw [Track.advance_id, extendKey_old (keyed.ok.range _ live).2]
      exact keyed.advance ht
    | inr born =>
      obtain ⟨di, b, hb, -, hid, new⟩ := births_cases born
      rw [extendKey_fresh keyed.ok ⟨hb, hid⟩ (nextId_le_of_born born), new]
      rfl

end

end ByteTrackLite

open ByteTrackLite

/-- The call does not change the match mode. -/
def Op.Keeps (mode : MatchMode) : Op → Prop
  | .update _ => True
  | .setParams _ matchMode => ∀ m, matchMode = some m → normalizeMode m = mode

/-- One call: the ids that there were keep their class, and every box returned is of the class of its id. -/
theorem ByteTrackLite.Keyed.apply {mode : MatchMode} {key : ℕ → Int32} {t : ByteTrackLite} (keyed : Keyed mode key t)
    {op : Op} (keeps : op.Keeps mode) :
    ∃ key' : ℕ → Int32, (∀ id, id < t.nextId → key' id = key id) ∧ Keyed mode key' (op.apply t).1 ∧
      ∀ b ∈ (op.apply t).2, ∀ id, b.trackId = some id → canonicalCls b.getCls mode = key' id := by
  cases op with
  | update boxes =>
    refine ⟨_, fun _ => extendKey_old, keyed.update boxes, ?_⟩
    intro b' out id has_id
    obtain ⟨di, b, id', stamped, rfl⟩ := mem_output_iff.mp out
    obtain rfl := Option.some.inj has_id
    rw [Box.stamp_getCls]
    exact keyed.stamped stamped
  | setParams maxAge matchMode =>
    have given : ∀ m, matchMode = some m → normalizeMode m = mode := keeps
    refine ⟨key, fun _ _ => rfl, ⟨⟨keyed.ok.next_pos, keyed.ok.distinct, keyed.ok.range⟩, ?_, keyed.masked,
      keyed.pos, keyed.live⟩, by simp [Op.apply]⟩
    cases matchMode with
    | none => simp [Op.apply, setParams, keyed.matchMode]
    | some m => simp [Op.apply, setParams, given m rfl]

theorem ByteTrackLite.Keyed.run {mode : MatchMode} {key : ℕ → Int32} {t : ByteTrackLite} (keyed : Keyed mode key t)
    {ops : List Op} (keeps : ∀ op ∈ ops, op.Keeps mode) :
    ∃ key' : ℕ → Int32, (∀ id, id < t.nextId → key' id = key id) ∧
      ∀ out ∈ outputs t ops, ∀ b ∈ out, ∀ id, b.trackId = some id → canonicalCls b.getCls mode = key' id := by
  induction ops generalizing t key with
  | nil => exact ⟨key, fun _ _ => rfl, by simp [outputs]⟩
  | cons op ops ih =>
    obtain ⟨keeps_op, keeps_rest⟩ := List.forall_mem_cons.mp keeps
    obtain ⟨key₁, agree₁, keyed₁, here⟩ := keyed.apply keeps_op
    obtain ⟨key₂, agree₂, later⟩ := ih keyed₁ keeps_rest
    refine ⟨key₂, fun id old => ?_, ?_⟩
    · exact (agree₂ id (old.trans_le (nextId_exec_le t [op]))).trans (agree₁ id old)
    · intro out mem b in_out id has_id
      cases List.mem_cons.mp mem with
      | inl first =>
        subst first
        have below : id < (op.apply t).1.nextId :=
          @outputs_below t keyed.ok [op] _ id List.mem_cons_self (mem_trackIds in_out has_id)
        rw [here b in_out id has_id, agree₂ id below]
      | inr rest => exact later out rest b in_out id has_id

theorem keyed_init {iouThr : IouThr} (pos : 0 < iouThr.1) (maxAge : ℤ) {matchMode : String}
    (masked : normalizeMode matchMode ≠ .any) (key : ℕ → Int32) :
    Keyed (normalizeMode matchMode) key (ByteTrackLite.init iouThr maxAge matchMode) where
  ok := idsOk_init iouThr maxAge matchMode
  matchMode := by simp only [ByteTrackLite.init]
  masked := masked
  pos := by simpa only [ByteTrackLite.init] using pos
  live := by simp [ByteTrackLite.init]

/-- What equal keys mean for the classes themselves; -100 and -101 stand for the groups. -/
theorem vehicleGroup_classes {a b : Int32} (plain_a : a ∉ ([-100, -101] : List Int32))
    (plain_b : b ∉ ([-100, -101] : List Int32))
    (same : canonicalCls a .vehicleGroup = canonicalCls b .vehicleGroup) :
    a = b ∨ (a ∈ vehicleGroup4W ∧ b ∈ vehicleGroup4W) ∨ a ∈ vehicleGroup2W ∧ b ∈ vehicleGroup2W := by
  simp only [List.mem_cons, List.not_mem_nil, or_false, not_or] at plain_a plain_b
  simp only [canonicalCls] at same
  by_cases four_a : a ∈ vehicleGroup4W
  · by_cases four_b : b ∈ vehicleGroup4W
    · exact .inr (.inl ⟨four_a, four_b⟩)
    · rw [if_pos four_a, if_neg four_b] at same
      split at same
      · exact absurd same (by decide)
      · exact absurd same.symm plain_b.1
  · by_cases four_b : b ∈ vehicleGroup4W
    · rw [if_neg four_a, if_pos four_b] at same
      split at same
      · exact absurd same (by decide)
      · exact absurd same plain_a.1
    · rw [if_neg four_a, if_neg four_b] at same
      by_cases two_a : a ∈ vehicleGroup2W
      · by_cases two_b : b ∈ vehicleGroup2W
        · exact .inr (.inr ⟨two_a, two_b⟩)
        · rw [if_pos two_a, if_neg two_b] at same
          exact absurd same.symm plain_b.2
      · by_cases two_b : b ∈ vehicleGroup2W
        · rw [if_neg two_a, if_pos two_b] at same
          exact absurd same plain_a.2
        · rw [if_neg two_a, if_neg two_b] at same
          exact .inl same

/-- While the match mode stays `strict`, or stays `vehicle_group`, any two detections that ever get
    the same id have the same canonical class: the same class, or with `vehicle_group` two of one group. -/
theorem class_safety (iouThr : IouThr) (pos : 0 < iouThr.1) (maxAge : ℤ) (matchMode : String)
    (masked : normalizeMode matchMode ≠ .any) (ops : List Op) (keeps : ∀ op ∈ ops, op.Keeps (normalizeMode matchMode)) :
    let outs := outputs (ByteTrackLite.init iouThr maxAge matchMode) ops
    ∀ out ∈ outs, ∀ out' ∈ outs, ∀ b ∈ out, ∀ b' ∈ out', ∀ id, b.trackId = some id → b'.trackId = some id →
      canonicalCls b.getCls (normalizeMode matchMode) = canonicalCls b'.getCls (normalizeMode matchMode) ∧
      (normalizeMode matchMode = .strict → b.getCls = b'.getCls) ∧
      (normalizeMode matchMode = .vehicleGroup →
        b.getCls ∉ ([-100, -101] : List Int32) → b'.getCls ∉ ([-100, -101] : List Int32) →
        b.getCls = b'.getCls ∨ (b.getCls ∈ vehicleGroup4W ∧ b'.getCls ∈ vehicleGroup4W) ∨
          b.getCls ∈ vehicleGroup2W ∧ b'.getCls ∈ vehicleGroup2W) := by
  intro outs out mem out' mem' b in_out b' in_out' id has_id has_id'
  obtain ⟨key, -, keyed⟩ := (keyed_init pos maxAge masked fun _ => 0).run keeps
  have same := (keyed out mem b in_out id has_id).trans (keyed out' mem' b' in_out' id has_id').symm
  refine ⟨same, fun strict => ?_, fun group plain plain' => ?_⟩
  · rw [strict] at same
    exact same
  · rw [group] at same
    exact vehicleGroup_classes plain plain' same

/-- A car and a van in its place may share an id, whatever `max_age` is in between; a walker may not. -/
theorem class_safety_vehicles :
    let t₀ := ByteTrackLite.init ⟨3 / 10, by norm_num⟩ 90 "vehicle_group"
    let ops : List Op := [.update [car], .setParams (some 5) none, .update [{ car with cls := some 7 }, walker]]
    outputs t₀ ops = [[car.stamp 1], [], [{ car.stamp 1 with cls := some 7 }, walker.stamp 2]] ∧
      canonicalCls 2 .vehicleGroup = canonicalCls 7 .vehicleGroup := by
  intro t₀ ops
  have run : outputs t₀ ops = [[car.stamp 1], [], [{ car.stamp 1 with cls := some 7 }, walker.stamp 2]] := by
    rw [show t₀ = ByteTrackLite.init ⟨3 / 10, by norm_num⟩ 90 "vehicle_group" from rfl]
    decide +kernel
  have keeps : ∀ op ∈ ops, op.Keeps (normalizeMode "vehicle_group") := by
    intro op mem
    simp only [ops, List.mem_cons, List.not_mem_nil, or_false] at mem
    obtain rfl | rfl | rfl := mem
    · exact trivial
    · intro m given
      cases given
    · exact trivial
  have safe := class_safety ⟨3 / 10, by norm_num⟩ (by decide +kernel) 90 "vehicle_group" (by decide +kernel) ops keeps
  have outs := run
  rw [show outputs t₀ ops = outputs (ByteTrackLite.init ⟨3 / 10, by norm_num⟩ 90 "vehicle_group") ops from rfl] at outs
  rw [outs] at safe
  have mode : normalizeMode "vehicle_group" = .vehicleGroup := by decide +kernel
  obtain ⟨same, -⟩ := safe [car.stamp 1] (by simp) _ (List.mem_cons_of_mem _ (List.mem_cons_of_mem _ List.mem_cons_self))
    (car.stamp 1) (by simp) _ List.mem_cons_self 1 rfl rfl
  rw [mode] at same
  exact ⟨run, same⟩

end VisionNx.Tracker
