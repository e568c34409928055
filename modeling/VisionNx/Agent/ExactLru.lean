import VisionNx.Agent.LiveTracks

/-! # The cache of track UUIDs is an exact LRU map

The list and the map together are the last calls for each id, latest first, cut off at
the cap.  Whether a call finds its id is a matter of how many other ids have been
resolved since. -/

namespace VisionNx.Agent

open LruHistory

variable {U : Type} {c c' : TrackUuids U} {cap : ℕ} {random : ℕ → U} {tid : ℤ}

theorem TrackUuids.Indexed.linked (indexed : c.Indexed) : c.Linked where
  points := by
    intro tid address at_tid
    obtain ⟨node, mem, rfl, rfl⟩ := (indexed.index tid address).mp at_tid
    exact ⟨indexed.allocated node mem, fun node' mem' same => congrArg Node.tid (indexed.eq_of_address mem' mem same)⟩
  allocated := indexed.allocated

/-- The keys of the map are the ids in the list, and each leads to its own node. -/
structure TrackUuids.InStep (c : TrackUuids U) : Prop where
  keys : ∀ tid, (c.index tid).isSome ↔ tid ∈ c.lru.map (·.tid)
  once : (c.lru.map (·.tid)).Nodup
  own : ∀ node ∈ c.lru, c.find node.tid = some node

theorem TrackUuids.Indexed.inStep (indexed : c.Indexed) : c.InStep where
  keys tid := by
    rw [Option.isSome_iff_exists, List.mem_map]
    constructor
    · rintro ⟨address, at_tid⟩
      obtain ⟨node, mem, is_tid, -⟩ := (indexed.index tid address).mp at_tid
      exact ⟨node, mem, is_tid⟩
    · rintro ⟨node, mem, is_tid⟩
      exact ⟨node.address, (indexed.index tid node.address).mpr ⟨node, mem, is_tid, rfl⟩⟩
  once := indexed.tids
  own node mem := indexed.find_iff.mpr ⟨mem, rfl⟩

/-- The node is held and keeps its UUID, or a UUID is drawn. -/
theorem Follows.resolve_cases {h : List (ℤ × U)} (follows : Follows cap random c h) {uuid : U} {isNew : Bool}
    (resolved : resolveTrackUuid cap random tid c = ((uuid, isNew), c')) :
    (isNew = false ∧ (tid, uuid) ∈ (latest h).take cap) ∨
      (isNew = true ∧ (∀ e ∈ (latest h).take cap, e.1 ≠ tid) ∧ uuid = random c.drawn) := by
  obtain ⟨-, outcome⟩ := VisionNx.Agent.resolve_cases cap random tid follows.indexed.linked resolved
  obtain ⟨-, entries⟩ := resolve_entries cap random follows.indexed resolved
  rw [follows.entries] at entries
  cases outcome with
  | inl hit =>
    obtain ⟨flag, drawn, -⟩ := hit
    cases entries with
    | inl held => exact .inl ⟨flag, held.2.1⟩
    | inr absent =>
      have := absent.1
      omega
  | inr miss =>
    obtain ⟨flag, is_random, drawn, -⟩ := miss
    cases entries with
    | inl held =>
      have := held.1
      omega
    | inr absent => exact .inr ⟨flag, absent.2.2.1, is_random⟩

/-! ## The calls -/

/-- Among `calls`, oldest first, `e` is the last one for its id, and `between` are those since. -/
def LastCall (calls : List (ℤ × U)) (tid : ℤ) (e : ℤ × U) (between : List (ℤ × U)) : Prop :=
  (∃ older, calls = older ++ e :: between) ∧ e.1 = tid ∧ tid ∉ between.map Prod.fst

theorem LastCall.reverse {calls : List (ℤ × U)} {e : ℤ × U} {between : List (ℤ × U)}
    (last : LastCall calls tid e between) :
    ∃ older, calls.reverse = between.reverse ++ e :: older ∧ e.1 ∉ between.reverse.map Prod.fst := by
  obtain ⟨⟨older, rfl⟩, rfl, unused⟩ := last
  refine ⟨older.reverse, by simp, ?_⟩
  rw [List.map_reverse, List.mem_reverse]
  exact unused

theorem exists_lastCall {calls : List (ℤ × U)} {e : ℤ × U} (mem : e ∈ calls.reverse) :
    ∃ e' between, LastCall calls e.1 e' between := by
  obtain ⟨newer, e', older, split, same, unused⟩ := exists_last_use (List.mem_map_of_mem mem)
  refine ⟨e', newer.reverse, ⟨older.reverse, ?_⟩, same, ?_⟩
  · rw [← List.reverse_reverse calls, split]
    simp
  · rw [List.map_reverse, List.mem_reverse]
    exact unused

theorem LastCall.held_iff {calls : List (ℤ × U)} {e : ℤ × U} {between : List (ℤ × U)}
    (last : LastCall calls tid e between) :
    (∃ e' ∈ (latest calls.reverse).take cap, e'.1 = tid) ↔ (between.map Prod.fst).toFinset.card < cap := by
  obtain ⟨older, split, unused⟩ := last.reverse
  rw [split, ← last.2.1, LruHistory.held_iff unused, List.map_reverse, List.toFinset_reverse]

/-- A call finds its id exactly if there was a call for it and fewer than `cap` other ids were resolved since. -/
theorem Follows.hit_iff {calls : List (ℤ × U)} (follows : Follows cap random c calls.reverse) {uuid : U} {isNew : Bool}
    (resolved : resolveTrackUuid cap random tid c = ((uuid, isNew), c')) :
    (∃ e between, LastCall calls tid e between ∧ uuid = e.2 ∧ isNew = false) ↔
      ∃ e between, LastCall calls tid e between ∧ (between.map Prod.fst).toFinset.card < cap := by
  constructor
  · rintro ⟨e, between, last, -, flag⟩
    refine ⟨e, between, last, last.held_iff.mp ?_⟩
    cases follows.resolve_cases resolved with
    | inl held => exact ⟨_, held.2, rfl⟩
    | inr absent =>
      rw [absent.1] at flag
      cases flag
  · rintro ⟨e, between, last, few⟩
    obtain ⟨e', held, same⟩ := last.held_iff.mpr few
    cases follows.resolve_cases resolved with
    | inl hit =>
      obtain ⟨older, split, unused⟩ := last.reverse
      have is_last := List.mem_of_mem_take hit.2
      rw [split] at is_last
      have same := eq_of_mem_latest unused is_last last.2.1.symm
      exact ⟨e, between, last, congrArg Prod.snd same, hit.1⟩
    | inr absent => exact absurd same (absent.2.1 e' held)

/-- A call that does not find its id returns a UUID that no call has returned. -/
theorem Follows.new_of_miss {calls : List (ℤ × U)} (follows : Follows cap random c calls.reverse)
    (distinct : Function.Injective random) {uuid : U} {isNew : Bool}
    (resolved : resolveTrackUuid cap random tid c = ((uuid, isNew), c'))
    (missed : ¬ ∃ e between, LastCall calls tid e between ∧ (between.map Prod.fst).toFinset.card < cap) :
    isNew = true ∧ ∀ e ∈ calls, e.2 ≠ uuid := by
  cases follows.resolve_cases resolved with
  | inl hit =>
    obtain ⟨e, between, last⟩ := exists_lastCall (mem_of_mem_latest (List.mem_of_mem_take hit.2))
    exact absurd ⟨e, between, last, last.held_iff.mp ⟨_, hit.2, rfl⟩⟩ missed
  | inr miss =>
    refine ⟨miss.1, fun e mem same => ?_⟩
    obtain ⟨k, before, is⟩ := follows.drawn e (List.mem_reverse.mpr mem)
    exact before.ne (distinct (is.symm.trans (same.trans miss.2.2)))

/-- Of two nodes, the first one's id has been resolved since the other's. -/
theorem Follows.ordered {h : List (ℤ × U)} (follows : Follows cap random c h) :
    c.lru.Pairwise fun node node' => ∃ newer older, h.map Prod.fst = newer ++ node.tid :: older ∧ node'.tid ∉ newer := by
  have ordered := (latest_ordered h).sublist (List.take_sublist cap _)
  rw [← follows.entries, TrackUuids.entries, List.pairwise_map] at ordered
  exact ordered

theorem Follows.length_le {h : List (ℤ × U)} (follows : Follows cap random c h) : c.lru.length ≤ cap := by
  have entries := congrArg List.length follows.entries
  rw [TrackUuids.entries, List.length_map, List.length_take] at entries
  omega

/-- `resolveTrackUuid` after any calls, starting from an empty cache, for every cap: the map and the list are
    in step, the list is ordered by the most recent call and within the cap; a call returns the UUID of
    the previous call for its id, as not new, exactly if there was one and fewer than `cap` other ids have been
    resolved since, and else a UUID that was never returned before, as new; no two ids ever share a UUID. -/
theorem resolveTrackUuid_exact (positive : 0 < cap) (distinct : Function.Injective random) (tids : List ℤ) (tid : ℤ) :
    let calls := (resolveIds cap random tids {}).1
    let c := (resolveIds cap random tids {}).2
    let result := (resolveTrackUuid cap random tid c).1
    let recent := ∃ e between, LastCall calls tid e between ∧ (between.map Prod.fst).toFinset.card < cap
    calls.map Prod.fst = tids ∧
    c.InStep ∧ c.lru.length ≤ cap ∧
    (c.lru.Pairwise fun node node' => ∃ older newer, tids = older ++ node.tid :: newer ∧ node'.tid ∉ newer) ∧
    ((∃ e between, LastCall calls tid e between ∧ result.1 = e.2 ∧ result.2 = false) ↔ recent) ∧
    (¬ recent → result.2 = true ∧ ∀ e ∈ calls, e.2 ≠ result.1) ∧
    ∀ e ∈ calls, ∀ e' ∈ calls, e.2 = e'.2 → e.1 = e'.1 := by
  intro calls c result recent
  have ids : calls.map Prod.fst = tids := resolveIds_fst tids {}
  have follows : Follows cap random c calls.reverse := by
    have run := (follows_empty cap random).ids positive distinct tids
    rwa [List.append_nil] at run
  have keys : calls.reverse.map Prod.fst = tids.reverse := by rw [List.map_reverse, ids]
  refine ⟨ids, follows.indexed.inStep, follows.length_le, ?_, follows.hit_iff rfl, follows.new_of_miss distinct rfl, ?_⟩
  · refine follows.ordered.imp fun {node node'} earlier => ?_
    obtain ⟨newer, older, split, apart⟩ := earlier
    rw [keys] at split
    refine ⟨older.reverse, newer.reverse, ?_, by rwa [List.mem_reverse]⟩
    rw [← List.reverse_reverse tids, split]
    simp
  · intro e mem e' mem' same
    exact follows.used.key_of_value e (List.mem_reverse.mpr mem) e' (List.mem_reverse.mpr mem') same

/-- With room for two ids: 1 is still held when it is resolved again, 2 then is not. -/
theorem resolveTrackUuid_exact_two :
    ((resolveTrackUuid 2 id 1 (resolveIds 2 id [1, 2] {}).2).1 = (0, false) ∧
      ∃ e between, LastCall (resolveIds 2 id [1, 2] {}).1 1 e between ∧ (between.map Prod.fst).toFinset.card < 2) ∧
    (resolveTrackUuid 2 id 2 (resolveIds 2 id [1, 2, 1, 3] {}).2).1 = (3, true) ∧
      ¬ ∃ e between, LastCall (resolveIds 2 id [1, 2, 1, 3] {}).1 2 e between ∧
        (between.map Prod.fst).toFinset.card < 2 := by
  obtain ⟨-, -, -, -, held, -⟩ := @resolveTrackUuid_exact ℕ 2 id (by decide) Function.injective_id [1, 2] 1
  obtain ⟨-, -, -, -, dropped, -⟩ := @resolveTrackUuid_exact ℕ 2 id (by decide) Function.injective_id [1, 2, 1, 3] 2
  refine ⟨⟨by decide +kernel, held.mp ⟨(1, 0), [(2, 1)], ⟨⟨[], by decide +kernel⟩, rfl, by decide⟩, by decide +kernel,
    by decide +kernel⟩⟩, by decide +kernel, fun recent => ?_⟩
  obtain ⟨e, between, -, -, old⟩ := dropped.mpr recent
  exact absurd old (by decide +kernel)

end VisionNx.Agent
