import VisionNx.Agent.TrackUuids
import VisionNx.Library.LruHistory

/-! # The cache of track UUIDs drops what was resolved longest ago

With its list and its map in step, the cache holds what its history of resolutions
calls for, and an id keeps its UUID as long as it is not dropped. -/

namespace VisionNx.Agent

open LruHistory

variable {U : Type} {c c' : TrackUuids U} {tid : ℤ} {node : Node U}

/-! ## The list and the map -/

/-- The map has an iterator to each node of the list and no other. -/
structure TrackUuids.Indexed (c : TrackUuids U) : Prop where
  index : ∀ tid address, c.index tid = some address ↔ ∃ node ∈ c.lru, node.tid = tid ∧ node.address = address
  tids : (c.lru.map (·.tid)).Nodup
  addresses : (c.lru.map (·.address)).Nodup
  allocated : ∀ node ∈ c.lru, node.address < c.addresses

def TrackUuids.entries (c : TrackUuids U) : List (ℤ × U) := c.lru.map fun node => (node.tid, node.uuid)

theorem indexed_empty : ({} : TrackUuids U).Indexed where
  index := by simp
  tids := List.nodup_nil
  addresses := List.nodup_nil
  allocated := nofun

theorem TrackUuids.Indexed.eq_of_tid (indexed : c.Indexed) {node' : Node U} (mem : node ∈ c.lru)
    (mem' : node' ∈ c.lru) (same : node.tid = node'.tid) : node = node' :=
  List.inj_on_of_nodup_map indexed.tids mem mem' same

theorem TrackUuids.Indexed.eq_of_address (indexed : c.Indexed) {node' : Node U} (mem : node ∈ c.lru)
    (mem' : node' ∈ c.lru) (same : node.address = node'.address) : node = node' :=
  List.inj_on_of_nodup_map indexed.addresses mem mem' same

theorem TrackUuids.Indexed.find_iff (indexed : c.Indexed) :
    c.find tid = some node ↔ node ∈ c.lru ∧ node.tid = tid := by
  rw [TrackUuids.find, Option.bind_eq_some_iff]
  constructor
  · rintro ⟨address, at_tid, found⟩
    obtain ⟨node', mem', is_tid, is_address⟩ := (indexed.index tid address).mp at_tid
    have mem := List.mem_of_find?_eq_some found
    have same : node.address = address := by simpa using List.find?_some found
    obtain rfl := indexed.eq_of_address mem mem' (same.trans is_address.symm)
    exact ⟨mem, is_tid⟩
  · rintro ⟨mem, is_tid⟩
    refine ⟨node.address, (indexed.index tid node.address).mpr ⟨node, mem, is_tid, rfl⟩, ?_⟩
    obtain ⟨node', found⟩ := Option.isSome_iff_exists.mp
      (List.find?_isSome (p := fun n : Node U => decide (n.address = node.address)) |>.mpr ⟨node, mem, by simp⟩)
    have same : node'.address = node.address := by simpa using List.find?_some found
    rw [found, indexed.eq_of_address (List.mem_of_find?_eq_some found) mem same]

theorem TrackUuids.Indexed.find_none (indexed : c.Indexed) (missing : c.find tid = none) :
    ∀ node ∈ c.lru, node.tid ≠ tid := by
  intro node mem is_tid
  cases missing.symm.trans (indexed.find_iff.mpr ⟨mem, is_tid⟩)

/-! ## The operations -/

theorem TrackUuids.Indexed.splice_lru (indexed : c.Indexed) (mem : node ∈ c.lru) :
    (c.splice node).lru = node :: c.lru.filter (·.tid ≠ node.tid) := by
  refine congrArg (node :: ·) (List.filter_congr fun node' mem' => ?_)
  refine decide_eq_decide.mpr (not_congr ⟨fun same => ?_, fun same => ?_⟩)
  · rw [indexed.eq_of_address mem' mem same]
  · rw [indexed.eq_of_tid mem' mem same]

theorem TrackUuids.Indexed.splice_entries (indexed : c.Indexed) (mem : node ∈ c.lru) :
    (c.splice node).entries = (node.tid, node.uuid) :: c.entries.filter (·.1 ≠ node.tid) := by
  rw [TrackUuids.entries, indexed.splice_lru mem, List.map_cons, TrackUuids.entries, List.filter_map]
  rfl

theorem TrackUuids.Indexed.splice (indexed : c.Indexed) (mem : node ∈ c.lru) : (c.splice node).Indexed := by
  have members : ∀ node', node' ∈ (c.splice node).lru ↔ node' ∈ c.lru := by
    intro node'
    rw [indexed.splice_lru mem, List.mem_cons, List.mem_filter]
    constructor
    · rintro (rfl | ⟨mem', -⟩)
      · exact mem
      · exact mem'
    · intro mem'
      by_cases same : node'.tid = node.tid
      · exact .inl (indexed.eq_of_tid mem' mem same)
      · exact .inr ⟨mem', decide_eq_true same⟩
  refine ⟨fun tid address => ?_, ?_, ?_, fun node' mem' => indexed.allocated node' ((members node').mp mem')⟩
  · exact (indexed.index tid address).trans (exists_congr fun node' => and_congr_left fun _ => (members node').symm)
  · rw [indexed.splice_lru mem]
    refine List.nodup_cons.mpr ⟨?_, indexed.tids.sublist (List.filter_sublist.map _)⟩
    simp
  · refine List.nodup_cons.mpr ⟨?_, indexed.addresses.sublist (List.filter_sublist.map _)⟩
    simp

theorem TrackUuids.Indexed.insert (indexed : c.Indexed) (missing : ∀ node ∈ c.lru, node.tid ≠ tid) (uuid : U) :
    (c.insert tid uuid).Indexed where
  index tid' address := by
    simp only [TrackUuids.insert, List.mem_cons, exists_eq_or_imp]
    by_cases same : tid' = tid
    · subst same
      rw [Function.update_self, Option.some.injEq]
      refine ⟨fun is => .inl ⟨rfl, is⟩, fun is => is.elim And.right ?_⟩
      rintro ⟨node, mem, is_tid, -⟩
      exact absurd is_tid (missing node mem)
    · rw [Function.update_of_ne same, indexed.index]
      exact (or_iff_right fun is => same is.1.symm).symm
  tids := by
    refine List.nodup_cons.mpr ⟨fun mem => ?_, indexed.tids⟩
    obtain ⟨node, mem, is_tid⟩ := List.mem_map.mp mem
    exact missing node mem is_tid
  addresses := by
    refine List.nodup_cons.mpr ⟨fun mem => ?_, indexed.addresses⟩
    obtain ⟨node, mem, is⟩ := List.mem_map.mp mem
    exact (indexed.allocated node mem).ne is
  allocated node mem := by
    cases List.mem_cons.mp mem with
    | inl new => simp [new, TrackUuids.insert]
    | inr old => exact (indexed.allocated node old).trans (Nat.lt_succ_self _)

/-- One round of the loop that evicts. -/
theorem TrackUuids.Indexed.dropLast (indexed : c.Indexed) {victim : Node U} (last : c.lru.getLast? = some victim) :
    { c with lru := c.lru.dropLast, index := Function.update c.index victim.tid none }.Indexed := by
  obtain ⟨rest, split⟩ := List.getLast?_eq_some_iff.mp last
  have distinct := indexed.tids
  rw [split, List.map_append, List.nodup_append] at distinct
  refine ⟨fun tid address => ?_, ?_, ?_, fun node mem => indexed.allocated node (List.dropLast_subset _ mem)⟩
  · simp only [split, List.dropLast_concat]
    by_cases same : tid = victim.tid
    · subst same
      rw [Function.update_self]
      refine iff_of_false nofun ?_
      rintro ⟨node, mem, is_tid, -⟩
      exact distinct.2.2 _ (List.mem_map_of_mem mem) _ (by simp) is_tid
    · rw [Function.update_of_ne same, indexed.index, split]
      refine exists_congr fun node => ?_
      simp only [List.mem_append, List.mem_singleton]
      refine ⟨fun ⟨mem, is⟩ => ⟨mem.resolve_right ?_, is⟩, fun ⟨mem, is⟩ => ⟨.inl mem, is⟩⟩
      rintro rfl
      exact same is.1.symm
  · exact indexed.tids.sublist ((List.dropLast_sublist _).map _)
  · exact indexed.addresses.sublist ((List.dropLast_sublist _).map _)

/-- The loop leaves the first `cap` nodes. -/
theorem TrackUuids.Indexed.evict (indexed : c.Indexed) {cap fuel : ℕ} (enough : c.lru.length ≤ cap + fuel) :
    (c.evict cap fuel).Indexed ∧ (c.evict cap fuel).lru = c.lru.take cap := by
  induction fuel generalizing c with
  | zero => exact ⟨indexed, (List.take_of_length_le enough).symm⟩
  | succ fuel ih =>
    rw [TrackUuids.evict]
    split
    next nothing => exact ⟨indexed, by simp [List.getLast?_eq_none_iff.mp nothing]⟩
    next victim last =>
      split
      next full =>
        obtain ⟨evicted, left⟩ := ih (indexed.dropLast last) (by
          rw [List.length_dropLast]
          omega)
        refine ⟨evicted, left.trans ?_⟩
        rw [List.dropLast_eq_take, List.take_take, Nat.min_eq_left (by omega)]
      next fits => exact ⟨indexed, (List.take_of_length_le (by omega)).symm⟩

/-! ## Resolving -/

/-- Resolving an id is a use of an LRU list. -/
theorem resolve_entries (cap : ℕ) (random : ℕ → U) (indexed : c.Indexed) {uuid : U} {isNew : Bool}
    (resolved : resolveTrackUuid cap random tid c = ((uuid, isNew), c')) :
    c'.Indexed ∧
    ((c'.drawn = c.drawn ∧ (tid, uuid) ∈ c.entries ∧
        c'.entries = (tid, uuid) :: c.entries.filter (·.1 ≠ tid)) ∨
      (c'.drawn = c.drawn + 1 ∧ uuid = random c.drawn ∧ (∀ e ∈ c.entries, e.1 ≠ tid) ∧
        c'.entries = ((tid, uuid) :: c.entries).take cap)) := by
  rw [resolveTrackUuid] at resolved
  split at resolved
  next node found =>
    obtain ⟨mem, is_tid⟩ := indexed.find_iff.mp found
    cases resolved
    subst is_tid
    exact ⟨indexed.splice mem, .inl ⟨rfl, List.mem_map_of_mem mem, indexed.splice_entries mem⟩⟩
  next missing =>
    have missing := indexed.find_none missing
    cases resolved
    have drawn : { c with drawn := c.drawn + 1 }.Indexed :=
      ⟨indexed.index, indexed.tids, indexed.addresses, indexed.allocated⟩
    obtain ⟨evicted, left⟩ := (drawn.insert missing (random c.drawn)).evict (Nat.le_add_left _ cap)
    refine ⟨evicted, .inr ⟨(evict_subset cap _ _).2.2.2, rfl, ?_, ?_⟩⟩
    · intro e mem
      obtain ⟨node, in_lru, rfl⟩ := List.mem_map.mp mem
      exact missing node in_lru
    · exact (congrArg (List.map fun node => (node.tid, node.uuid)) left).trans List.map_take

/-! ## The history -/

/-- The cache is what the resolutions so far, the latest first, call for. -/
structure Follows (cap : ℕ) (random : ℕ → U) (c : TrackUuids U) (h : List (ℤ × U)) : Prop where
  indexed : c.Indexed
  used : Used cap h
  entries : c.entries = (latest h).take cap
  drawn : ∀ e ∈ h, ∃ k < c.drawn, e.2 = random k

theorem follows_empty (cap : ℕ) (random : ℕ → U) : Follows cap random {} [] where
  indexed := indexed_empty
  used := .nil
  entries := List.take_nil.symm
  drawn := nofun

theorem Follows.draw {cap : ℕ} {random : ℕ → U} {h : List (ℤ × U)} (follows : Follows cap random c h) :
    Follows cap random { c with drawn := c.drawn + 1 } h where
  indexed := ⟨follows.indexed.index, follows.indexed.tids, follows.indexed.addresses, follows.indexed.allocated⟩
  used := follows.used
  entries := follows.entries
  drawn := fun e mem => by
    obtain ⟨k, before, is⟩ := follows.drawn e mem
    exact ⟨k, before.trans (Nat.lt_succ_self _), is⟩

theorem Follows.resolve {cap : ℕ} {random : ℕ → U} {h : List (ℤ × U)} (follows : Follows cap random c h)
    (positive : 0 < cap) (distinct : Function.Injective random) {uuid : U} {isNew : Bool}
    (resolved : resolveTrackUuid cap random tid c = ((uuid, isNew), c')) :
    Follows cap random c' ((tid, uuid) :: h) := by
  obtain ⟨indexed, ⟨drawn, held, entries⟩ | ⟨drawn, uuid_eq, absent, entries⟩⟩ :=
    resolve_entries cap random follows.indexed resolved
  · rw [follows.entries] at held entries
    refine ⟨indexed, follows.used.hit held, entries.trans (take_latest_hit held).symm, ?_⟩
    have old := follows.drawn (tid, uuid) (mem_of_mem_latest (List.mem_of_mem_take held))
    rw [drawn]
    exact List.forall_mem_cons.mpr ⟨old, follows.drawn⟩
  · rw [follows.entries] at absent entries
    refine ⟨indexed, follows.used.miss absent fun e mem same => ?_, entries.trans (take_latest_miss positive absent).symm, ?_⟩
    · -- The UUID has not been drawn before.
      obtain ⟨k, before, is⟩ := follows.drawn e mem
      exact before.ne (distinct (is.symm.trans (same.trans uuid_eq)))
    · rw [drawn]
      refine List.forall_mem_cons.mpr ⟨⟨_, Nat.lt_succ_self _, uuid_eq⟩, fun e mem => ?_⟩
      obtain ⟨k, before, is⟩ := follows.drawn e mem
      exact ⟨k, before.trans (Nat.lt_succ_self _), is⟩

end VisionNx.Agent
