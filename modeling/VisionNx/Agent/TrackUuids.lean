import Mathlib.Data.List.Basic
import Mathlib.Order.Nat

/-! # The cache of track UUIDs

`m_trackUuidLru` is a linked list, most recently used first, and `m_trackUuids` maps an
id of the worker to a node of it.  A node keeps its address when it moves. -/

namespace VisionNx.Agent

/-- `TrackUuidEntry`, with the address of its node. -/
structure Node (U : Type) where
  address : ℕ
  tid : ℤ
  uuid : U

/-- `drawn` counts the calls of `UuidHelper::randomUuid`, and `addresses` those that the
    allocator has given out. -/
structure TrackUuids (U : Type) where
  lru : List (Node U) := []
  index : ℤ → Option ℕ := fun _ => none
  addresses : ℕ := 0
  drawn : ℕ := 0

def trackUuidCap : ℕ := 4096

variable {U : Type}

/-- `UuidHelper::randomUuid`, which draws from a sequence. -/
def TrackUuids.randomUuid (random : ℕ → U) (c : TrackUuids U) : U × TrackUuids U :=
  (random c.drawn, { c with drawn := c.drawn + 1 })

/-- What `find` gives, as the node that the iterator points to. -/
def TrackUuids.find (c : TrackUuids U) (tid : ℤ) : Option (Node U) :=
  (c.index tid).bind fun address => c.lru.find? (·.address = address)

/-- `splice` of a node to the front. -/
def TrackUuids.splice (c : TrackUuids U) (node : Node U) : TrackUuids U :=
  { c with lru := node :: c.lru.filter (·.address ≠ node.address) }

/-- `push_front` and `emplace`. -/
def TrackUuids.insert (c : TrackUuids U) (tid : ℤ) (uuid : U) : TrackUuids U :=
  { c with
    lru := ⟨c.addresses, tid, uuid⟩ :: c.lru
    index := Function.update c.index tid (some c.addresses)
    addresses := c.addresses + 1 }

/-- The loop that removes nodes from the back, at most one a round. -/
def TrackUuids.evict (cap : ℕ) : ℕ → TrackUuids U → TrackUuids U
  | 0, c => c
  | fuel + 1, c =>
    match c.lru.getLast? with
    | none => c
    | some victim =>
      if cap < c.lru.length then
        evict cap fuel { c with
          lru := c.lru.dropLast
          index := Function.update c.index victim.tid none }
      else c

/-- The UUID, and whether it is new. -/
def resolveTrackUuid (cap : ℕ) (random : ℕ → U) (tid : ℤ) (c : TrackUuids U) : (U × Bool) × TrackUuids U :=
  match c.find tid with
  | some node => ((node.uuid, false), c.splice node)
  | none =>
    let (uuid, c) := c.randomUuid random
    let c := c.insert tid uuid
    ((uuid, true), c.evict cap c.lru.length)

/-! ## Nodes and iterators -/

/-- An iterator only points to a node with its own id, and no address is given out twice. -/
structure TrackUuids.Linked (c : TrackUuids U) : Prop where
  points : ∀ tid address, c.index tid = some address →
    address < c.addresses ∧ ∀ node ∈ c.lru, node.address = address → node.tid = tid
  allocated : ∀ node ∈ c.lru, node.address < c.addresses

variable {c c' : TrackUuids U} {tid : ℤ} {node : Node U}

theorem TrackUuids.Linked.find (linked : c.Linked) (found : c.find tid = some node) :
    node ∈ c.lru ∧ node.tid = tid := by
  obtain ⟨address, at_tid, at_address⟩ := Option.bind_eq_some_iff.mp found
  have mem := List.mem_of_find?_eq_some at_address
  have same : node.address = address := by simpa using List.find?_some at_address
  exact ⟨mem, (linked.points tid address at_tid).2 node mem same⟩

theorem mem_splice (mem : node ∈ c.lru) {node' : Node U} (kept : node' ∈ (c.splice node).lru) :
    node' ∈ c.lru := by
  obtain rfl | kept := List.mem_cons.mp kept
  · exact mem
  · exact (List.mem_filter.mp kept).1

theorem TrackUuids.Linked.of_subset (linked : c.Linked) (lru : ∀ node ∈ c'.lru, node ∈ c.lru)
    (index : ∀ tid address, c'.index tid = some address → c.index tid = some address)
    (addresses : c'.addresses = c.addresses) : c'.Linked where
  points := fun tid address at_tid => by
    obtain ⟨allocated, own⟩ := linked.points tid address (index tid address at_tid)
    exact ⟨addresses.symm ▸ allocated, fun node mem => own node (lru node mem)⟩
  allocated := fun node mem => addresses.symm ▸ linked.allocated node (lru node mem)

theorem TrackUuids.Linked.insert (linked : c.Linked) (tid : ℤ) (uuid : U) : (c.insert tid uuid).Linked where
  points := by
    intro tid' address at_tid
    -- The new iterator points to the new node; the address is not that of an old one.
    by_cases same : tid' = tid
    · subst same
      simp only [TrackUuids.insert, Function.update_self, Option.some.injEq] at at_tid
      subst at_tid
      refine ⟨Nat.lt_succ_self _, fun node mem is => ?_⟩
      obtain rfl | old := List.mem_cons.mp mem
      · rfl
      · have := linked.allocated node old
        omega
    · simp only [TrackUuids.insert, Function.update_of_ne same] at at_tid
      obtain ⟨allocated, own⟩ := linked.points tid' address at_tid
      refine ⟨allocated.trans (Nat.lt_succ_self _), fun node mem is => ?_⟩
      obtain rfl | old := List.mem_cons.mp mem
      · exact absurd is allocated.ne'
      · exact own node old is
  allocated := by
    intro node mem
    obtain rfl | old := List.mem_cons.mp mem
    · exact Nat.lt_succ_self _
    · exact (linked.allocated node old).trans (Nat.lt_succ_self _)

theorem evict_subset (cap fuel : ℕ) (c : TrackUuids U) :
    (∀ node ∈ (c.evict cap fuel).lru, node ∈ c.lru) ∧
    (∀ tid address, (c.evict cap fuel).index tid = some address → c.index tid = some address) ∧
    (c.evict cap fuel).addresses = c.addresses ∧ (c.evict cap fuel).drawn = c.drawn := by
  induction fuel generalizing c with
  | zero => exact ⟨fun _ mem => mem, fun _ _ at_tid => at_tid, rfl, rfl⟩
  | succ fuel ih =>
    unfold TrackUuids.evict
    split
    · exact ⟨fun _ mem => mem, fun _ _ at_tid => at_tid, rfl, rfl⟩
    next victim last =>
      split
      · obtain ⟨lru, index, addresses, drawn⟩ := ih { c with
          lru := c.lru.dropLast
          index := Function.update c.index victim.tid none }
        refine ⟨fun node mem => List.dropLast_subset _ (lru node mem), fun tid address at_tid => ?_, addresses, drawn⟩
        have left : Function.update c.index victim.tid none tid = some address := index tid address at_tid
        -- The iterator of the victim is gone, and no other has changed.
        by_cases same : tid = victim.tid
        · simp [same] at left
        · rwa [Function.update_of_ne same] at left
      · exact ⟨fun _ mem => mem, fun _ _ at_tid => at_tid, rfl, rfl⟩

/-- Resolving an id either finds the node that has it, or draws a UUID for it. -/
theorem resolve_cases (cap : ℕ) (random : ℕ → U) (tid : ℤ) (linked : c.Linked) {uuid : U} {isNew : Bool}
    (resolved : resolveTrackUuid cap random tid c = ((uuid, isNew), c')) :
    c'.Linked ∧
    ((isNew = false ∧ c'.drawn = c.drawn ∧
        (∃ node, c.find tid = some node ∧ node ∈ c.lru ∧ node.tid = tid ∧ node.uuid = uuid) ∧
        ∀ node ∈ c'.lru, node ∈ c.lru) ∨
      (isNew = true ∧ uuid = random c.drawn ∧ c'.drawn = c.drawn + 1 ∧
        ∀ node ∈ c'.lru, node ∈ c.lru ∨ (node.tid = tid ∧ node.uuid = uuid))) := by
  unfold resolveTrackUuid at resolved
  split at resolved
  next node found =>
    cases resolved
    obtain ⟨mem, same⟩ := linked.find found
    have subset : ∀ node' ∈ (c.splice node).lru, node' ∈ c.lru := fun _ kept => mem_splice mem kept
    exact ⟨linked.of_subset subset (fun _ _ at_tid => at_tid) rfl,
      .inl ⟨rfl, rfl, ⟨node, found, mem, same, rfl⟩, subset⟩⟩
  next =>
    cases resolved
    have drawn_linked : { c with drawn := c.drawn + 1 }.Linked :=
      linked.of_subset (fun _ mem => mem) (fun _ _ at_tid => at_tid) rfl
    obtain ⟨lru, index, addresses, drawn⟩ :=
      evict_subset cap _ (TrackUuids.insert { c with drawn := c.drawn + 1 } tid (random c.drawn))
    refine ⟨(drawn_linked.insert tid _).of_subset lru index addresses, .inr ⟨rfl, rfl, drawn, fun node mem => ?_⟩⟩
    obtain rfl | old := List.mem_cons.mp (lru node mem)
    · exact .inr ⟨rfl, rfl⟩
    · exact .inl old

end VisionNx.Agent
