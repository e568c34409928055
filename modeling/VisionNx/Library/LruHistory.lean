import Mathlib.Data.Finset.Card

/-! # Caches that drop what has not been used for longest

A history lists the uses of a cache, each a key with the value it gave, with the latest
use first.  What a cache of capacity `cap` holds is a function of its history: the
`cap` keys that were used last.  If it makes up a new value for every key that it does
not hold, a key keeps its value exactly as long as fewer than `cap` other keys are used
between two uses of it. -/

namespace LruHistory

variable {K : Type u} {V : Type v} {T : Type w} [DecidableEq K]

/-- The last use of each key. -/
def latest : List (K × V) → List (K × V)
  | [] => []
  | e :: h => e :: (latest h).filter (·.1 ≠ e.1)

/-- The histories of a cache of capacity `cap`. -/
inductive Used (cap : ℕ) : List (K × V) → Prop where
  | nil : Used cap []
  | hit {h : List (K × V)} {e : K × V} (used : Used cap h) (held : e ∈ (latest h).take cap) : Used cap (e :: h)
  | miss {h : List (K × V)} {k : K} {v : V} (used : Used cap h) (absent : ∀ e ∈ (latest h).take cap, e.1 ≠ k)
      (new : ∀ e ∈ h, e.2 ≠ v) : Used cap ((k, v) :: h)

/-- Fewer than `cap` other keys are used between two uses of a key. -/
def Spaced (cap : ℕ) (ks : List K) : Prop :=
  ∀ newer k between older, ks = newer ++ k :: (between ++ k :: older) → k ∉ between →
    between.toFinset.card < cap

def Constant (h : List (K × V)) : Prop := ∀ e ∈ h, ∀ e' ∈ h, e.1 = e'.1 → e.2 = e'.2

/-- Uses come with a tag.  If two uses of a key with none in between differ in it, at least `cap` other
    keys are used in between. -/
def FarApart (cap : ℕ) (ks : List (K × T)) : Prop :=
  ∀ older k t between t' newer, ks = older ++ (k, t) :: (between ++ (k, t') :: newer) →
    k ∉ between.map Prod.fst → t ≠ t' → cap ≤ (between.map Prod.fst).toFinset.card

/-! ## The last uses -/

variable {cap : ℕ} {h h' : List (K × V)} {e : K × V} {k : K} {v : V}

theorem mem_of_mem_latest (mem : e ∈ latest h) : e ∈ h := by
  induction h with
  | nil => cases mem
  | cons e' h ih =>
    cases List.mem_cons.mp mem with
    | inl same => exact List.mem_cons.mpr (.inl same)
    | inr mem => exact List.mem_cons_of_mem e' (ih (List.mem_filter.mp mem).1)

theorem mem_keys_latest : k ∈ (latest h).map Prod.fst ↔ k ∈ h.map Prod.fst := by
  induction h with
  | nil => rfl
  | cons e h ih =>
    by_cases same : k = e.1
    · simp [latest, same]
    · simp only [List.mem_map] at ih
      simp only [latest, List.map_cons, List.mem_cons, same, false_or, List.mem_map, List.mem_filter]
      rw [← ih]
      constructor
      · rintro ⟨e', ⟨mem, -⟩, rfl⟩
        exact ⟨e', mem, rfl⟩
      · rintro ⟨e', mem, rfl⟩
        exact ⟨e', ⟨mem, by simpa using same⟩, rfl⟩

theorem nodup_latest (h : List (K × V)) : ((latest h).map Prod.fst).Nodup := by
  induction h with
  | nil => exact List.nodup_nil
  | cons e h ih =>
    refine List.nodup_cons.mpr ⟨?_, ih.sublist (List.filter_sublist.map _)⟩
    simp

theorem length_latest (h : List (K × V)) : (latest h).length = (h.map Prod.fst).toFinset.card := by
  rw [← List.length_map Prod.fst, ← List.toFinset_card_of_nodup (nodup_latest h)]
  congr 1
  ext k
  simp only [List.mem_toFinset, mem_keys_latest]

/-- The last use of a key stands behind the keys that have been used since. -/
theorem latest_append (last : e.1 ∉ h.map Prod.fst) :
    ∃ rest, latest (h ++ e :: h') = latest h ++ e :: rest := by
  induction h with
  | nil => exact ⟨_, rfl⟩
  | cons e' h ih =>
    obtain ⟨rest, eq⟩ := ih fun mem => last (by simpa using .inr (by simpa using mem))
    have other : e.1 ≠ e'.1 := fun same => last (by simp [same])
    refine ⟨rest.filter (·.1 ≠ e'.1), ?_⟩
    rw [List.cons_append, latest, eq, List.filter_append, List.filter_cons_of_pos (by simpa using other)]
    rfl

/-- What is held of a key is its last use. -/
theorem eq_of_mem_latest {newer older : List (K × V)} {e' : K × V} (last : e.1 ∉ newer.map Prod.fst)
    (mem : e' ∈ latest (newer ++ e :: older)) (same : e'.1 = e.1) : e' = e := by
  obtain ⟨rest, eq⟩ := @latest_append K V _ newer older e last
  have here : e ∈ latest (newer ++ e :: older) := by simp [eq]
  exact List.inj_on_of_nodup_map (nodup_latest _) mem here same

/-- Of two keys the one that stands first has been used since the last use of the other. -/
theorem latest_ordered (h : List (K × V)) :
    (latest h).Pairwise fun e e' => ∃ newer older, h.map Prod.fst = newer ++ e.1 :: older ∧ e'.1 ∉ newer := by
  induction h with
  | nil => exact List.Pairwise.nil
  | cons e₀ h ih =>
    refine List.pairwise_cons.mpr ⟨fun e' _ => ⟨[], h.map Prod.fst, rfl, List.not_mem_nil⟩, ?_⟩
    refine (ih.filter _).imp_of_mem fun {e e'} _ mem' earlier => ?_
    obtain ⟨newer, older, split, apart⟩ := earlier
    have other : e'.1 ≠ e₀.1 := of_decide_eq_true (List.mem_filter.mp mem').2
    refine ⟨e₀.1 :: newer, older, congrArg (e₀.1 :: ·) split, ?_⟩
    simp [other, apart]

/-- A key is held exactly if fewer than `cap` others have been used since its last use. -/
theorem held_iff (last : e.1 ∉ h.map Prod.fst) :
    (∃ e' ∈ (latest (h ++ e :: h')).take cap, e'.1 = e.1) ↔ (h.map Prod.fst).toFinset.card < cap := by
  obtain ⟨rest, eq⟩ := @latest_append K V _ h h' e last
  rw [eq, ← length_latest]
  constructor
  · rintro ⟨e', mem, same⟩
    by_contra! full
    rw [List.take_append_of_le_length full] at mem
    refine last (same ▸ mem_keys_latest.mp ?_)
    exact List.mem_map_of_mem (List.mem_of_mem_take mem)
  · intro room
    refine ⟨e, ?_, rfl⟩
    rw [List.take_append]
    refine List.mem_append_right _ ?_
    obtain ⟨n, positive⟩ : ∃ n, cap - (latest h).length = n + 1 := ⟨_, (Nat.succ_pred_eq_of_pos (by omega)).symm⟩
    rw [positive]
    exact List.mem_cons_self ..

/-! ## What the cache holds -/

/-- Moving a key to the front leaves the others in their places. -/
theorem take_filter_of_mem {l : List (K × V)} (distinct : (l.map Prod.fst).Nodup) {n : ℕ}
    (held : e ∈ l.take (n + 1)) :
    (l.filter (·.1 ≠ e.1)).take n = (l.take (n + 1)).filter (·.1 ≠ e.1) := by
  induction l generalizing n with
  | nil => simp at held
  | cons e' l ih =>
    obtain ⟨other, distinct⟩ := List.nodup_cons.mp distinct
    by_cases same : e'.1 = e.1
    · -- No other entry has the key.
      have kept : ∀ m, (l.take m).filter (·.1 ≠ e.1) = l.take m := by
        intro m
        refine List.filter_eq_self.mpr fun e'' mem => decide_eq_true fun again => ?_
        exact other (same ▸ again ▸ List.mem_map_of_mem (List.mem_of_mem_take mem))
      have all : l.filter (·.1 ≠ e.1) = l := by simpa using kept l.length
      rw [List.filter_cons_of_neg (by simpa using same), all, List.take_succ_cons,
        List.filter_cons_of_neg (by simpa using same), kept]
    · have mem : e ∈ l.take n := by
        rw [List.take_succ_cons] at held
        exact (List.mem_cons.mp held).resolve_left fun eq => same (eq ▸ rfl)
      cases n with
      | zero => simp at mem
      | succ n =>
        rw [List.filter_cons_of_pos (by simpa using same), List.take_succ_cons, ih distinct mem,
          List.take_succ_cons, List.filter_cons_of_pos (by simpa using same)]

theorem take_filter_of_absent {l : List (K × V)} {n : ℕ} (absent : ∀ e ∈ l.take n, e.1 ≠ k) :
    (l.filter (·.1 ≠ k)).take n = l.take n := by
  induction l generalizing n with
  | nil => rfl
  | cons e l ih =>
    cases n with
    | zero => rfl
    | succ n =>
      simp only [List.take_succ_cons, List.mem_cons, forall_eq_or_imp] at absent ⊢
      rw [List.filter_cons_of_pos (by simpa using absent.1), List.take_succ_cons, ih absent.2]

theorem take_latest_hit (held : e ∈ (latest h).take cap) :
    (latest (e :: h)).take cap = e :: ((latest h).take cap).filter (·.1 ≠ e.1) := by
  cases cap with
  | zero => simp at held
  | succ n => rw [latest, List.take_succ_cons, take_filter_of_mem (nodup_latest h) held]

theorem take_latest_miss (positive : 0 < cap) (absent : ∀ e ∈ (latest h).take cap, e.1 ≠ k) :
    (latest ((k, v) :: h)).take cap = ((k, v) :: (latest h).take cap).take cap := by
  obtain ⟨n, rfl⟩ : ∃ n, cap = n + 1 := ⟨_, (Nat.succ_pred_eq_of_pos positive).symm⟩
  have fewer : ∀ e ∈ (latest h).take n, e.1 ≠ k := fun e mem =>
    absent e (List.take_subset_take_left _ (Nat.le_succ n) mem)
  rw [latest, List.take_succ_cons, List.take_succ_cons, take_filter_of_absent fewer, List.take_take,
    Nat.min_eq_left (Nat.le_succ n)]

/-! ## Values -/

omit [DecidableEq K] in
theorem constant_cons : Constant (e :: h) ↔ Constant h ∧ ∀ e' ∈ h, e'.1 = e.1 → e'.2 = e.2 := by
  constructor
  · intro constant
    exact ⟨fun e' mem e'' mem' => constant e' (List.mem_cons_of_mem e mem) e'' (List.mem_cons_of_mem e mem'),
      fun e' mem => constant e' (List.mem_cons_of_mem e mem) e (List.mem_cons_self ..)⟩
  · rintro ⟨constant, agree⟩ e' mem e'' mem' same
    cases List.mem_cons.mp mem with
    | inl first =>
      subst first
      cases List.mem_cons.mp mem' with
      | inl second => exact congrArg Prod.snd second.symm
      | inr old' => exact (agree e'' old' same.symm).symm
    | inr old =>
      cases List.mem_cons.mp mem' with
      | inl second =>
        subst second
        exact agree e' old same
      | inr old' => exact constant e' old e'' old' same

theorem spaced_cons {ks : List K} : Spaced cap (k :: ks) ↔
    Spaced cap ks ∧ ∀ between older, ks = between ++ k :: older → k ∉ between → between.toFinset.card < cap := by
  constructor
  · intro spaced
    exact ⟨fun newer k' between older split => spaced (k :: newer) k' between older (by rw [split]; rfl),
      fun between older split => spaced [] k between older (by rw [split]; rfl)⟩
  · rintro ⟨spaced, first⟩ newer k' between older split
    cases newer with
    | nil =>
      obtain ⟨rfl, rest⟩ := List.cons.inj split
      exact first between older rest
    | cons k'' newer => exact spaced newer k' between older (List.cons.inj split).2

theorem exists_last_use (mem : k ∈ h.map Prod.fst) :
    ∃ newer e older, h = newer ++ e :: older ∧ e.1 = k ∧ k ∉ newer.map Prod.fst := by
  induction h with
  | nil => cases mem
  | cons e h ih =>
    by_cases same : e.1 = k
    · exact ⟨[], e, h, rfl, same, List.not_mem_nil⟩
    · obtain ⟨newer, e', older, rfl, is, last⟩ := ih (by simpa [Ne.symm same] using mem)
      exact ⟨e :: newer, e', older, rfl, is, by simpa [Ne.symm same] using last⟩

/-- A key keeps its value exactly as long as it is not dropped between two uses. -/
theorem Used.constant_iff (used : Used cap h) : Constant h ↔ Spaced cap (h.map Prod.fst) := by
  induction used with
  | nil => exact iff_of_true nofun fun newer k between older split => by simp at split
  | @hit h e used held ih =>
    rw [constant_cons, List.map_cons, spaced_cons, ih]
    refine and_congr_right fun spaced => iff_of_true (fun e' mem same => ?_) fun between older split last => ?_
    · exact ih.mpr spaced e' mem e (mem_of_mem_latest (List.mem_of_mem_take held)) same
    · -- The key is held, so few others have been used since.
      obtain ⟨newer, rest, rfl, rfl, later⟩ := List.map_eq_append_iff.mp split
      obtain ⟨e', older', rfl, same, rfl⟩ := List.map_eq_cons_iff.mp later
      rw [← same] at last
      exact (held_iff last).mp ⟨e, held, same.symm⟩
  | @miss h k v used absent new ih =>
    rw [constant_cons, List.map_cons, spaced_cons, ih]
    refine and_congr_right fun spaced => ⟨fun agree between older split last => ?_, fun few e' mem same => ?_⟩
    · obtain ⟨newer, rest, rfl, rfl, later⟩ := List.map_eq_append_iff.mp split
      obtain ⟨e', older', rfl, same, rfl⟩ := List.map_eq_cons_iff.mp later
      have mem : e' ∈ newer ++ e' :: older' := by simp
      exact absurd (agree e' mem same) (new e' mem)
    · obtain ⟨newer, e'', older, rfl, same', last⟩ := exists_last_use (List.mem_map.mpr ⟨e', mem, same⟩)
      subst same'
      have room := few (newer.map Prod.fst) (older.map Prod.fst) (by simp) last
      obtain ⟨held, mem_held, is⟩ := (@held_iff K V _ cap newer older e'' last).mpr room
      exact absurd is (absent held mem_held)

/-- No two keys ever have the same value. -/
theorem Used.key_of_value (used : Used cap h) :
    ∀ e ∈ h, ∀ e' ∈ h, e.2 = e'.2 → e.1 = e'.1 := by
  induction used with
  | nil => nofun
  | @hit h e₀ used held ih =>
    have old := mem_of_mem_latest (List.mem_of_mem_take held)
    intro e mem e' mem' same
    have mem : e ∈ h := (List.mem_cons.mp mem).elim (fun first => first ▸ old) id
    have mem' : e' ∈ h := (List.mem_cons.mp mem').elim (fun first => first ▸ old) id
    exact ih e mem e' mem' same
  | @miss h k v used absent new ih =>
    intro e mem e' mem' same
    cases List.mem_cons.mp mem with
    | inl first =>
      cases List.mem_cons.mp mem' with
      | inl first' => rw [first, first']
      | inr old' =>
        rw [first] at same
        exact absurd same.symm (new e' old')
    | inr old =>
      cases List.mem_cons.mp mem' with
      | inl first' =>
        rw [first'] at same
        exact absurd same (new e old)
      | inr old' => exact ih e old e' old' same

theorem eq_of_reverse_eq {α : Type*} {l older between newer : List α} {x y : α}
    (split : l.reverse = older ++ x :: (between ++ y :: newer)) :
    l = newer.reverse ++ y :: (between.reverse ++ x :: older.reverse) := by
  rw [← List.reverse_reverse l, split]
  simp

/-- The same with the first use first. -/
theorem spaced_reverse {ks : List K} : Spaced cap ks.reverse ↔
    ∀ older k between newer, ks = older ++ k :: (between ++ k :: newer) → k ∉ between →
      between.toFinset.card < cap := by
  constructor
  · intro spaced older k between newer split apart
    have few := spaced newer.reverse k between.reverse older.reverse (by simp [split]) (by simpa using apart)
    rwa [List.toFinset_reverse] at few
  · intro spaced newer k between older split apart
    have few := spaced older.reverse k between.reverse newer.reverse (eq_of_reverse_eq split) (by simpa using apart)
    rwa [List.toFinset_reverse] at few

/-! ## Tags -/

theorem farApart_cons {ks : List (K × T)} {t : T} : FarApart cap ((k, t) :: ks) ↔
    FarApart cap ks ∧ ∀ between t' newer, ks = between ++ (k, t') :: newer → k ∉ between.map Prod.fst → t ≠ t' →
      cap ≤ (between.map Prod.fst).toFinset.card := by
  constructor
  · intro far
    exact ⟨fun older k' t' between t'' newer split => far ((k, t) :: older) k' t' between t'' newer (by rw [split]; rfl),
      fun between t' newer split => far [] k t between t' newer (by rw [split]; rfl)⟩
  · rintro ⟨far, first⟩ older k' t' between t'' newer split
    cases older with
    | nil =>
      obtain ⟨same, rest⟩ := List.cons.inj split
      obtain ⟨rfl, rfl⟩ := Prod.mk.inj same
      exact first between t'' newer rest
    | cons e older => exact far older k' t' between t'' newer (List.cons.inj split).2

theorem FarApart.reverse {ks : List (K × T)} (far : FarApart cap ks) : FarApart cap ks.reverse := by
  intro older k t between t' newer split apart differ
  have many := far newer.reverse k t' between.reverse t older.reverse (eq_of_reverse_eq split) (by simpa using apart)
    differ.symm
  rwa [List.map_reverse, List.toFinset_reverse] at many

theorem farApart_reverse {ks : List (K × T)} : FarApart cap ks.reverse ↔ FarApart cap ks :=
  ⟨fun far => ks.reverse_reverse ▸ far.reverse, FarApart.reverse⟩

omit [DecidableEq K] in
/-- A use of a key, and the uses since, found among the keys and the tags. -/
theorem exists_use {h : List ((K × V) × T)} {between newer : List (K × T)} {t : T}
    (split : h.map (fun e => (e.1.1, e.2)) = between ++ (k, t) :: newer) (apart : k ∉ between.map Prod.fst) :
    ∃ since e before, h = since ++ e :: before ∧ e.1.1 = k ∧ e.2 = t ∧
      (since.map Prod.fst).map Prod.fst = between.map Prod.fst ∧ e.1.1 ∉ (since.map Prod.fst).map Prod.fst := by
  obtain ⟨since, rest, rfl, rfl, later⟩ := List.map_eq_append_iff.mp split
  obtain ⟨e, before, rfl, same, rfl⟩ := List.map_eq_cons_iff.mp later
  obtain ⟨rfl, rfl⟩ := Prod.mk.inj same
  have keys : (since.map Prod.fst).map Prod.fst = (since.map fun e => (e.1.1, e.2)).map Prod.fst := by
    simp only [List.map_map, Function.comp_def]
  exact ⟨since, e, before, rfl, rfl, rfl, keys, keys ▸ apart⟩

/-- What is held is the last use of its key, and few others have been used since. -/
theorem last_use_of_held {h : List ((K × V) × T)} (held : e ∈ (latest (h.map Prod.fst)).take cap) :
    ∃ since e' before, h = since ++ e' :: before ∧ e'.1 = e ∧ e.1 ∉ (since.map Prod.fst).map Prod.fst ∧
      ((since.map Prod.fst).map Prod.fst).toFinset.card < cap := by
  have in_h := mem_of_mem_latest (List.mem_of_mem_take held)
  obtain ⟨newer, e₀, older, split, is_key, last⟩ := exists_last_use (List.mem_map.mpr ⟨e, in_h, rfl⟩)
  obtain ⟨since, rest, rfl, rfl, later⟩ := List.map_eq_append_iff.mp split
  obtain ⟨e', before, rfl, rfl, rfl⟩ := List.map_eq_cons_iff.mp later
  rw [List.map_append, List.map_cons] at held
  rw [← is_key] at last
  have is_last := eq_of_mem_latest last (List.mem_of_mem_take held) is_key.symm
  exact ⟨since, e', before, rfl, is_last.symm, is_key ▸ last, (held_iff last).mp ⟨e, held, is_key.symm⟩⟩

/-- A value only ever comes with one tag exactly if no key comes with a new one before it has been dropped. -/
theorem Used.one_tag_iff {h : List ((K × V) × T)} (used : Used cap (h.map Prod.fst)) :
    Constant (h.map fun e => (e.1.2, e.2)) ↔ FarApart cap (h.map fun e => (e.1.1, e.2)) := by
  induction h with
  | nil => exact iff_of_true nofun fun older k t between t' newer split => by simp at split
  | cons e h ih =>
    obtain ⟨⟨k, v⟩, t⟩ := e
    rw [List.map_cons, List.map_cons, constant_cons, farApart_cons]
    cases used with
    | hit used held =>
      rw [← ih used]
      refine and_congr_right fun constant => ⟨fun agree between t' newer split apart differ => ?_, fun far e' mem same => ?_⟩
      · -- The value is that of the last use, which has the tag `t'`.
        obtain ⟨since, e, before, rfl, is_k, is_t, -, last⟩ := exists_use split apart
        rw [List.map_append, List.map_cons] at held
        have is_last := eq_of_mem_latest last (List.mem_of_mem_take held) is_k.symm
        have mem : e ∈ since ++ e :: before := by simp
        have tag := agree (e.1.2, e.2) (List.mem_map.mpr ⟨e, mem, rfl⟩) (congrArg Prod.snd is_last).symm
        exact absurd (tag.symm.trans is_t) differ
      · -- Since its last use, the key has been held all the time.
        obtain ⟨since, e, before, rfl, is_last, last, few⟩ := last_use_of_held held
        have keys : (since.map fun e => (e.1.1, e.2)).map Prod.fst = (since.map Prod.fst).map Prod.fst := by
          simp only [List.map_map, Function.comp_def]
        have split : (since ++ e :: before).map (fun e => (e.1.1, e.2)) =
            since.map (fun e => (e.1.1, e.2)) ++ (k, e.2) :: before.map fun e => (e.1.1, e.2) := by
          rw [List.map_append, List.map_cons, is_last]
        have mem_e : (e.1.2, e.2) ∈ (since ++ e :: before).map fun e => (e.1.2, e.2) := by simp
        have tag := constant _ mem_e e' mem ((congrArg Prod.snd is_last).trans same.symm)
        by_contra differ
        have many := far _ e.2 _ split (keys ▸ last) fun is_tag => differ (tag.symm.trans is_tag.symm)
        rw [keys] at many
        omega
    | miss used absent new =>
      rw [← ih used]
      refine and_congr_right fun constant => iff_of_true (fun e' mem same => ?_) fun between t' newer split apart differ => ?_
      · obtain ⟨e, in_h, rfl⟩ := List.mem_map.mp mem
        exact absurd same (new e.1 (List.mem_map_of_mem in_h))
      · obtain ⟨since, e, before, rfl, is_k, -, keys, last⟩ := exists_use split apart
        by_contra! few
        rw [← keys] at few
        obtain ⟨held, in_cache, is⟩ := (@held_iff K V _ cap _ (before.map Prod.fst) e.1 last).mpr few
        rw [List.map_append, List.map_cons] at absent
        exact absent held in_cache (is.trans is_k)

end LruHistory
