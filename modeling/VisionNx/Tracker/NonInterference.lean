import Mathlib.Data.List.NodupEquivFin
import Mathlib.Order.Monotone.Basic
import VisionNx.Tracker.History

/-! # Classes do not interfere

Two trackers run side by side: the first sees every detection, the second only those
of one canonical class key.  With a positive threshold the class mask keeps pairs of
different keys out of the matching, so the second tracker is at all times the first
one restricted to that key, up to the numbering of its ids: `Restricts` is this
relation, and its parameter `issued` lists the ids that the first tracker has given
out for the key so far, in order.  The second tracker numbers them 1, 2, 3, ….
-/

namespace VisionNx.Tracker

open GreedyMatching

/-! ## Positions of a filtered list -/

theorem exists_filter_positions {α : Type*} (p : α → Bool) (l : List α) :
    ∃ f : ℕ → ℕ, StrictMono f ∧ (∀ i, (l.filter p)[i]? = l[f i]?) ∧
      ∀ j x, l[j]? = some x → p x = true → ∃ i, f i = j := by
  induction l with
  | nil => exact ⟨id, strictMono_id, by simp, by simp⟩
  | cons a l ih =>
    obtain ⟨f, mono, same, onto⟩ := ih
    cases keep : p a with
    -- The head stays at position 0 if it is kept.
    | true =>
      refine ⟨fun i => Nat.casesOn i 0 fun i => f i + 1, ?_, ?_, ?_⟩
      · apply strictMono_nat_of_lt_succ
        rintro (_ | i)
        · exact Nat.succ_pos _
        · exact Nat.succ_lt_succ (mono (Nat.lt_succ_self i))
      · rintro (_ | i) <;> simp [keep, same]
      · rintro (_ | j) x at_j kept
        · exact ⟨0, rfl⟩
        · obtain ⟨i, rfl⟩ := onto j x (by simpa using at_j) kept
          exact ⟨i + 1, rfl⟩
    | false =>
      refine ⟨fun i => f i + 1, fun _ _ lt => Nat.succ_lt_succ (mono lt), ?_, ?_⟩
      · intro i
        simp [keep, same]
      · rintro (_ | j) x at_j kept
        · obtain rfl : a = x := by simpa using at_j
          simp [keep] at kept
        · obtain ⟨i, rfl⟩ := onto j x (by simpa using at_j) kept
          exact ⟨i, rfl⟩

theorem filter_zip_fst {α β : Type*} (p : α → Bool) {l : List α} {l' : List β}
    (len : l.length ≤ l'.length) : ((l.zip l').filter fun z => p z.1).map (·.1) = l.filter p := by
  conv_rhs => rw [← List.map_fst_zip len, List.filter_map]
  rfl

theorem filter_zip_snd {α β : Type*} (p : β → Bool) {l : List α} {l' : List β}
    (len : l'.length ≤ l.length) : ((l.zip l').filter fun z => p z.2).map (·.2) = l'.filter p := by
  conv_rhs => rw [← List.map_snd_zip len, List.filter_map]
  rfl

/-! ## Renumbering -/

/-- The position, from 1, of an id among those issued. -/
def renumber (issued : List ℕ) (id : ℕ) : ℕ := issued.idxOf id + 1

def Track.relabel (σ : ℕ → ℕ) (trk : Track) : Track := { trk with id := σ trk.id }

def Box.relabel (σ : ℕ → ℕ) (b : Box) : Box := { b with trackId := b.trackId.map σ }

theorem Box.relabel_stamp (σ : ℕ → ℕ) (b : Box) (id : ℕ) :
    (b.stamp id).relabel σ = b.stamp (σ id) := rfl

theorem Track.new_id (id : ℕ) (xyxy : Xyxy) (cls : Int32) : (Track.new id xyxy cls).id = id := rfl

theorem Track.relabel_new (σ : ℕ → ℕ) (id : ℕ) (xyxy : Xyxy) (cls : Int32) :
    (Track.new id xyxy cls).relabel σ = Track.new (σ id) xyxy cls := rfl

theorem Track.relabel_advance (σ : ℕ → ℕ) (trk : Track) (b? : Option Box) :
    (trk.relabel σ).advance b? = (trk.advance b?).relabel σ := by
  cases b? <;> rfl

theorem renumber_append {issued : List ℕ} {id : ℕ} (old : id ∈ issued) (more : List ℕ) :
    renumber (issued ++ more) id = renumber issued id := by
  rw [renumber, renumber, List.idxOf_append_of_mem old]

theorem renumber_strictMonoOn {issued : List ℕ} (sorted : issued.Pairwise (· < ·)) :
    StrictMonoOn (renumber issued) {id | id ∈ issued} := by
  intro id mem id' mem' lt
  have hi := List.idxOf_lt_length_of_mem mem
  have hi' := List.idxOf_lt_length_of_mem mem'
  by_contra! le
  simp only [renumber, Nat.add_le_add_iff_right] at le
  have back : issued[issued.idxOf id'] ≤ issued[issued.idxOf id] := by
    cases le.lt_or_eq with
    | inl earlier => exact (List.pairwise_iff_getElem.mp sorted _ _ hi' hi earlier).le
    | inr same => simp only [same, le_refl]
  simp only [List.getElem_idxOf] at back
  omega

/-! ## One class key -/

def Box.ofKey (mode : MatchMode) (k : Int32) (b : Box) : Bool :=
  decide (canonicalCls b.getCls mode = k)

def Track.ofKey (mode : MatchMode) (k : Int32) (trk : Track) : Bool :=
  decide (canonicalCls trk.cls mode = k)

/-- The ids that the gaps of the kept boxes get, when all gaps are numbered from
    `next` on. -/
def freshIds (keep : Box → Bool) : ℕ → List (Box × Option ℕ) → List ℕ
  | _, [] => []
  | next, (_, some _) :: zs => freshIds keep next zs
  | next, (b, none) :: zs =>
    if keep b then next :: freshIds keep (next + 1) zs else freshIds keep (next + 1) zs

def ownersOf (keep : Box → Bool) (σ : ℕ → ℕ) (zs : List (Box × Option ℕ)) : List (Option ℕ) :=
  (zs.filter fun z => keep z.1).map fun z => z.2.map σ

theorem freshIds_sorted (keep : Box → Bool) (next : ℕ) (zs : List (Box × Option ℕ)) :
    (freshIds keep next zs).Pairwise (· < ·) ∧
      ∀ id ∈ freshIds keep next zs, next ≤ id ∧ id < next + (zs.map (·.2)).count none := by
  induction zs generalizing next with
  | nil => exact ⟨List.Pairwise.nil, by simp [freshIds]⟩
  | cons z zs ih =>
    obtain ⟨b, o⟩ := z
    cases o with
    | some i =>
      refine ⟨(ih next).1, fun id mem => ?_⟩
      simpa using (ih next).2 id mem
    | none =>
      obtain ⟨sorted, range⟩ := ih (next + 1)
      have wider : ∀ id ∈ freshIds keep (next + 1) zs,
          next < id ∧ id < next + (zs.map (·.2)).count none + 1 := by
        intro id mem
        have := range id mem
        omega
      simp only [freshIds, List.map_cons, List.count_cons_self]
      split
      · refine ⟨List.pairwise_cons.mpr ⟨fun id mem => (wider id mem).1, sorted⟩, ?_⟩
        rintro id (_ | ⟨_, mem⟩)
        · omega
        · have := wider id mem
          omega
      · refine ⟨sorted, fun id mem => ?_⟩
        have := wider id mem
        omega

theorem count_ownersOf (keep : Box → Bool) (σ : ℕ → ℕ) (next : ℕ) (zs : List (Box × Option ℕ)) :
    (ownersOf keep σ zs).count none = (freshIds keep next zs).length := by
  induction zs generalizing next with
  | nil => rfl
  | cons z zs ih =>
    obtain ⟨b, o⟩ := z
    simp only [ownersOf] at ih ⊢
    cases o with
    | some i => cases kept : keep b <;> simp [kept, freshIds, ih next]
    | none => cases kept : keep b <;> simp [kept, freshIds, ih (next + 1)]

section

variable {mode : MatchMode} {k : Int32} {σ : ℕ → ℕ} {next next' : ℕ} {zs : List (Box × Option ℕ)}

def Numbers (mode : MatchMode) (k : Int32) (σ : ℕ → ℕ) (next next' : ℕ)
    (zs : List (Box × Option ℕ)) : Prop :=
  ∀ j id, (freshIds (Box.ofKey mode k) next zs)[j]? = some id → σ id = next' + j

theorem Numbers.head {b : Box} (numbers : Numbers mode k σ next next' ((b, none) :: zs))
    (kept : b.ofKey mode k = true) : σ next = next' ∧ Numbers mode k σ (next + 1) (next' + 1) zs := by
  refine ⟨numbers 0 next (by simp [freshIds, kept]), fun j id at_j => ?_⟩
  rw [numbers (j + 1) id (by simpa [freshIds, kept] using at_j)]
  omega

theorem Numbers.skip {b : Box} (numbers : Numbers mode k σ next next' ((b, none) :: zs))
    (dropped : b.ofKey mode k = false) : Numbers mode k σ (next + 1) next' zs := by
  intro j id at_j
  exact numbers j id (by simpa [freshIds, dropped] using at_j)

/-- Stamping the kept boxes alone is stamping all and dropping the others. -/
theorem stamps_restrict (numbers : Numbers mode k σ next next' zs) :
    List.zipWith Box.stamp ((zs.filter fun z => z.1.ofKey mode k).map (·.1))
        (fillFresh next' (ownersOf (Box.ofKey mode k) σ zs)) =
      ((List.zipWith Box.stamp (zs.map (·.1)) (fillFresh next (zs.map (·.2)))).filter
        (Box.ofKey mode k)).map (Box.relabel σ) := by
  induction zs generalizing next next' with
  | nil => rfl
  | cons z zs ih =>
    obtain ⟨b, o⟩ := z
    have key : ∀ id, (b.stamp id).ofKey mode k = b.ofKey mode k := fun _ => rfl
    simp only [ownersOf] at ih ⊢
    cases o with
    | some i =>
      have tail := @ih next next' numbers
      cases kept : b.ofKey mode k <;> simp [kept, key, fillFresh, tail, Box.relabel_stamp]
    | none =>
      cases kept : b.ofKey mode k with
      | true =>
        obtain ⟨first, rest⟩ := numbers.head kept
        simp [kept, key, fillFresh, ih rest, Box.relabel_stamp, first]
      | false => simp [kept, key, fillFresh, ih (numbers.skip kept)]

/-- The tracks opened for the kept boxes alone are those opened for all, without the
    others. -/
theorem births_restrict (numbers : Numbers mode k σ next next' zs) :
    births next' (ownersOf (Box.ofKey mode k) σ zs)
        ((zs.filter fun z => z.1.ofKey mode k).map (·.1)) =
      ((births next (zs.map (·.2)) (zs.map (·.1))).filter (Track.ofKey mode k)).map
        (Track.relabel σ) := by
  induction zs generalizing next next' with
  | nil => rfl
  | cons z zs ih =>
    obtain ⟨b, o⟩ := z
    have key : ∀ id, (Track.new id b.xyxy b.getCls).ofKey mode k = b.ofKey mode k := fun _ => rfl
    simp only [ownersOf] at ih ⊢
    cases o with
    | some i =>
      have tail := @ih next next' numbers
      cases kept : b.ofKey mode k <;> simp [kept, births, tail]
    | none =>
      cases kept : b.ofKey mode k with
      | true =>
        obtain ⟨first, rest⟩ := numbers.head kept
        simp [kept, key, births, ih rest, Track.relabel_new, first]
      | false => simp [kept, key, births, ih (numbers.skip kept)]

end

theorem births_key_ids (mode : MatchMode) (k : Int32) (next : ℕ) (zs : List (Box × Option ℕ)) :
    ((births next (zs.map (·.2)) (zs.map (·.1))).filter (Track.ofKey mode k)).map (·.id) =
      freshIds (Box.ofKey mode k) next zs := by
  induction zs generalizing next with
  | nil => rfl
  | cons z zs ih =>
    obtain ⟨b, o⟩ := z
    have key : ∀ id, (Track.new id b.xyxy b.getCls).ofKey mode k = b.ofKey mode k := fun _ => rfl
    cases o with
    | some i => simp [births, freshIds, ih]
    | none => cases kept : b.ofKey mode k <;> simp [kept, key, births, freshIds, ih, Track.new_id]

/-! ## The matching of one key -/

theorem matchingMatrix_congr {mode : MatchMode} {boxes boxes' : List Box} {tracks tracks' : List Track}
    {σ : ℕ → ℕ} {i i' j j' : ℕ} (same_box : boxes'[i']? = boxes[i]?)
    (same_track : tracks'[j']? = tracks[j]?.map (Track.relabel σ)) :
    matchingMatrix mode boxes' tracks' i' j' = matchingMatrix mode boxes tracks i j := by
  simp only [matchingMatrix, iouMatrix, List.getElem?_map, same_box, same_track, Option.map_map]
  rfl

/-- With the class mask and a positive threshold, a pair that may be matched has one
    key. -/
theorem same_key_of_eligible {thr : ℚ} (pos : 0 < thr) {mode : MatchMode} (masked : mode ≠ .any)
    {boxes : List Box} {tracks : List Track} {n m i j : ℕ} {b : Box} {trk : Track}
    (hb : boxes[i]? = some b) (ht : tracks[j]? = some trk)
    (eligible : Eligible thr n m (matchingMatrix mode boxes tracks) i j) :
    canonicalCls b.getCls mode = canonicalCls trk.cls mode := by
  by_contra differ
  have zero : matchingMatrix mode boxes tracks i j = 0 := by
    simp [matchingMatrix, masked, hb, ht, differ]
  have := eligible.2.2
  rw [zero] at this
  exact absurd pos (not_lt.mpr this)

/-- The boxes and tracks of key `k`, with the positions `f` and `h` that they have
    among all; the tracks are renumbered by `σ`. -/
structure SubProblem (mode : MatchMode) (k : Int32) (σ : ℕ → ℕ) (boxes boxes' : List Box)
    (tracks tracks' : List Track) (f h : ℕ → ℕ) : Prop where
  box_mono : StrictMono f
  box_at : ∀ i, boxes'[i]? = boxes[f i]?
  box_key : ∀ (i : ℕ) (b : Box), boxes'[i]? = some b → b.ofKey mode k = true
  box_onto : ∀ (i : ℕ) (b : Box), boxes[i]? = some b → b.ofKey mode k = true → ∃ c, f c = i
  track_mono : StrictMono h
  track_at : ∀ j, tracks'[j]? = tracks[h j]?.map (Track.relabel σ)
  track_key : ∀ (j : ℕ) (trk : Track), tracks[h j]? = some trk → trk.ofKey mode k = true
  track_onto : ∀ (j : ℕ) (trk : Track), tracks[j]? = some trk → trk.ofKey mode k = true → ∃ d, h d = j

theorem lt_length_iff_of_getElem? {α β : Type*} {l : List α} {l' : List β} {i i' : ℕ} {g : β → α}
    (same : l[i]? = l'[i']?.map g) : i < l.length ↔ i' < l'.length := by
  have := congrArg Option.isSome same
  rw [Option.isSome_map] at this
  simpa using congrArg (· = true) this

namespace ByteTrackLite

/-- The second tracker's parameters are the first one's, and keep the keys apart. -/
structure SameParams (t t' : ByteTrackLite) : Prop where
  iouThr : t'.iouThr = t.iouThr
  maxAge : t'.maxAge = t.maxAge
  matchMode : t'.matchMode = t.matchMode
  masked : t.matchMode ≠ .any
  pos : 0 < t.iouThr.1

section

variable {t t' : ByteTrackLite} {k : Int32} {σ f h : ℕ → ℕ} {boxes boxes' : List Box}

theorem ofKey_iff_of_canMatch (params : SameParams t t') {i j : ℕ} {b : Box} {trk : Track}
    (hb : boxes[i]? = some b) (ht : t.tracks[j]? = some trk) (eligible : t.CanMatch boxes i j) :
    b.ofKey t.matchMode k = trk.ofKey t.matchMode k := by
  simp only [Box.ofKey, Track.ofKey, same_key_of_eligible params.pos params.masked hb ht eligible]

theorem canMatch_restrict (params : SameParams t t')
    (sub : SubProblem t.matchMode k σ boxes boxes' t.tracks t'.tracks f h) (c d : ℕ) :
    t'.CanMatch boxes' c d ↔ t.CanMatch boxes (f c) (h d) := by
  have rows := @lt_length_iff_of_getElem? _ _ _ _ c (f c) id (by simpa using sub.box_at c)
  have cols := lt_length_iff_of_getElem? (sub.track_at d)
  have entry := @matchingMatrix_congr t.matchMode _ _ _ _ _ _ _ _ _ (sub.box_at c) (sub.track_at d)
  simp only [CanMatch, Eligible, params.iouThr, params.matchMode, rows, cols, entry]

theorem matching_restrict (params : SameParams t t')
    (sub : SubProblem t.matchMode k σ boxes boxes' t.tracks t'.tracks f h) (c d : ℕ) :
    t'.matching boxes' c = some d ↔ t.matching boxes (f c) = some (h d) := by
  -- The first tracker's matching, read through the positions, is greedy for the second.
  suffices restricted : IsGreedy (t'.CanMatch boxes')
      (Precedes (matchingMatrix t'.matchMode boxes' t'.tracks))
      (fun c d => t.matching boxes (f c) = some (h d)) from
    greedy_unique (t'.matching_greedy boxes') restricted c d
  refine (t.matching_greedy boxes).comap sub.box_mono.injective sub.track_mono.injective
    (canMatch_restrict params sub) ?_ ?_ ?_
  · intro c d c' d' earlier
    have entry : ∀ c d, matchingMatrix t'.matchMode boxes' t'.tracks c d =
        matchingMatrix t.matchMode boxes t.tracks (f c) (h d) := by
      intro c d
      rw [params.matchMode]
      exact matchingMatrix_congr (sub.box_at c) (sub.track_at d)
    simpa only [Precedes, entry, sub.box_mono.lt_iff_lt, sub.box_mono.injective.eq_iff,
      sub.track_mono.lt_iff_lt] using earlier
  · intro c j eligible
    have hb := List.getElem?_eq_getElem eligible.1
    have ht := List.getElem?_eq_getElem eligible.2.1
    have key := sub.box_key c _ ((sub.box_at c).trans hb)
    exact sub.track_onto j _ ht ((ofKey_iff_of_canMatch params hb ht eligible).symm.trans key)
  · intro i d eligible
    have hb := List.getElem?_eq_getElem eligible.1
    have ht := List.getElem?_eq_getElem eligible.2.1
    have key := sub.track_key d _ ht
    exact sub.box_onto i _ hb ((ofKey_iff_of_canMatch params hb ht eligible).trans key)

/-- A track of key `k` is claimed by the same detection in both trackers. -/
theorem claimant_restrict (params : SameParams t t')
    (sub : SubProblem t.matchMode k σ boxes boxes' t.tracks t'.tracks f h) (d : ℕ) :
    claimant (t'.matching boxes') d 0 boxes' = claimant (t.matching boxes) (h d) 0 boxes := by
  apply Option.ext
  intro b
  constructor
  · intro claimed
    obtain ⟨c, hb, held⟩ := claimant_eq_some claimed
    rw [Nat.zero_add, matching_restrict params sub] at held
    exact claimant_of_matched (t.matching_injective boxes) ((sub.box_at c).symm.trans hb)
      (by rwa [Nat.zero_add])
  · intro claimed
    obtain ⟨i, hb, held⟩ := claimant_eq_some claimed
    rw [Nat.zero_add] at held
    have eligible := (t.matching_greedy boxes).eligible held
    have ht := List.getElem?_eq_getElem eligible.2.1
    -- The claimant has the key of the track, so the second tracker sees it too.
    have key := (ofKey_iff_of_canMatch params hb ht eligible).trans (sub.track_key d _ ht)
    obtain ⟨c, rfl⟩ := sub.box_onto i b hb key
    rw [← matching_restrict params sub] at held
    exact claimant_of_matched (t'.matching_injective boxes') ((sub.box_at c).trans hb)
      (by rwa [Nat.zero_add])

/-- A track keeps its key when it is claimed. -/
theorem ofKey_advance (params : SameParams t t') {ti : ℕ} {trk : Track}
    (ht : t.tracks[ti]? = some trk) :
    (trk.advance (claimant (t.matching boxes) ti 0 boxes)).ofKey t.matchMode k =
      trk.ofKey t.matchMode k := by
  cases claimed : claimant (t.matching boxes) ti 0 boxes with
  | none => rfl
  | some b =>
    obtain ⟨i, hb, held⟩ := claimant_eq_some claimed
    rw [Nat.zero_add] at held
    exact ofKey_iff_of_canMatch params hb ht ((t.matching_greedy boxes).eligible held)

/-! ## One update of both trackers -/

/-- The existing tracks after the update, before any is dropped. -/
def advanced (t : ByteTrackLite) (boxes : List Box) : List Track :=
  t.tracks.mapIdx fun ti trk => trk.advance (claimant (t.matching boxes) ti 0 boxes)

def owned (t : ByteTrackLite) (boxes : List Box) : List (Box × Option ℕ) :=
  boxes.zip (t.owners boxes)

theorem owned_fst (t : ByteTrackLite) (boxes : List Box) : (t.owned boxes).map (·.1) = boxes :=
  List.map_fst_zip (t.length_owners boxes).ge

theorem owned_snd (t : ByteTrackLite) (boxes : List Box) :
    (t.owned boxes).map (·.2) = t.owners boxes :=
  List.map_snd_zip (t.length_owners boxes).le

theorem getElem?_owners (t : ByteTrackLite) (boxes : List Box) (i : ℕ) :
    (t.owners boxes)[i]? =
      boxes[i]?.map fun _ => (t.matching boxes i).bind fun ti => t.liveIds[ti]? := by
  by_cases hi : i < boxes.length
  · rw [owners, getElem?_ownIds hi, Nat.zero_add, List.getElem?_eq_getElem hi, Option.map_some]
  · rw [List.getElem?_eq_none (not_lt.mp hi), List.getElem?_eq_none, Option.map_none]
    simpa [t.length_owners boxes] using hi

theorem owner_restrict (params : SameParams t t')
    (sub : SubProblem t.matchMode k σ boxes boxes' t.tracks t'.tracks f h) {c : ℕ} {b : Box}
    (hb : boxes[f c]? = some b) :
    ((t'.matching boxes' c).bind fun ti => t'.liveIds[ti]?) =
      ((t.matching boxes (f c)).bind fun ti => t.liveIds[ti]?).map σ := by
  have ids : ∀ d, t'.liveIds[d]? = t.liveIds[h d]?.map σ := by
    intro d
    simp only [liveIds, List.getElem?_map, sub.track_at, Option.map_map]
    rfl
  cases held : t.matching boxes (f c) with
  | none =>
    have unheld : t'.matching boxes' c = none := by
      apply Option.eq_none_iff_forall_ne_some.mpr
      intro d held'
      rw [matching_restrict params sub, held] at held'
      cases held'
    simp [unheld]
  | some j =>
    have eligible := (t.matching_greedy boxes).eligible held
    have ht := List.getElem?_eq_getElem eligible.2.1
    -- The track that it takes over has its key, so the second tracker has it too.
    have key := sub.box_key c b ((sub.box_at c).trans hb)
    obtain ⟨d, rfl⟩ :=
      sub.track_onto j _ ht ((ofKey_iff_of_canMatch params hb ht eligible).symm.trans key)
    rw [(matching_restrict params sub c d).mpr held, Option.bind_some, Option.bind_some, ids]

theorem owners_restrict (params : SameParams t t')
    (sub : SubProblem t.matchMode k σ boxes boxes' t.tracks t'.tracks f h)
    (owned_at : ∀ c, ((t.owned boxes).filter fun z => z.1.ofKey t.matchMode k)[c]? =
      (t.owned boxes)[f c]?) :
    t'.owners boxes' = ownersOf (Box.ofKey t.matchMode k) σ (t.owned boxes) := by
  apply List.ext_getElem?
  intro c
  have second : (t.owned boxes)[f c]?.map (·.2) = (t.owners boxes)[f c]? := by
    rw [← List.getElem?_map, owned_snd]
  calc (t'.owners boxes')[c]?
      = boxes[f c]?.map fun _ => (t'.matching boxes' c).bind fun ti => t'.liveIds[ti]? := by
        rw [getElem?_owners, sub.box_at]
    _ = (t.owners boxes)[f c]?.map (Option.map σ) := by
        rw [getElem?_owners]
        cases hb : boxes[f c]? with
        | none => rfl
        | some b => rw [Option.map_some, owner_restrict params sub hb]; rfl
    _ = (ownersOf (Box.ofKey t.matchMode k) σ (t.owned boxes))[c]? := by
        rw [ownersOf, List.getElem?_map, owned_at, ← second, Option.map_map]
        rfl

theorem advanced_restrict (params : SameParams t t')
    (sub : SubProblem t.matchMode k σ boxes boxes' t.tracks t'.tracks f h)
    (advanced_at : ∀ d, ((t.advanced boxes).filter (Track.ofKey t.matchMode k))[d]? =
      (t.advanced boxes)[h d]?) :
    t'.advanced boxes' =
      ((t.advanced boxes).filter (Track.ofKey t.matchMode k)).map (Track.relabel σ) := by
  apply List.ext_getElem?
  intro d
  rw [List.getElem?_map, advanced_at, advanced, advanced, List.getElem?_mapIdx, List.getElem?_mapIdx,
    sub.track_at, claimant_restrict params sub]
  cases t.tracks[h d]? with
  | none => rfl
  | some trk => simp [Track.relabel_advance]

theorem survivors_restrict (params : SameParams t t')
    (advanced : t'.advanced boxes' =
      ((t.advanced boxes).filter (Track.ofKey t.matchMode k)).map (Track.relabel σ)) :
    t'.survivors boxes' =
      ((t.survivors boxes).filter (Track.ofKey t.matchMode k)).map (Track.relabel σ) := by
  calc t'.survivors boxes'
      = prune t.maxAge (t'.advanced boxes') := by rw [← params.maxAge]; rfl
    _ = ((prune t.maxAge (t.advanced boxes)).filter (Track.ofKey t.matchMode k)).map
          (Track.relabel σ) := by
        rw [advanced, prune, prune, List.filter_map, List.filter_comm]
        rfl

end

/-- `t'` is `t` restricted to key `k`; `issued` are the ids that `t` has given out for
    the key, in order. -/
structure Restricts (k : Int32) (issued : List ℕ) (t t' : ByteTrackLite) : Prop
    extends SameParams t t' where
  tracks : t'.tracks =
    (t.tracks.filter (Track.ofKey t.matchMode k)).map (Track.relabel (renumber issued))
  next : t'.nextId = issued.length + 1
  sorted : issued.Pairwise (· < ·)
  below : ∀ id ∈ issued, id < t.nextId
  known : ∀ trk ∈ t.tracks, trk.ofKey t.matchMode k = true → trk.id ∈ issued

theorem restricts_init {iouThr : IouThr} (pos : 0 < iouThr.1) (maxAge : ℤ) {matchMode : String}
    (masked : normalizeMode matchMode ≠ .any) (k : Int32) :
    Restricts k [] (init iouThr maxAge matchMode) (init iouThr maxAge matchMode) where
  iouThr := rfl
  maxAge := rfl
  matchMode := rfl
  masked := by simpa only [init] using masked
  pos := by simpa only [init] using pos
  tracks := by simp only [init, List.filter_nil, List.map_nil]
  next := by simp only [init, List.length_nil]
  sorted := List.Pairwise.nil
  below := by simp
  known := by simp [init]

section

variable {t t' : ByteTrackLite} {k : Int32} {issued : List ℕ} {boxes : List Box}

/-- A frame and the same frame without the other keys make a sub-problem of each
    other. -/
theorem exists_subProblem (params : SameParams t t') {σ : ℕ → ℕ}
    (tracks : t'.tracks = (t.tracks.filter (Track.ofKey t.matchMode k)).map (Track.relabel σ))
    (boxes : List Box) :
    ∃ f h, SubProblem t.matchMode k σ boxes (boxes.filter (Box.ofKey t.matchMode k)) t.tracks
        t'.tracks f h ∧
      (∀ c, ((t.owned boxes).filter fun z => z.1.ofKey t.matchMode k)[c]? = (t.owned boxes)[f c]?) ∧
      ∀ d, ((t.advanced boxes).filter (Track.ofKey t.matchMode k))[d]? = (t.advanced boxes)[h d]? := by
  have len : (t.advanced boxes).length = t.tracks.length := by simp [advanced]
  obtain ⟨f, box_mono, owned_at, box_onto⟩ :=
    exists_filter_positions (fun z => z.1.ofKey t.matchMode k) (t.owned boxes)
  obtain ⟨h, track_mono, pair_at, track_onto⟩ :=
    exists_filter_positions (fun z => z.1.ofKey t.matchMode k) (t.tracks.zip (t.advanced boxes))
  have box_at : ∀ c, (boxes.filter (Box.ofKey t.matchMode k))[c]? = boxes[f c]? := by
    intro c
    conv_rhs => rw [← t.owned_fst boxes, List.getElem?_map, ← owned_at, ← List.getElem?_map]
    rw [owned, filter_zip_fst _ (t.length_owners boxes).ge]
  have track_at : ∀ d, (t.tracks.filter (Track.ofKey t.matchMode k))[d]? = t.tracks[h d]? := by
    intro d
    conv_rhs => rw [← List.map_fst_zip len.ge, List.getElem?_map, ← pair_at, ← List.getElem?_map]
    rw [filter_zip_fst _ len.ge]
  have same_key : ∀ z ∈ t.tracks.zip (t.advanced boxes),
      z.1.ofKey t.matchMode k = z.2.ofKey t.matchMode k := by
    rintro ⟨trk, trk'⟩ mem
    obtain ⟨i, at_i⟩ := List.mem_iff_getElem?.mp mem
    obtain ⟨ht, ht'⟩ := List.getElem?_zip_eq_some.mp at_i
    rw [advanced, List.getElem?_mapIdx, ht, Option.map_some, Option.some.injEq] at ht'
    rw [← ht', ofKey_advance params ht]
  have advanced_at : ∀ d, ((t.advanced boxes).filter (Track.ofKey t.matchMode k))[d]? =
      (t.advanced boxes)[h d]? := by
    intro d
    conv_rhs => rw [← List.map_snd_zip len.le, List.getElem?_map, ← pair_at, ← List.getElem?_map]
    rw [List.filter_congr same_key, filter_zip_snd _ len.le]
  refine ⟨f, h, ⟨box_mono, box_at, ?_, ?_, track_mono, ?_, ?_, ?_⟩, owned_at, advanced_at⟩
  · intro c b hb
    exact (List.mem_filter.mp (List.mem_of_getElem? hb)).2
  · intro i b hb key
    obtain ⟨z, at_i, rfl⟩ := Option.map_eq_some_iff.mp
      ((List.getElem?_map).symm.trans ((t.owned_fst boxes).symm ▸ hb))
    exact box_onto i z at_i key
  · intro d
    rw [tracks, List.getElem?_map, track_at]
  · intro d trk ht
    rw [← track_at] at ht
    exact (List.mem_filter.mp (List.mem_of_getElem? ht)).2
  · intro j trk ht key
    obtain ⟨z, at_j, rfl⟩ := Option.map_eq_some_iff.mp
      ((List.getElem?_map).symm.trans ((List.map_fst_zip len.ge).symm ▸ ht))
    exact track_onto j z at_j key

def issuedBy (t : ByteTrackLite) (k : Int32) (boxes : List Box) : List ℕ :=
  freshIds (Box.ofKey t.matchMode k) t.nextId (t.owned boxes)

/-- What is known of the old tracks does not change when more ids are issued. -/
theorem Restricts.relabel_congr (rel : Restricts k issued t t') (more : List ℕ) :
    t'.tracks = (t.tracks.filter (Track.ofKey t.matchMode k)).map
      (Track.relabel (renumber (issued ++ more))) := by
  rw [rel.tracks]
  apply List.map_congr_left
  intro trk mem
  obtain ⟨live, key⟩ := List.mem_filter.mp mem
  rw [Track.relabel, Track.relabel, renumber_append (rel.known trk live key)]

/-- The new ids are numbered on from the second tracker's counter. -/
theorem Restricts.numbers (rel : Restricts k issued t t') (boxes : List Box) :
    Numbers t.matchMode k (renumber (issued ++ t.issuedBy k boxes)) t.nextId t'.nextId
      (t.owned boxes) := by
  intro j id at_j
  obtain ⟨sorted, range⟩ := freshIds_sorted (Box.ofKey t.matchMode k) t.nextId (t.owned boxes)
  have new : id ∉ issued := fun old => by
    have := rel.below id old
    have := (range id (List.mem_of_getElem? at_j)).1
    omega
  have distinct : (freshIds (Box.ofKey t.matchMode k) t.nextId (t.owned boxes)).Nodup :=
    sorted.imp fun lt => ne_of_lt lt
  obtain ⟨hj, rfl⟩ := List.getElem?_eq_some_iff.mp at_j
  rw [renumber, List.idxOf_append_of_notMem new, issuedBy, distinct.idxOf_getElem j hj, rel.next]
  omega

theorem Restricts.update (rel : Restricts k issued t t') (boxes : List Box) :
    Restricts k (issued ++ t.issuedBy k boxes) (t.update boxes).1
        (t'.update (boxes.filter (Box.ofKey t.matchMode k))).1 ∧
      (t'.update (boxes.filter (Box.ofKey t.matchMode k))).2 =
        ((t.update boxes).2.filter (Box.ofKey t.matchMode k)).map
          (Box.relabel (renumber (issued ++ t.issuedBy k boxes))) := by
  -- The old tracks may as well be renumbered with the ids of this frame added.
  obtain ⟨f, h, sub, owned_at, advanced_at⟩ :=
    exists_subProblem rel.toSameParams (rel.relabel_congr (t.issuedBy k boxes)) boxes
  have owners := owners_restrict rel.toSameParams sub owned_at
  have survivors := survivors_restrict rel.toSameParams
    (advanced_restrict rel.toSameParams sub advanced_at)
  have numbers := rel.numbers boxes
  have kept : boxes.filter (Box.ofKey t.matchMode k) =
      ((t.owned boxes).filter fun z => z.1.ofKey t.matchMode k).map (·.1) := by
    rw [owned, filter_zip_fst _ (t.length_owners boxes).ge]
  obtain ⟨sorted, range⟩ := freshIds_sorted (Box.ofKey t.matchMode k) t.nextId (t.owned boxes)
  rw [owned_snd] at range
  rw [update_eq_settle, update_eq_settle, settle, settle]
  refine ⟨⟨⟨rel.iouThr, rel.maxAge, rel.matchMode, rel.masked, rel.pos⟩, ?_, ?_, ?_, ?_, ?_⟩, ?_⟩
  · simp only [owners, survivors, List.filter_append, List.map_append]
    conv_lhs => rw [kept, births_restrict numbers, owned_snd, owned_fst]
  · simp only [owners, List.length_append]
    rw [count_ownersOf _ _ t.nextId, rel.next, issuedBy]
    omega
  · refine List.pairwise_append.mpr ⟨rel.sorted, sorted, fun id old id' new => ?_⟩
    have := rel.below id old
    have := (range id' new).1
    omega
  · intro id mem
    cases List.mem_append.mp mem with
    | inl old => exact (rel.below id old).trans_le (Nat.le_add_right _ _)
    | inr new => exact (range id new).2
  · intro trk mem key
    cases List.mem_append.mp mem with
    | inl old =>
      -- A survivor had its key before: whoever claimed it has the same one.
      obtain ⟨i, at_i⟩ := List.mem_iff_getElem?.mp (List.mem_of_mem_filter old)
      rw [List.getElem?_mapIdx, Option.map_eq_some_iff] at at_i
      obtain ⟨trk, ht, rfl⟩ := at_i
      rw [ofKey_advance rel.toSameParams ht] at key
      rw [Track.advance_id]
      exact List.mem_append_left _ (rel.known trk (List.mem_of_getElem? ht) key)
    | inr new =>
      refine List.mem_append_right _ ?_
      rw [issuedBy, ← births_key_ids, owned_snd, owned_fst]
      exact List.mem_map.mpr ⟨trk, List.mem_filter.mpr ⟨new, key⟩, rfl⟩
  · simp only [stampIds, owners]
    conv_lhs => rw [kept, stamps_restrict numbers, owned_snd, owned_fst]

theorem Restricts.stamped_issued (rel : Restricts k issued t t') {b : Box} {id : ℕ}
    (out : b ∈ (t.update boxes).2) (key : b.ofKey t.matchMode k = true) (has_id : b.trackId = some id) :
    id ∈ issued ++ t.issuedBy k boxes := by
  obtain ⟨di, b, id', stamped, rfl⟩ := mem_output_iff.mp out
  obtain rfl : id' = id := by simpa using has_id
  obtain ⟨ti, trk, ht, rfl, claimed⟩ | born := stamped_cases stamped
  · have same := @ofKey_advance _ _ k boxes rel.toSameParams _ _ ht
    rw [claimed] at same
    exact List.mem_append_left _ (rel.known trk (List.mem_of_getElem? ht) (same.symm.trans key))
  · refine List.mem_append_right _ ?_
    rw [issuedBy, ← births_key_ids, owned_snd, owned_fst]
    exact List.mem_map.mpr ⟨_, List.mem_filter.mpr ⟨born, key⟩, rfl⟩

theorem relabel_append {more : List ℕ} {boxes : List Box}
    (known : ∀ b ∈ boxes, ∀ id, b.trackId = some id → id ∈ issued) :
    boxes.map (Box.relabel (renumber (issued ++ more))) = boxes.map (Box.relabel (renumber issued)) := by
  apply List.map_congr_left
  intro b mem
  cases has_id : b.trackId with
  | none => simp [Box.relabel, has_id]
  | some id => simp [Box.relabel, has_id, renumber_append (known b mem id has_id)]

end

@[simp] theorem matchMode_update (t : ByteTrackLite) (boxes : List Box) :
    (t.update boxes).1.matchMode = t.matchMode := by
  simp [update_eq_settle, settle]

theorem Restricts.run {t t' : ByteTrackLite} {k : Int32} {issued : List ℕ}
    (rel : Restricts k issued t t') (frames : List (List Box)) :
    ∃ more, (issued ++ more).Pairwise (· < ·) ∧
      (∀ out ∈ outputs t (frames.map .update), ∀ b ∈ out, b.ofKey t.matchMode k = true →
        ∀ id, b.trackId = some id → id ∈ issued ++ more) ∧
      outputs t' ((frames.map (·.filter (Box.ofKey t.matchMode k))).map .update) =
        (outputs t (frames.map .update)).map fun out =>
          (out.filter (Box.ofKey t.matchMode k)).map (Box.relabel (renumber (issued ++ more))) := by
  induction frames generalizing t t' issued with
  | nil => exact ⟨[], by simpa using rel.sorted, by simp [outputs], rfl⟩
  | cons boxes frames ih =>
    obtain ⟨rel', first⟩ := rel.update boxes
    obtain ⟨more, sorted, known, rest⟩ := ih rel'
    rw [matchMode_update] at known rest
    rw [List.append_assoc] at sorted known rest
    refine ⟨t.issuedBy k boxes ++ more, sorted, ?_, ?_⟩
    · intro out mem b in_out key id has_id
      obtain rfl | mem := List.mem_cons.mp mem
      · rw [← List.append_assoc]
        exact List.mem_append_left _ (rel.stamped_issued in_out key has_id)
      · exact known out mem b in_out key id has_id
    · -- Ids that come later do not change the numbers of these.
      simp only [List.map_cons, outputs, Op.apply, rest, first, ← List.append_assoc]
      rw [relabel_append fun b mem id has_id =>
        rel.stamped_issued (List.mem_filter.mp mem).1 (List.mem_filter.mp mem).2 has_id]

end ByteTrackLite

open ByteTrackLite

/-- Dropping the detections of all other class keys changes how one key's detections
    are tracked by nothing but an order-preserving renumbering of their ids. -/
theorem class_noninterference (iouThr : IouThr) (pos : 0 < iouThr.1) (maxAge : ℤ)
    (matchMode : String) (masked : normalizeMode matchMode ≠ .any) (k : Int32)
    (frames : List (List Box)) :
    let t₀ := ByteTrackLite.init iouThr maxAge matchMode
    let ofKey := fun b : Box => decide (canonicalCls b.getCls (normalizeMode matchMode) = k)
    let outs := outputs t₀ (frames.map .update)
    ∃ f : ℕ → ℕ,
      StrictMonoOn f {id | ∃ out ∈ outs, ∃ b ∈ out, ofKey b = true ∧ b.trackId = some id} ∧
      outputs t₀ ((frames.map (·.filter ofKey)).map .update) =
        outs.map fun out => (out.filter ofKey).map fun b => { b with trackId := b.trackId.map f } := by
  intro t₀ ofKey outs
  have run := (restricts_init pos maxAge masked k).run frames
  have same_key : Box.ofKey (init iouThr maxAge matchMode).matchMode k = ofKey := by
    simp only [init]
    rfl
  rw [same_key] at run
  obtain ⟨more, sorted, known, same⟩ := run
  refine ⟨renumber more, (renumber_strictMonoOn sorted).mono ?_, same⟩
  rintro id ⟨out, mem, b, in_out, key, has_id⟩
  exact known out mem b in_out key id has_id

def car : Box := { walker with cls := some 2 }

def van : Box := { xyxy := ⟨1 / 2, 1 / 2, 7 / 10, 9 / 10⟩, score := 1 / 2, cls := some 7 }

/-- A walker in the very place of the car takes id 1 and leaves the cars' tracks alone. -/
theorem class_noninterference_cars :
    let t₀ := ByteTrackLite.init ⟨3 / 10, by norm_num⟩ 90 "vehicle_group"
    ∃ f : ℕ → ℕ, f 2 < f 3 ∧
      outputs t₀ ([[walker, car], [car, van, walker]].map .update) =
        [[walker.stamp 1, car.stamp 2], [car.stamp 2, van.stamp 3, walker.stamp 1]] ∧
      outputs t₀ ([[car], [car, van]].map .update) =
        [[car.stamp (f 2)], [car.stamp (f 2), van.stamp (f 3)]] := by
  intro t₀
  have full : outputs t₀ ([[walker, car], [car, van, walker]].map .update) =
      [[walker.stamp 1, car.stamp 2], [car.stamp 2, van.stamp 3, walker.stamp 1]] := by
    rw [show t₀ = ByteTrackLite.init ⟨3 / 10, by norm_num⟩ 90 "vehicle_group" from rfl]
    decide +kernel
  obtain ⟨f, mono, same⟩ := class_noninterference ⟨3 / 10, by norm_num⟩ (by norm_num) 90
    "vehicle_group" (by decide +kernel) (-100) [[walker, car], [car, van, walker]]
  rw [full] at mono same
  have cars : [[walker, car], [car, van, walker]].map
      (·.filter fun b => decide (canonicalCls b.getCls (normalizeMode "vehicle_group") = -100)) =
      [[car], [car, van]] := by
    decide +kernel
  refine ⟨f, ?_, full, ?_⟩
  · apply mono
    · exact ⟨_, List.mem_cons_self, car.stamp 2, by simp, by decide +kernel, rfl⟩
    · exact ⟨_, List.mem_cons_of_mem _ List.mem_cons_self, van.stamp 3, by simp, by decide +kernel, rfl⟩
    · decide
  · rw [cars] at same
    have tracked : [[walker.stamp 1, car.stamp 2], [car.stamp 2, van.stamp 3, walker.stamp 1]].map
        (·.filter fun b => decide (canonicalCls b.getCls (normalizeMode "vehicle_group") = -100)) =
        [[car.stamp 2], [car.stamp 2, van.stamp 3]] := by
      decide +kernel
    have relabeled := congrArg (List.map (List.map (Box.relabel f))) tracked
    rw [List.map_map] at relabeled
    exact same.trans relabeled

end VisionNx.Tracker
