import Mathlib.Order.WellFoundedSet

/-! # Greedy matchings

A *greedy matching* pairs elements of two types along a relation of eligible
pairs, always preferring the pair that comes first in a fixed order.  Instead of
describing the loop that computes it, `IsGreedy` states what its result looks
like: the chosen pairs are eligible, no element is used twice, and every eligible
pair that was left out is blocked by a chosen pair that shares an element with it
and comes before it.

When the order is well founded on the eligible pairs these conditions leave no choice
(`IsGreedy.unique`), so two procedures that both satisfy them compute the same
matching.  `IsGreedy.comap` restricts a greedy matching to a sub-problem that is
closed under eligibility, which is how a computation on part of the input is
compared with the computation on all of it.
-/

namespace GreedyMatching

variable {α β γ δ : Type*}

/-- `M` is a greedy matching for the eligible pairs `elig` taken in the order
    `before`. -/
structure IsGreedy (elig : α → β → Prop) (before : α × β → α × β → Prop)
    (M : α → β → Prop) : Prop where
  eligible : ∀ {a b}, M a b → elig a b
  left_unique : ∀ {a b b'}, M a b → M a b' → b = b'
  right_unique : ∀ {a a' b}, M a b → M a' b → a = a'
  dominated : ∀ {a b}, elig a b → ¬ M a b →
    ∃ a' b', M a' b' ∧ (a' = a ∨ b' = b) ∧ before (a', b') (a, b)

section

variable {elig : α → β → Prop} {before : α × β → α × β → Prop} {M N : α → β → Prop}

/-- Two chosen pairs that share an element are the same pair. -/
theorem IsGreedy.eq_of_share (greedy : IsGreedy elig before M) {a a' : α} {b b' : β}
    (chosen : M a b) (chosen' : M a' b') (share : a' = a ∨ b' = b) : a' = a ∧ b' = b := by
  obtain rfl | rfl := share
  · exact ⟨rfl, greedy.left_unique chosen' chosen⟩
  · exact ⟨greedy.right_unique chosen' chosen, rfl⟩

/-- One half of uniqueness: a pair chosen by `M` is chosen by every other greedy
    matching `N`, provided the two agree on all earlier eligible pairs. -/
theorem IsGreedy.chosen_of_agree (irrefl : ∀ p : α × β, elig p.1 p.2 → ¬ before p p)
    (greedy : IsGreedy elig before M) (other : IsGreedy elig before N) {a : α} {b : β}
    (agree : ∀ a' b', elig a' b' → before (a', b') (a, b) → (M a' b' ↔ N a' b'))
    (chosen : M a b) : N a b := by
  by_contra unchosen
  have eligible := greedy.eligible chosen
  obtain ⟨a', b', chosen', share, earlier⟩ := other.dominated eligible unchosen
  have inM := (agree a' b' (other.eligible chosen') earlier).mpr chosen'
  obtain ⟨rfl, rfl⟩ := greedy.eq_of_share chosen inM share
  exact irrefl _ eligible earlier

/-- An order that is well founded on the eligible pairs admits at most one greedy
    matching. -/
theorem IsGreedy.unique (wf : Set.WellFoundedOn {p : α × β | elig p.1 p.2} before)
    (greedy : IsGreedy elig before M) (other : IsGreedy elig before N) (a : α) (b : β) :
    M a b ↔ N a b := by
  have irrefl : ∀ p : α × β, elig p.1 p.2 → ¬ before p p := by
    intro p eligible loop
    exact (Set.wellFoundedOn_iff.mp wf).irrefl.irrefl p ⟨loop, eligible, eligible⟩
  have agree : ∀ p : α × β, elig p.1 p.2 → (M p.1 p.2 ↔ N p.1 p.2) := by
    intro p eligible
    refine wf.induction (P := fun p => M p.1 p.2 ↔ N p.1 p.2) eligible fun p _ ih => ?_
    have earlier : ∀ a' b', elig a' b' → before (a', b') (p.1, p.2) → (M a' b' ↔ N a' b') :=
      fun a' b' eligible' h => ih (a', b') eligible' h
    exact ⟨greedy.chosen_of_agree irrefl other earlier,
      other.chosen_of_agree irrefl greedy fun a' b' e h => (earlier a' b' e h).symm⟩
  exact ⟨fun chosen => (agree (a, b) (greedy.eligible chosen)).mp chosen,
    fun chosen => (agree (a, b) (other.eligible chosen)).mpr chosen⟩

/-- What counts is which pairs are eligible and how two different ones are ordered. -/
theorem IsGreedy.congr (greedy : IsGreedy elig before M) {elig' : α → β → Prop}
    {before' : α × β → α × β → Prop} (elig_iff : ∀ a b, elig' a b ↔ elig a b)
    (before_of : ∀ p q : α × β, elig p.1 p.2 → elig q.1 q.2 → p ≠ q → before p q → before' p q) :
    IsGreedy elig' before' M where
  eligible chosen := (elig_iff _ _).mpr (greedy.eligible chosen)
  left_unique := greedy.left_unique
  right_unique := greedy.right_unique
  dominated := by
    intro a b eligible unchosen
    have eligible := (elig_iff a b).mp eligible
    obtain ⟨a', b', chosen, share, earlier⟩ := greedy.dominated eligible unchosen
    have distinct : (a', b') ≠ (a, b) := by
      rintro ⟨⟩
      exact unchosen chosen
    exact ⟨a', b', chosen, share, before_of _ _ (greedy.eligible chosen) eligible distinct earlier⟩

/-- Greedy matchings restrict along embeddings `f`, `g` of a sub-problem, as long
    as an eligible pair with one side in the sub-problem has its other side there
    too, and the sub-problem orders its pairs as the whole problem does. -/
theorem IsGreedy.comap (greedy : IsGreedy elig before M)
    {f : γ → α} {g : δ → β} (f_inj : Function.Injective f) (g_inj : Function.Injective g)
    {elig' : γ → δ → Prop} {before' : γ × δ → γ × δ → Prop}
    (elig_iff : ∀ c d, elig' c d ↔ elig (f c) (g d))
    (before_iff : ∀ c d c' d', before (f c, g d) (f c', g d') → before' (c, d) (c', d'))
    (closed_left : ∀ c b, elig (f c) b → ∃ d, g d = b)
    (closed_right : ∀ a d, elig a (g d) → ∃ c, f c = a) :
    IsGreedy elig' before' (fun c d => M (f c) (g d)) where
  eligible chosen := (elig_iff _ _).mpr (greedy.eligible chosen)
  left_unique chosen chosen' := g_inj (greedy.left_unique chosen chosen')
  right_unique chosen chosen' := f_inj (greedy.right_unique chosen chosen')
  dominated := by
    intro c d eligible unchosen
    obtain ⟨a', b', chosen, share, earlier⟩ :=
      greedy.dominated ((elig_iff c d).mp eligible) unchosen
    have inside : (∃ c', f c' = a') ∧ ∃ d', g d' = b' := by
      obtain rfl | rfl := share
      · exact ⟨⟨c, rfl⟩, closed_left c b' (greedy.eligible chosen)⟩
      · exact ⟨closed_right a' d (greedy.eligible chosen), ⟨d, rfl⟩⟩
    obtain ⟨⟨c', rfl⟩, d', rfl⟩ := inside
    exact ⟨c', d', chosen, share.imp (fun h => f_inj h) (fun h => g_inj h),
      before_iff _ _ _ _ earlier⟩

end

end GreedyMatching
