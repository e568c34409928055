import Mathlib.Data.List.Basic
import Mathlib.Order.Nat

/-! # Streams of self-delimiting messages

A reader takes messages off the front of a byte stream.  `Delimits` says that it
recognises the messages that a writer writes: it reads its view of a complete one
whatever follows, and nothing of an incomplete one.  A stream of such messages that is cut
anywhere is then read back up to the last message that was complete
(`Delimits.decodeAll_prefix`). -/

namespace MessageStream

variable {α β γ σ τ : Type*}

/-- `dec` takes the messages that `enc` writes off a stream, as `view` shows them, and no
    part of one. -/
structure Delimits (dec : List β → Option (γ × List β)) (enc : α → List β) (view : α → γ)
    (ok : α → Prop) : Prop where
  complete : ∀ a rest, ok a → dec (enc a ++ rest) = some (view a, rest)
  incomplete : ∀ a p, ok a → p <+: enc a → p ≠ enc a → dec p = none
  empty : dec [] = none

/-- The messages that `dec` takes off the front of a stream, up to the first that stops
    the reader, but no more than `fuel`. -/
def decodeAll (dec : σ → Option (γ × σ)) (stop : γ → Bool) : ℕ → σ → List γ
  | 0, _ => []
  | fuel + 1, stream =>
    match dec stream with
    | none => []
    | some (c, rest) => if stop c then [c] else c :: decodeAll dec stop fuel rest

variable {dec : List β → Option (γ × List β)} {enc : α → List β} {view : α → γ} {ok : α → Prop}
  {stop : γ → Bool}

theorem length_flatMap_take_le (enc : α → List β) (msgs : List α) (n : ℕ) :
    ((msgs.take n).flatMap enc).length ≤ (msgs.flatMap enc).length := by
  conv_rhs => rw [← List.take_append_drop n msgs, List.flatMap_append, List.length_append]
  exact Nat.le_add_right _ _

theorem Delimits.enc_ne_nil (delimits : Delimits dec enc view ok) {a : α} (ok_a : ok a) : enc a ≠ [] := by
  intro nothing
  have read := delimits.complete a [] ok_a
  rw [nothing, List.append_nil, delimits.empty] at read
  cases read

/-- A stream cut after any number of bytes gives back the messages that were complete
    before the cut. -/
theorem Delimits.decodeAll_prefix (delimits : Delimits dec enc view ok) {msgs : List α}
    (all_ok : ∀ a ∈ msgs, ok a) (last : ∀ a ∈ msgs.dropLast, stop (view a) = false) {fuel : ℕ}
    {p : List β} (enough : p.length ≤ fuel) (cut : p <+: msgs.flatMap enc) :
    ∃ n ≤ msgs.length, decodeAll dec stop fuel p = (msgs.take n).map view ∧
      ((msgs.take n).flatMap enc).length ≤ p.length ∧
      (n < msgs.length → p.length < ((msgs.take (n + 1)).flatMap enc).length) := by
  induction msgs generalizing fuel p with
  | nil =>
    obtain rfl : p = [] := by simpa using cut
    refine ⟨0, le_rfl, ?_, by simp, by simp⟩
    cases fuel <;> simp [decodeAll, delimits.empty]
  | cons a msgs ih =>
    have ok_a := all_ok a List.mem_cons_self
    have positive := List.length_pos_iff.mpr (delimits.enc_ne_nil ok_a)
    rw [List.flatMap_cons] at cut
    -- Either the first message is complete, or nothing can be read.
    by_cases whole : enc a <+: p
    · obtain ⟨rest, rfl⟩ := whole
      rw [List.length_append] at enough
      obtain ⟨fuel, rfl⟩ : ∃ f, fuel = f + 1 := ⟨fuel - 1, by omega⟩
      have cut' : rest <+: msgs.flatMap enc := (List.prefix_append_right_inj (enc a)).mp cut
      have read := delimits.complete a rest ok_a
      cases stops : stop (view a) with
      | true =>
        -- Only the last message stops the reader.
        have no_more : msgs = [] := by
          by_contra more
          have := last a (by simp [List.dropLast_cons_of_ne_nil more])
          simp [stops] at this
        refine ⟨1, by simp, ?_, by simp, by simp [no_more]⟩
        simp [decodeAll, read, stops]
      | false =>
        have last' : ∀ b ∈ msgs.dropLast, stop (view b) = false := by
          intro b mem
          refine last b ?_
          rw [List.dropLast_cons_of_ne_nil (by rintro rfl; cases mem)]
          exact List.mem_cons_of_mem a mem
        obtain ⟨n, bound, received, fits, maximal⟩ := ih
          (fun b mem => all_ok b (List.mem_cons_of_mem a mem)) last' (show rest.length ≤ fuel by omega) cut'
        refine ⟨n + 1, by simpa using bound, ?_, ?_, fun lt => ?_⟩
        · simp [decodeAll, read, stops, received]
        · rw [List.take_succ_cons, List.flatMap_cons, List.length_append, List.length_append]
          exact Nat.add_le_add_left fits _
        · rw [List.take_succ_cons, List.flatMap_cons, List.length_append, List.length_append]
          exact Nat.add_lt_add_left (maximal (by simpa using lt)) _
    · -- The cut is inside the first message.
      have short : p <+: enc a :=
        (List.prefix_or_prefix_of_prefix cut (List.prefix_append (enc a) _)).resolve_right whole
      have ne : p ≠ enc a := fun same => whole (same ▸ List.prefix_refl p)
      refine ⟨0, Nat.zero_le _, ?_, by simp, fun _ => ?_⟩
      · cases fuel <;> simp [decodeAll, delimits.incomplete a p ok_a short ne]
      · have : p.length < (enc a).length :=
          lt_of_le_of_ne short.length_le fun same => ne (short.eq_of_length same)
        simpa using this

/-- Two readers that agree on related streams read the same messages. -/
theorem decodeAll_congr {dec : σ → Option (γ × σ)} {dec' : τ → Option (γ × τ)} {R : σ → τ → Prop}
    (agree : ∀ s t, R s t → Option.Rel (fun x y => x.1 = y.1 ∧ R x.2 y.2) (dec s) (dec' t))
    (stop : γ → Bool) (fuel : ℕ) {s : σ} {t : τ} (related : R s t) :
    decodeAll dec stop fuel s = decodeAll dec' stop fuel t := by
  induction fuel generalizing s t with
  | zero => rfl
  | succ fuel ih =>
    have step := agree s t related
    rw [decodeAll, decodeAll]
    revert step
    generalize dec s = x
    generalize dec' t = y
    intro step
    cases step with
    | none => rfl
    | @some x y same =>
      obtain ⟨c, s'⟩ := x
      obtain ⟨d, t'⟩ := y
      obtain ⟨rfl, related'⟩ := same
      simp only [ih related']

theorem Delimits.decodeAll_all (delimits : Delimits dec enc view ok) {msgs : List α}
    (all_ok : ∀ a ∈ msgs, ok a) (last : ∀ a ∈ msgs.dropLast, stop (view a) = false) {fuel : ℕ}
    (enough : (msgs.flatMap enc).length ≤ fuel) : decodeAll dec stop fuel (msgs.flatMap enc) = msgs.map view := by
  obtain ⟨n, bound, received, _, maximal⟩ :=
    delimits.decodeAll_prefix all_ok last enough (List.prefix_refl _)
  obtain lt | rfl := bound.lt_or_eq
  · exact absurd (maximal lt) (Nat.not_lt.mpr (length_flatMap_take_le enc msgs (n + 1)))
  · rw [received, List.take_length]

/-- A reader that takes something off the stream with each message needs no more fuel than that. -/
theorem decodeAll_fuel (shrinks : ∀ stream c rest, dec stream = some (c, rest) → rest.length < stream.length)
    {fuel fuel' : ℕ} {stream : List β} (enough : stream.length ≤ fuel) (enough' : stream.length ≤ fuel') :
    decodeAll dec stop fuel stream = decodeAll dec stop fuel' stream := by
  have refused : dec [] = none := by
    cases is : dec [] with
    | none => rfl
    | some x => exact absurd (shrinks _ _ _ is) (Nat.not_lt_zero _)
  have nothing (fuel : ℕ) : decodeAll dec stop fuel [] = [] := by
    cases fuel with
    | zero => rfl
    | succ fuel => simp only [decodeAll, refused]
  induction fuel generalizing fuel' stream with
  | zero =>
    obtain rfl : stream = [] := List.eq_nil_of_length_eq_zero (by omega)
    rw [nothing, nothing]
  | succ fuel ih =>
    cases fuel' with
    | zero =>
      obtain rfl : stream = [] := List.eq_nil_of_length_eq_zero (by omega)
      rw [nothing, nothing]
    | succ fuel' =>
      rw [decodeAll, decodeAll]
      cases is : dec stream with
      | none => rfl
      | some x =>
        have shorter := shrinks _ _ _ is
        simp only [@ih fuel' x.2 (by omega) (by omega)]

/-- Behind a message that the reader refuses it reads nothing. -/
theorem Delimits.decodeAll_refused (delimits : Delimits dec enc view ok) {msgs : List α}
    (all_ok : ∀ a ∈ msgs, ok a) (going : ∀ a ∈ msgs, stop (view a) = false) {rest : List β}
    (refused : dec rest = none) {fuel : ℕ} (enough : (msgs.flatMap enc).length ≤ fuel) :
    decodeAll dec stop fuel (msgs.flatMap enc ++ rest) = msgs.map view := by
  induction msgs generalizing fuel with
  | nil => cases fuel <;> simp [decodeAll, refused]
  | cons a msgs ih =>
    have ok_a := all_ok a List.mem_cons_self
    have positive := List.length_pos_iff.mpr (delimits.enc_ne_nil ok_a)
    rw [List.flatMap_cons, List.length_append] at enough
    obtain ⟨fuel, rfl⟩ : ∃ f, fuel = f + 1 := ⟨fuel - 1, by omega⟩
    have tail := ih (fun b mem => all_ok b (List.mem_cons_of_mem a mem))
      (fun b mem => going b (List.mem_cons_of_mem a mem)) (show _ ≤ fuel by omega)
    rw [List.flatMap_cons, List.append_assoc, decodeAll, delimits.complete a _ ok_a]
    simp [going a List.mem_cons_self, tail]

end MessageStream
