namespace FacetedSearch

-- A test that holds up to some index and fails from there on: that index is
-- found by halving. The fuel is the number of indices left, which more than
-- halves at each step.
def firstFailure (test : Nat → Bool) : Nat → Nat → Nat → Nat
  | 0, low, _ => low
  | fuel + 1, low, high =>
    if low < high then
      let middle := (low + high) / 2
      if test middle then firstFailure test fuel (middle + 1) high else firstFailure test fuel low middle
    else low

theorem firstFailure_parts (test : Nat → Bool) (fuel low high : Nat) (ordered : low ≤ high)
    (enough : high - low ≤ fuel)
    (falling : ∀ i j, i ≤ j → j < high → test j = true → test i = true) :
    low ≤ firstFailure test fuel low high ∧ firstFailure test fuel low high ≤ high ∧
      (∀ i, low ≤ i → i < firstFailure test fuel low high → test i = true) ∧
      ∀ i, firstFailure test fuel low high ≤ i → i < high → test i = false := by
  induction fuel generalizing low high with
  | zero =>
    have same : low = high := by omega
    subst same
    exact ⟨Nat.le_refl _, Nat.le_refl _, fun i above below => absurd below (by simp [firstFailure]; omega),
      fun i above below => absurd below (by simp [firstFailure] at above; omega)⟩
  | succ fuel ih =>
    unfold firstFailure
    by_cases room : low < high
    · rw [if_pos room]
      have above : low ≤ (low + high) / 2 := by omega
      have below : (low + high) / 2 < high := by omega
      cases found : test ((low + high) / 2) with
      | true =>
        simp only [found, if_true]
        obtain ⟨start, stop, holds, fails⟩ := ih ((low + high) / 2 + 1) high
          below (by omega) falling
        refine ⟨by omega, stop, fun i _ inside => ?_, fails⟩
        by_cases early : i ≤ (low + high) / 2
        · exact falling i _ early below found
        · exact holds i (by omega) inside
      | false =>
        simp only [found, Bool.false_eq_true, if_false]
        obtain ⟨start, stop, holds, fails⟩ := ih low ((low + high) / 2)
          above (by omega) fun i j order inside => falling i j order (by omega)
        refine ⟨start, by omega, holds, fun i past inside => ?_⟩
        by_cases early : i < (low + high) / 2
        · exact fails i past early
        · cases kept : test i with
          | false => rfl
          | true =>
            have earlier := falling ((low + high) / 2) i (by omega) inside kept
            rw [found] at earlier
            cases earlier
    · rw [if_neg room]
      exact ⟨Nat.le_refl _, ordered, fun i above below => absurd below (by omega),
        fun i above below => absurd below (by omega)⟩

-- The number of leading elements that pass, where none passes after a failure.
def passing {α : Type} (test : α → Bool) (xs : Array α) : Nat :=
  firstFailure (fun i => xs[i]?.any test) xs.size 0 xs.size

theorem passing_parts {α : Type} {test : α → Bool} {xs : Array α}
    (falling : xs.toList.Pairwise fun a b => test b = true → test a = true) :
    passing test xs ≤ xs.size ∧ ∀ (i : Nat) (inside : i < xs.size),
      i < passing test xs ↔ test xs[i] = true := by
  have reading : ∀ (i : Nat) (inside : i < xs.size), (xs[i]?.any test) = test xs[i] := fun i inside => by
    rw [Array.getElem?_eq_getElem inside, Option.any_some]
  obtain ⟨_, stop, holds, fails⟩ := firstFailure_parts (fun i => xs[i]?.any test) xs.size 0 xs.size
    (Nat.zero_le xs.size) (Nat.le_refl _) fun i j order inside later => by
      rw [reading j inside] at later
      rw [reading i (by omega)]
      rcases Nat.lt_or_eq_of_le order with before | same
      · exact List.pairwise_iff_getElem.mp falling i j (by simpa using by omega) (by simpa using inside)
          before later
      · subst same
        exact later
  refine ⟨stop, fun i inside => ⟨fun early => ?_, fun holding => Nat.lt_of_not_le fun late => ?_⟩⟩
  · rw [← reading i inside]
    exact holds i (Nat.zero_le i) early
  · have failing := fails i late inside
    simp only [reading i inside] at failing
    rw [holding] at failing
    cases failing

theorem below_passing_iff {α : Type} [LE α] [LT α] [DecidableLT α] [Std.IsPreorder α] [Std.LawfulOrderLT α]
    {xs : Array α} {bound : α} {i : Nat} (ascending : xs.toList.Pairwise (· ≤ ·)) (inside : i < xs.size) :
    i < passing (· < bound) xs ↔ xs[i] < bound := by
  have falling := ascending.imp (S := fun a b => decide (b < bound) = true → decide (a < bound) = true)
    fun order later => decide_eq_true (Std.lt_of_le_of_lt order (of_decide_eq_true later))
  rw [(passing_parts falling).2 i inside, decide_eq_true_eq]

end FacetedSearch
