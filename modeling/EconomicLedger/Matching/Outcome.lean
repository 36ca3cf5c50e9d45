import EconomicLedger.Matching.Settlement
import Mathlib.Algebra.BigOperators.Group.Finset.Basic
import Mathlib.Algebra.Order.BigOperators.Group.Finset
import Mathlib.Algebra.Order.Ring.Int

/-!
# The outcome of an action

Which of the five outcomes an action has is decided by the sets of candidates that sum to its
amount: by how many candidates have it on their own, and else by whether 2 to 6 of them have it
together.
-/

namespace EconomicLedger.Matching
open Model

variable (sha256 : Digest) (action : EconomicAction) (movements : List TokenMovement)

def ofItsAmount : List TokenMovement :=
  (candidatesFor action movements).filter (·.amount = action.amountLink)

/-- A set of candidates that sums to the amount of the action. -/
def SumSet (s : Finset TokenMovement) : Prop :=
  s ⊆ (candidatesFor action movements).toFinset ∧ ∑ m ∈ s, m.amount = action.amountLink

/-! ## Sets and sublists -/

section Sets
variable {action movements}

theorem SumSet.positive {s : Finset TokenMovement} (sums : SumSet action movements s)
    (nonempty : s.Nonempty) : 0 < action.amountLink := by
  rw [← sums.2]
  apply Finset.sum_pos _ nonempty
  intro m member
  have candidate := List.mem_toFinset.mp (sums.1 member)
  have both := (List.mem_filter.mp candidate).2
  simp only [Bool.and_eq_true, decide_eq_true_eq] at both
  exact both.2

variable (action) in
theorem candidatesFor_nodup (distinct : (movements.map TokenMovement.movementId).Nodup) :
    (candidatesFor action movements).Nodup := (List.Nodup.of_map _ distinct).filter _

variable (action) in
theorem exists_sumSet_iff (distinct : (movements.map TokenMovement.movementId).Nodup)
    (low high : Nat) :
    (∃ s, SumSet action movements s ∧ low ≤ s.card ∧ s.card < high) ↔
      ∃ t, t.Sublist (candidatesFor action movements) ∧ low ≤ t.length ∧ t.length < high ∧
        sumsTo action.amountLink t = true := by
  have nodup := candidatesFor_nodup action distinct
  have sized (t : List TokenMovement) (sub : t.Sublist (candidatesFor action movements)) :
      t.toFinset.card = t.length := List.toFinset_card_of_nodup (nodup.sublist sub)
  have summed (t : List TokenMovement) (sub : t.Sublist (candidatesFor action movements)) :
      ∑ m ∈ t.toFinset, m.amount = amountOf t :=
    List.sum_toFinset TokenMovement.amount (nodup.sublist sub)
  constructor
  · rintro ⟨s, ⟨inside, total⟩, atLeast, atMost⟩
    obtain ⟨t, sub, rfl⟩ := exists_sublist_toFinset inside
    rw [sized t sub] at atLeast atMost
    rw [summed t sub] at total
    exact ⟨t, sub, atLeast, atMost, decide_eq_true total⟩
  · rintro ⟨t, sub, atLeast, atMost, total⟩
    refine ⟨t.toFinset, ⟨fun m member => ?_, ?_⟩, ?_, ?_⟩
    · exact List.mem_toFinset.mpr (sub.subset (List.mem_toFinset.mp member))
    · rw [summed t sub]
      exact of_decide_eq_true total
    · rwa [sized t sub]
    · rwa [sized t sub]

theorem exists_batch_iff (distinct : (movements.map TokenMovement.movementId).Nodup)
    (expected : action.kind ∉ notExpectedKinds) (none : ofItsAmount action movements = []) :
    (settle action movements).isSome ↔
      ∃ s, SumSet action movements s ∧ 2 ≤ s.card ∧ s.card ≤ maxSubsetSize := by
  have absent : ∀ m ∈ candidatesFor action movements, m.amount ≠ action.amountLink := by
    simpa [ofItsAmount] using none
  have sets := exists_sumSet_iff action distinct 2 (maxSubsetSize + 1)
  simp only [Nat.lt_succ_iff] at sets
  have missed : (candidatesFor action movements).find? (·.amount = action.amountLink) = .none := by
    simpa using absent
  unfold settle
  simp only [if_neg expected, missed]
  by_cases positive : 0 < action.amountLink
  · rw [if_pos positive, searchCombinations_isSome_iff, sets]
    constructor
    · rintro ⟨t, sub, atLeast, atMost, total⟩
      exact ⟨t, sub, atLeast, by omega, total⟩
    · rintro ⟨t, sub, atLeast, atMost, total⟩
      have := sub.length_le
      exact ⟨t, sub, atLeast, by omega, total⟩
  · rw [if_neg positive]
    constructor
    · intro some
      cases some
    · rintro ⟨s, sums, atLeast, -⟩
      exact absurd (sums.positive (Finset.card_pos.mp (by omega))) positive

end Sets

/-! ## The edges of an outcome -/

def Single (edges : List ActionMovementMatch) (status : Status) : Prop :=
  ∃ edge, edges = [edge] ∧ edge.status = status

def Batch (edges : List ActionMovementMatch) : Prop :=
  2 ≤ edges.length ∧ ∀ edge ∈ edges, edge.status = .partialMatch

def HasBatch : Prop := ∃ s, SumSet action movements s ∧ 2 ≤ s.card ∧ s.card ≤ maxSubsetSize

def namedBy (m : TokenMovement) : Option String × Int := (some m.movementId, m.amount)

structure Outcome (edges : List ActionMovementMatch) : Prop where
  nonempty : edges ≠ []
  notExpected : Single edges .notExpected ↔ action.kind ∈ notExpectedKinds
  exact : Single edges .exact ↔
    action.kind ∉ notExpectedKinds ∧ (ofItsAmount action movements).length = 1
  ambiguous : Single edges .ambiguous ↔
    action.kind ∉ notExpectedKinds ∧ 1 < (ofItsAmount action movements).length
  batch : Batch edges ↔
    action.kind ∉ notExpectedKinds ∧ ofItsAmount action movements = [] ∧ HasBatch action movements
  unmatched : Single edges .unmatched ↔
    action.kind ∉ notExpectedKinds ∧ ofItsAmount action movements = [] ∧ ¬ HasBatch action movements
  earliest : Batch edges → ∃ subset : List TokenMovement, edges.map allocation = subset.map namedBy ∧
    (∀ s, SumSet action movements s → 2 ≤ s.card → edges.length ≤ s.card) ∧
    ∃ before after,
      combinations edges.length (candidatesFor action movements) = before ++ subset :: after ∧
      ∀ t ∈ before, amountOf t ≠ action.amountLink
  allocated : (Single edges .exact ∨ Single edges .ambiguous ∨ Batch edges) →
    ∃ subset : List TokenMovement, subset.Sublist (candidatesFor action movements) ∧
      edges.map allocation = subset.map namedBy ∧
      (edges.map ActionMovementMatch.movementId).Nodup ∧
      (edges.map ActionMovementMatch.allocatedAmount).sum = action.amountLink

section Edges
variable {action movements} {edges : List ActionMovementMatch}

theorem Settlement.total {subset : List TokenMovement} (settled : Settlement action movements subset) :
    amountOf subset = action.amountLink := by
  cases settled with
  | exact expected split equal first => simp [amountOf, equal]
  | batch expected none positive smallest => exact of_decide_eq_true smallest.holds

theorem Settlement.candidates {subset : List TokenMovement}
    (settled : Settlement action movements subset) :
    subset.Sublist (candidatesFor action movements) := by
  cases settled with
  | exact expected split equal first =>
      rw [split]
      exact List.singleton_sublist.mpr (by simp)
  | batch expected none positive smallest => exact smallest.sublist

theorem Settlement.length_eq_one_iff {subset : List TokenMovement}
    (settled : Settlement action movements subset) :
    subset.length = 1 ↔ ofItsAmount action movements ≠ [] := by
  cases settled with
  | @exact before after m expected split equal first =>
      have member : m ∈ ofItsAmount action movements :=
        List.mem_filter.mpr ⟨by simp [split], by simpa using equal⟩
      simp [List.ne_nil_of_mem member]
  | batch expected none positive smallest =>
      have nothing : ofItsAmount action movements = [] := by simpa [ofItsAmount] using none
      have := smallest.sized.1
      simp only [nothing, ne_eq, not_true_eq_false, iff_false]
      omega

theorem Settlement.expected {subset : List TokenMovement}
    (settled : Settlement action movements subset) : action.kind ∉ notExpectedKinds := by
  cases settled with
  | exact expected split equal first => exact expected
  | batch expected none positive smallest => exact expected

theorem Settlement.batched {subset : List TokenMovement}
    (settled : Settlement action movements subset) (nothing : ofItsAmount action movements = []) :
    actionStatus action movements = .partialMatch := by
  unfold ofItsAmount at nothing
  rw [actionStatus, if_neg settled.expected, nothing, (settle_eq_some_iff _ _ _).mpr settled]
  rfl

theorem batch_of_partial (status : actionStatus action movements = .partialMatch) :
    ∃ subset, settle action movements = some subset ∧ ofItsAmount action movements = [] := by
  unfold actionStatus at status
  split_ifs at status with expected settled
  · split at status
    next none =>
      obtain ⟨subset, found⟩ := Option.isSome_iff_exists.mp settled
      exact ⟨subset, found, List.length_eq_zero_iff.mp none⟩
    next => cases status
    next => cases status
  · split at status <;> cases status

theorem batch_smallest {subset : List TokenMovement} (found : settle action movements = some subset)
    (nothing : ofItsAmount action movements = []) :
    FirstSmallest (sumsTo action.amountLink) 2 (maxSubsetSize + 1) (candidatesFor action movements)
      subset :=
  ((settle_eq_some_iff action movements subset).mp found).firstSmallest nothing

theorem settle_of_amount (expected : action.kind ∉ notExpectedKinds)
    (some : ofItsAmount action movements ≠ []) : ∃ subset, settle action movements = .some subset := by
  obtain ⟨m, head⟩ := Option.isSome_iff_exists.mp (List.isSome_head?.mpr some)
  have found := (List.head?_filter (p := fun m : TokenMovement => decide (m.amount = action.amountLink))
    (l := candidatesFor action movements)).symm.trans head
  refine ⟨[m], ?_⟩
  unfold settle
  simp only [if_neg expected, found]

theorem MatchedBy.length (matched : MatchedBy action movements edges) :
    edges.length = match settle action movements with
      | some subset => subset.length
      | none => 1 := by
  rw [← List.length_map (f := allocation), matched.allocations]
  cases settle action movements with
  | none => rfl
  | some subset => simp

theorem single_iff (matched : MatchedBy action movements edges) (status : Status)
    (other : status ≠ .partialMatch) :
    Single edges status ↔ actionStatus action movements = status := by
  constructor
  · rintro ⟨edge, rfl, rfl⟩
    exact (matched.status edge List.mem_cons_self).symm
  · rintro rfl
    have alone : edges.length = 1 := by
      rw [matched.length]
      cases found : settle action movements with
      | none => rfl
      | some subset =>
          have settled := (settle_eq_some_iff action movements subset).mp found
          exact settled.length_eq_one_iff.mpr fun nothing => other (settled.batched nothing)
    obtain ⟨edge, rfl⟩ := List.length_eq_one_iff.mp alone
    exact ⟨edge, rfl, matched.status edge List.mem_cons_self⟩

theorem batch_iff (matched : MatchedBy action movements edges) :
    Batch edges ↔ actionStatus action movements = .partialMatch := by
  constructor
  · rintro ⟨several, each⟩
    obtain ⟨edge, member⟩ := List.exists_mem_of_length_pos (by omega : 0 < edges.length)
    rw [← matched.status edge member, each edge member]
  · intro status
    refine ⟨?_, fun edge member => (matched.status edge member).trans status⟩
    obtain ⟨subset, found, nothing⟩ := batch_of_partial status
    have settled := (settle_eq_some_iff action movements subset).mp found
    have one := settled.length_eq_one_iff
    have := List.length_pos_of_ne_nil settled.nonempty
    rw [matched.length, found]
    simp only [nothing, ne_eq, not_true_eq_false, iff_false] at one ⊢
    omega

end Edges

/-! ## The specification -/

theorem actionStatus_spec (distinct : (movements.map TokenMovement.movementId).Nodup) :
    (actionStatus action movements = .notExpected ↔ action.kind ∈ notExpectedKinds) ∧
    (actionStatus action movements = .exact ↔
      action.kind ∉ notExpectedKinds ∧ (ofItsAmount action movements).length = 1) ∧
    (actionStatus action movements = .ambiguous ↔
      action.kind ∉ notExpectedKinds ∧ 1 < (ofItsAmount action movements).length) ∧
    (actionStatus action movements = .partialMatch ↔ action.kind ∉ notExpectedKinds ∧
      ofItsAmount action movements = [] ∧ HasBatch action movements) ∧
    (actionStatus action movements = .unmatched ↔ action.kind ∉ notExpectedKinds ∧
      ofItsAmount action movements = [] ∧ ¬ HasBatch action movements) := by
  by_cases expected : action.kind ∈ notExpectedKinds
  · have status : actionStatus action movements = .notExpected := if_pos expected
    simp [status, expected]
  · have status : actionStatus action movements = _ := if_neg expected
    have batch := exists_batch_iff distinct expected
    rw [status, ← ofItsAmount]
    cases own : ofItsAmount action movements with
    | nil =>
        have batch : (settle action movements).isSome ↔ HasBatch action movements := batch own
        by_cases settled : (settle action movements).isSome
        · simp [expected, settled, batch.mp settled]
        · have none : ¬ HasBatch action movements := fun has => settled (batch.mpr has)
          simp [expected, settled, none]
    | cons m rest =>
        cases rest with
        | nil => simp [expected]
        | cons m' more => simp [expected]

section Taken
variable {action movements} {edges : List ActionMovementMatch}

theorem earliest_of_batch (matched : MatchedBy action movements edges)
    (distinct : (movements.map TokenMovement.movementId).Nodup) (isBatch : Batch edges) :
    ∃ subset : List TokenMovement, edges.map allocation = subset.map namedBy ∧
      (∀ s, SumSet action movements s → 2 ≤ s.card → edges.length ≤ s.card) ∧
      ∃ before after,
        combinations edges.length (candidatesFor action movements) = before ++ subset :: after ∧
        ∀ t ∈ before, amountOf t ≠ action.amountLink := by
  obtain ⟨subset, found, nothing⟩ := batch_of_partial ((batch_iff matched).mp isBatch)
  have length := matched.length
  have allocations := matched.allocations
  rw [found] at length allocations
  simp only at length
  have smallest := batch_smallest found nothing
  refine ⟨subset, allocations, fun s sums atLeast => ?_, ?_⟩
  · by_contra fewer
    obtain ⟨t, sub, low, high, total⟩ := (exists_sumSet_iff action distinct s.card (s.card + 1)).mp
      ⟨s, sums, Nat.le_refl _, Nat.lt_succ_self _⟩
    have absent := smallest.smallest t sub (by omega) (by omega)
    rw [absent] at total
    cases total
  · obtain ⟨before, after, split, others⟩ := smallest.first
    rw [length]
    exact ⟨before, after, split, fun t member => of_decide_eq_false (others t member)⟩

theorem settle_of_single (matched : MatchedBy action movements edges) {status : Status}
    (other : status ≠ .partialMatch) (single : Single edges status)
    (ofAmount : actionStatus action movements = status →
      action.kind ∉ notExpectedKinds ∧ 0 < (ofItsAmount action movements).length) :
    ∃ subset, settle action movements = some subset := by
  obtain ⟨expected, some⟩ := ofAmount ((single_iff matched status other).mp single)
  exact settle_of_amount expected (List.ne_nil_of_length_pos some)

theorem settle_of_taken (matched : MatchedBy action movements edges)
    (distinct : (movements.map TokenMovement.movementId).Nodup)
    (taken : Single edges .exact ∨ Single edges .ambiguous ∨ Batch edges) :
    ∃ subset, settle action movements = some subset := by
  obtain ⟨-, exact, ambiguous, -, -⟩ := actionStatus_spec action movements distinct
  rcases taken with single | single | isBatch
  · refine settle_of_single matched (by decide) single fun status => ?_
    obtain ⟨expected, one⟩ := exact.mp status
    exact ⟨expected, by omega⟩
  · refine settle_of_single matched (by decide) single fun status => ?_
    obtain ⟨expected, several⟩ := ambiguous.mp status
    exact ⟨expected, by omega⟩
  · obtain ⟨subset, found, -⟩ := batch_of_partial ((batch_iff matched).mp isBatch)
    exact ⟨subset, found⟩

theorem allocated_of_settle (matched : MatchedBy action movements edges)
    (distinct : (movements.map TokenMovement.movementId).Nodup) {subset : List TokenMovement}
    (found : settle action movements = some subset) :
    subset.Sublist (candidatesFor action movements) ∧ edges.map allocation = subset.map namedBy ∧
      (edges.map ActionMovementMatch.movementId).Nodup ∧
      (edges.map ActionMovementMatch.allocatedAmount).sum = action.amountLink := by
  have settled := (settle_eq_some_iff action movements subset).mp found
  have allocations := matched.allocations
  rw [found] at allocations
  refine ⟨settled.candidates, allocations, ?_, ?_⟩
  · have names : edges.map ActionMovementMatch.movementId =
        (subset.map TokenMovement.movementId).map some := by
      have firsts := congrArg (List.map Prod.fst) allocations
      rw [List.map_map, List.map_map] at firsts
      rw [List.map_map]
      exact firsts
    rw [names]
    exact (distinct.sublist (settled.sublist.map _)).map (Option.some_injective _)
  · have amounts : edges.map ActionMovementMatch.allocatedAmount = subset.map TokenMovement.amount := by
      have seconds := congrArg (List.map Prod.snd) allocations
      rwa [List.map_map, List.map_map] at seconds
    rw [amounts]
    exact settled.total

end Taken

theorem matchActionToMovements_outcome (distinct : (movements.map TokenMovement.movementId).Nodup) :
    Outcome action movements (matchActionToMovements sha256 action movements) := by
  have matched := matchActionToMovements_matched sha256 action movements
  obtain ⟨notExpected, exact, ambiguous, batch, unmatched⟩ := actionStatus_spec action movements distinct
  refine
    { nonempty := matchActionToMovements_ne_nil sha256 action movements
      notExpected := (single_iff matched _ (by decide)).trans notExpected
      exact := (single_iff matched _ (by decide)).trans exact
      ambiguous := (single_iff matched _ (by decide)).trans ambiguous
      batch := (batch_iff matched).trans batch
      unmatched := (single_iff matched _ (by decide)).trans unmatched
      earliest := earliest_of_batch matched distinct
      allocated := fun taken => ?_ }
  obtain ⟨subset, found⟩ := settle_of_taken matched distinct taken
  exact ⟨subset, allocated_of_settle matched distinct found⟩

/-- Of the two batches of 5, the first in the order of the list is taken. -/
theorem matchActionToMovements_outcome_batch :
    Outcome (stakeOf "stake" 5)
      [movementOf "m1" 2, movementOf "m2" 3, movementOf "m3" 2, movementOf "m4" 3]
      (matchActionToMovements id (stakeOf "stake" 5)
        [movementOf "m1" 2, movementOf "m2" 3, movementOf "m3" 2, movementOf "m4" 3]) :=
  matchActionToMovements_outcome id _ _ (by decide)

/-! ## Ambiguity -/

/-- Two sets of 1 to 6 candidates sum to the amount, and no smaller set does. -/
def TwoSmallest : Prop :=
  ∃ s s', s ≠ s' ∧ SumSet action movements s ∧ SumSet action movements s' ∧ s.card = s'.card ∧
    1 ≤ s.card ∧ s.card ≤ maxSubsetSize ∧
    ∀ t, SumSet action movements t → 1 ≤ t.card → s.card ≤ t.card

theorem SumSet.of_amount {action : EconomicAction} {movements : List TokenMovement} {m : TokenMovement}
    (member : m ∈ candidatesFor action movements) (equal : m.amount = action.amountLink) :
    SumSet action movements {m} := by
  refine ⟨?_, by simpa using equal⟩
  rw [Finset.singleton_subset_iff]
  exact List.mem_toFinset.mpr member

/-- Two smallest sets are reported as ambiguous exactly when they are single movements. -/
theorem ambiguity_reported_iff (expected : action.kind ∉ notExpectedKinds)
    (distinct : (movements.map TokenMovement.movementId).Nodup)
    (two : TwoSmallest action movements) :
    Single (matchActionToMovements sha256 action movements) .ambiguous ↔
      ∃ m ∈ candidatesFor action movements, m.amount = action.amountLink := by
  have matched := matchActionToMovements_matched sha256 action movements
  obtain ⟨-, -, ambiguous, -, -⟩ := actionStatus_spec action movements distinct
  rw [single_iff matched .ambiguous (by decide), ambiguous]
  have mem_ofItsAmount (m : TokenMovement) : m ∈ ofItsAmount action movements ↔
      m ∈ candidatesFor action movements ∧ m.amount = action.amountLink := by
    simp [ofItsAmount]
  constructor
  · rintro ⟨-, several⟩
    obtain ⟨m, member⟩ := List.exists_mem_of_length_pos (by omega : 0 < (ofItsAmount action movements).length)
    exact ⟨m, (mem_ofItsAmount m).mp member⟩
  · rintro ⟨m, candidate, equal⟩
    obtain ⟨s, s', other, sums, sums', sameCard, atLeast, -, smallest⟩ := two
    have one := smallest {m} (SumSet.of_amount candidate equal) (by simp)
    rw [Finset.card_singleton] at one
    have single (t : Finset TokenMovement) (sums : SumSet action movements t) (card : t.card = 1) :
        ∃ a ∈ ofItsAmount action movements, t = {a} := by
      obtain ⟨a, rfl⟩ := Finset.card_eq_one.mp card
      refine ⟨a, (mem_ofItsAmount a).mpr ⟨?_, by simpa using sums.2⟩, rfl⟩
      exact List.mem_toFinset.mp (sums.1 (Finset.mem_singleton_self a))
    obtain ⟨a, inside, rfl⟩ := single s sums (by omega)
    obtain ⟨b, inside', rfl⟩ := single s' sums' (by omega)
    refine ⟨expected, ?_⟩
    have different : a ≠ b := fun same => other (by rw [same])
    have several : 1 < (ofItsAmount action movements).toFinset.card := Finset.one_lt_card.mpr
      ⟨a, List.mem_toFinset.mpr inside, b, List.mem_toFinset.mpr inside', different⟩
    exact several.trans_le (List.toFinset_card_le _)

theorem ambiguity_reported_two_movements :
    TwoSmallest (stakeOf "stake" 5) [movementOf "m1" 5, movementOf "m2" 5] ∧
    Single (matchActionToMovements id (stakeOf "stake" 5) [movementOf "m1" 5, movementOf "m2" 5])
      .ambiguous := by
  have two : TwoSmallest (stakeOf "stake" 5) [movementOf "m1" 5, movementOf "m2" 5] := by
    refine ⟨{movementOf "m1" 5}, {movementOf "m2" 5}, by decide, SumSet.of_amount (by decide) rfl,
      SumSet.of_amount (by decide) rfl, rfl, by decide, by decide, ?_⟩
    intro t _ nonempty
    simpa using nonempty
  exact ⟨two, (ambiguity_reported_iff id _ _ (by decide) (by decide) two).mpr
    ⟨movementOf "m1" 5, by decide, rfl⟩⟩

/-- Each of the first two movements makes the amount with each of the others. -/
theorem two_batches_not_ambiguous :
    TwoSmallest (stakeOf "stake" 5)
        [movementOf "m1" 2, movementOf "m2" 2, movementOf "m3" 3, movementOf "m4" 3] ∧
    ¬ Single (matchActionToMovements id (stakeOf "stake" 5)
        [movementOf "m1" 2, movementOf "m2" 2, movementOf "m3" 3, movementOf "m4" 3]) .ambiguous := by
  constructor
  · refine ⟨{movementOf "m1" 2, movementOf "m3" 3}, {movementOf "m2" 2, movementOf "m4" 3},
      by decide, ⟨by decide, by decide⟩, ⟨by decide, by decide⟩, by decide, by decide, by decide, ?_⟩
    intro t sums nonempty
    have notOne : t.card ≠ 1 := by
      intro one
      obtain ⟨m, rfl⟩ := Finset.card_eq_one.mp one
      have amounts : ∀ m ∈ candidatesFor (stakeOf "stake" 5)
          [movementOf "m1" 2, movementOf "m2" 2, movementOf "m3" 3, movementOf "m4" 3],
          m.amount ≠ 5 := by decide
      have total : m.amount = (stakeOf "stake" 5).amountLink := by simpa using sums.2
      exact amounts m (List.mem_toFinset.mp (sums.1 (Finset.mem_singleton_self m))) total
    have pair : Finset.card {movementOf "m1" 2, movementOf "m3" 3} = 2 := by decide
    rw [pair]
    omega
  · rintro ⟨edge, one, -⟩
    have edges : (matchActionToMovements id (stakeOf "stake" 5)
        [movementOf "m1" 2, movementOf "m2" 2, movementOf "m3" 3, movementOf "m4" 3]).length = 2 := by
      decide
    rw [one] at edges
    cases edges

end EconomicLedger.Matching
