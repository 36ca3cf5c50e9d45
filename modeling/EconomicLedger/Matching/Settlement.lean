import EconomicLedger.Model.Matcher

/-!
# What an action settles on

`Settlement` says which movements an action takes: the first candidate of exactly its amount, or
else the earliest of the smallest sets of candidates that sum to it. Every edge of the matcher
comes from the settlement of its action, and every action of a list is settled on its own.
-/

namespace EconomicLedger.Matching
open Model Text

def sumsTo (target : Int) (ms : List TokenMovement) : Bool := amountOf ms = target

inductive Settlement (action : EconomicAction) (movements : List TokenMovement) :
    List TokenMovement → Prop
  | exact {before after : List TokenMovement} {m : TokenMovement}
      (expected : action.kind ∉ notExpectedKinds)
      (candidates : candidatesFor action movements = before ++ m :: after)
      (equal : m.amount = action.amountLink)
      (first : ∀ m' ∈ before, m'.amount ≠ action.amountLink) : Settlement action movements [m]
  | batch {subset : List TokenMovement} (expected : action.kind ∉ notExpectedKinds)
      (none : ∀ m ∈ candidatesFor action movements, m.amount ≠ action.amountLink)
      (positive : 0 < action.amountLink)
      (smallest : FirstSmallest (sumsTo action.amountLink) 2 (maxSubsetSize + 1)
        (candidatesFor action movements) subset) : Settlement action movements subset

def settle (action : EconomicAction) (movements : List TokenMovement) : Option (List TokenMovement) :=
  let candidates := candidatesFor action movements
  if action.kind ∈ notExpectedKinds then none
  else
    match candidates.find? (·.amount = action.amountLink) with
    | some m => some [m]
    | none =>
        if 0 < action.amountLink then
          searchCombinations (sumsTo action.amountLink) 2
            (min maxSubsetSize candidates.length - 1) candidates
        else none

theorem firstSmallest_min_iff (p : List TokenMovement → Bool) (n : Nat)
    (l s : List TokenMovement) (atLeast : 1 ≤ n) :
    FirstSmallest p 2 (2 + (min n l.length - 1)) l s ↔ FirstSmallest p 2 (n + 1) l s := by
  constructor
  · intro found
    have := found.sized
    exact ⟨found.holds, ⟨this.1, by omega⟩, found.smallest, found.first⟩
  · intro found
    have := found.sized
    have := found.sublist.length_le
    exact ⟨found.holds, ⟨by omega, by omega⟩, found.smallest, found.first⟩

theorem settle_eq_some_iff (action : EconomicAction) (movements subset : List TokenMovement) :
    settle action movements = some subset ↔ Settlement action movements subset := by
  unfold settle
  by_cases expected : action.kind ∈ notExpectedKinds
  · rw [if_pos expected]
    constructor
    · intro none
      cases none
    · rintro (⟨absent, -, -, -⟩ | ⟨absent, -, -, -⟩) <;> exact absurd expected absent
  · rw [if_neg expected]
    cases found : (candidatesFor action movements).find? (·.amount = action.amountLink) with
    | some m =>
        obtain ⟨equal, before, after, split, others⟩ := List.find?_eq_some_iff_append.mp found
        have equal : m.amount = action.amountLink := by simpa using equal
        have others : ∀ m' ∈ before, m'.amount ≠ action.amountLink := by simpa using others
        constructor
        · rintro ⟨⟩
          exact Settlement.exact expected split equal others
        · rintro (⟨-, split', equal', others'⟩ | ⟨-, none, -, -⟩)
          · have again : (candidatesFor action movements).find? (·.amount = action.amountLink) =
                some _ := List.find?_eq_some_iff_append.mpr
              ⟨by simpa using equal', _, _, split', by simpa using others'⟩
            exact congrArg (Option.map fun m => [m]) (found.symm.trans again)
          · exact absurd equal (none m (split ▸ by simp))
    | none =>
        have absent : ∀ m ∈ candidatesFor action movements, m.amount ≠ action.amountLink := by
          simpa using found
        simp only
        by_cases positive : 0 < action.amountLink
        · rw [if_pos positive, searchCombinations_eq_some_iff,
            firstSmallest_min_iff _ _ _ _ (by decide)]
          constructor
          · exact Settlement.batch expected absent positive
          · rintro (⟨-, split, equal, -⟩ | ⟨-, -, -, smallest⟩)
            · exact absurd equal (absent _ (split ▸ by simp))
            · exact smallest
        · rw [if_neg positive]
          constructor
          · intro none
            cases none
          · rintro (⟨-, split, equal, -⟩ | ⟨-, -, real, -⟩)
            · exact absurd equal (absent _ (split ▸ by simp))
            · exact absurd real positive

theorem Settlement.sublist {action : EconomicAction} {movements subset : List TokenMovement}
    (settled : Settlement action movements subset) : subset.Sublist movements := by
  have candidates : (candidatesFor action movements).Sublist movements := List.filter_sublist
  cases settled with
  | exact expected split equal first =>
      refine List.Sublist.trans ?_ candidates
      rw [split]
      exact List.singleton_sublist.mpr (by simp)
  | batch expected none positive smallest => exact smallest.sublist.trans candidates

theorem Settlement.nonempty {action : EconomicAction} {movements subset : List TokenMovement}
    (settled : Settlement action movements subset) : subset ≠ [] := by
  cases settled with
  | exact expected split equal first => simp
  | batch expected none positive smallest =>
      rintro rfl
      simpa using smallest.sized.1

theorem Settlement.firstSmallest {action : EconomicAction} {movements subset : List TokenMovement}
    (settled : Settlement action movements subset)
    (nothing : (candidatesFor action movements).filter (·.amount = action.amountLink) = []) :
    FirstSmallest (sumsTo action.amountLink) 2 (maxSubsetSize + 1) (candidatesFor action movements)
      subset := by
  cases settled with
  | @exact before after m expected split equal first =>
      have candidate : m ∈ candidatesFor action movements := by simp [split]
      exact absurd (decide_eq_true equal) (List.filter_eq_nil_iff.mp nothing m candidate)
  | batch expected none positive smallest => exact smallest

/-- The action takes the movement as evidence. -/
def Takes (action : EconomicAction) (movements : List TokenMovement) (m : TokenMovement) : Prop :=
  ∃ subset, Settlement action movements subset ∧ m ∈ subset

theorem takes_iff (action : EconomicAction) (movements : List TokenMovement) (m : TokenMovement) :
    Takes action movements m ↔ m ∈ (settle action movements).getD [] := by
  unfold Takes
  simp only [← settle_eq_some_iff]
  cases settle action movements with
  | none => simp
  | some subset => simp

instance (action : EconomicAction) (movements : List TokenMovement) (m : TokenMovement) :
    Decidable (Takes action movements m) := decidable_of_iff _ (takes_iff action movements m).symm

/-! ## The edges of an action -/

def actionStatus (action : EconomicAction) (movements : List TokenMovement) : Status :=
  if action.kind ∈ notExpectedKinds then .notExpected
  else
    match ((candidatesFor action movements).filter (·.amount = action.amountLink)).length with
    | 0 => if (settle action movements).isSome then .partialMatch else .unmatched
    | 1 => .exact
    | _ + 2 => .ambiguous

def allocation (edge : ActionMovementMatch) : Option String × Int :=
  (edge.movementId, edge.allocatedAmount)

structure MatchedBy (action : EconomicAction) (movements : List TokenMovement)
    (edges : List ActionMovementMatch) : Prop where
  owned : ∀ edge ∈ edges, edge.actionId = some action.actionId
  status : ∀ edge ∈ edges, edge.status = actionStatus action movements
  allocations : edges.map allocation =
    match settle action movements with
    | some subset => subset.map fun m => (some m.movementId, m.amount)
    | none => [(none, 0)]

variable (sha256 : Digest)

theorem matchedBy_actionEdge (action : EconomicAction) (movements : List TokenMovement)
    (status : Status) (reason : String) (own : status = actionStatus action movements)
    (none : settle action movements = none) :
    MatchedBy action movements [actionEdge sha256 action status reason] := by
  refine ⟨by simp [actionEdge], by simp [actionEdge, own], ?_⟩
  rw [none]
  rfl

theorem matchedBy_matchEdge (action : EconomicAction) (movements : List TokenMovement)
    (m : TokenMovement) (status : Status) (reason : String)
    (own : status = actionStatus action movements) (settled : settle action movements = some [m]) :
    MatchedBy action movements [matchEdge sha256 action m status 0 reason] := by
  refine ⟨by simp [matchEdge], by simp [matchEdge, own], ?_⟩
  rw [settled]
  rfl

theorem matchedBy_partialEdges (action : EconomicAction) (movements subset : List TokenMovement)
    (own : .partialMatch = actionStatus action movements)
    (settled : settle action movements = some subset) :
    MatchedBy action movements (partialEdges sha256 action subset) := by
  refine ⟨?_, ?_, ?_⟩
  · intro edge member
    obtain ⟨⟨m, i⟩, -, rfl⟩ := List.mem_map.mp member
    rfl
  · intro edge member
    obtain ⟨⟨m, i⟩, -, rfl⟩ := List.mem_map.mp member
    exact own
  · rw [settled, partialEdges, List.map_map]
    calc (subset.zipIdx.map _)
        = (subset.zipIdx.map Prod.fst).map fun m => (some m.movementId, m.amount) := by
          rw [List.map_map]
          rfl
      _ = _ := by rw [List.zipIdx_map_fst]

theorem findSubsetSummingTo_eq (candidates : List TokenMovement) (target : Int) (maxSize : Nat)
    (positive : 0 < target) :
    findSubsetSummingTo candidates target maxSize =
      searchCombinations (sumsTo target) 2 (min maxSize candidates.length - 1) candidates := by
  cases candidates with
  | nil => simp [findSubsetSummingTo, searchCombinations]
  | cons m rest =>
      rw [findSubsetSummingTo, if_neg (by simp; omega)]
      rfl

theorem settle_of_no_equal (action : EconomicAction) (movements : List TokenMovement)
    (expected : action.kind ∉ notExpectedKinds)
    (nothing : (candidatesFor action movements).filter (·.amount = action.amountLink) = []) :
    settle action movements = if 0 < action.amountLink then
      findSubsetSummingTo (candidatesFor action movements) action.amountLink maxSubsetSize else none := by
  have head := List.head?_filter (p := fun m : TokenMovement => decide (m.amount = action.amountLink))
    (l := candidatesFor action movements)
  rw [nothing, List.head?_nil] at head
  have settled : settle action movements = _ := if_neg expected
  rw [settled, ← head]
  by_cases positive : 0 < action.amountLink
  · simp only [if_pos positive, findSubsetSummingTo_eq _ _ _ positive]
  · simp only [if_neg positive]

theorem matchActionToMovements_matched (action : EconomicAction) (movements : List TokenMovement) :
    MatchedBy action movements (matchActionToMovements sha256 action movements) := by
  unfold matchActionToMovements
  by_cases expected : action.kind ∈ notExpectedKinds
  · rw [if_pos expected]
    exact matchedBy_actionEdge sha256 action movements _ _ (if_pos expected).symm (if_pos expected)
  · rw [if_neg expected]
    have status : actionStatus action movements = _ := if_neg expected
    have settled : settle action movements = _ := if_neg expected
    have head := List.head?_filter (p := fun m : TokenMovement => decide (m.amount = action.amountLink))
      (l := candidatesFor action movements)
    by_cases nothing : candidatesFor action movements = []
    · rw [if_pos nothing]
      have unsettled : settle action movements = none := by
        rw [settled, nothing]
        simp [searchCombinations]
      refine matchedBy_actionEdge sha256 action movements _ _ ?_ unsettled
      rw [status, unsettled, nothing]
      rfl
    · rw [if_neg nothing]
      simp only
      split
      next m exact =>
        rw [exact, List.head?_cons] at head
        refine matchedBy_matchEdge sha256 action movements m _ _ ?_ ?_
        · rw [status, exact]
          rfl
        · rw [settled, ← head]
      next m m' more several =>
        rw [several, List.head?_cons] at head
        refine matchedBy_matchEdge sha256 action movements m _ _ ?_ ?_
        · rw [status, several]
          rfl
        · rw [settled, ← head]
      next none =>
        rw [← settle_of_no_equal action movements expected none]
        cases found : settle action movements with
        | none =>
            refine matchedBy_actionEdge sha256 action movements _ _ ?_ found
            rw [status, none, found]
            rfl
        | some subset =>
            have smallest := ((settle_eq_some_iff action movements subset).mp found).firstSmallest none
            have large := smallest.sized.1
            cases subset with
            | nil => simp at large
            | cons m tail =>
                cases tail with
                | nil => simp at large
                | cons m' more =>
                    refine matchedBy_partialEdges sha256 action movements _ ?_ found
                    rw [status, none, found]
                    rfl

theorem matchActionToMovements_ne_nil (action : EconomicAction) (movements : List TokenMovement) :
    matchActionToMovements sha256 action movements ≠ [] := by
  intro none
  have allocations := (matchActionToMovements_matched sha256 action movements).allocations
  rw [none] at allocations
  cases settled : settle action movements with
  | none => simp [settled] at allocations
  | some subset =>
      have nonempty := ((settle_eq_some_iff action movements subset).mp settled).nonempty
      simp only [settled, List.map_nil] at allocations
      exact nonempty (List.map_eq_nil_iff.mp allocations.symm)

/-! ## The edges of a transaction -/

def actionEdges (actions : List EconomicAction) (movements : List TokenMovement) :
    List ActionMovementMatch :=
  actions.flatMap fun action => matchActionToMovements sha256 action movements

def headTx (actions : List EconomicAction) (movements : List TokenMovement) : String :=
  lower (((actions.head?.map EconomicAction.txHash).or
    (movements.head?.map TokenMovement.txHash)).getD "")

def unmatchedMovements (actions : List EconomicAction) (movements : List TokenMovement) :
    List (TokenMovement × Nat) :=
  unexpectedMovements (headTx actions movements)
    ((actionEdges sha256 actions movements).filterMap ActionMovementMatch.movementId) movements

def txEdges (actions : List EconomicAction) (movements : List TokenMovement) :
    List ActionMovementMatch :=
  actionEdges sha256 actions movements ++
    (unmatchedMovements sha256 actions movements).map fun (m, i) => unexpectedEdge sha256 m i

theorem matchTxEconomics_fields (actions : List EconomicAction) (movements : List TokenMovement) :
    let report := matchTxEconomics sha256 actions movements
    report.edges = txEdges sha256 actions movements ∧
    report.unmatchedActions =
      ((txEdges sha256 actions movements).filter (·.status = .unmatched)).length ∧
    report.unexpectedMovements = (unmatchedMovements sha256 actions movements).length ∧
    report.overallStatus = rollupStatus (txEdges sha256 actions movements) := by
  cases actions with
  | nil =>
      cases movements with
      | nil =>
          simp [matchTxEconomics, txEdges, unmatchedMovements, unexpectedMovements, actionEdges,
            rollupStatus, statusPriority]
      | cons m rest => simp [matchTxEconomics, txEdges, unmatchedMovements, actionEdges, headTx]
  | cons a rest => simp [matchTxEconomics, txEdges, unmatchedMovements, actionEdges, headTx]

/-! ## Small inputs -/

def stakeOf (actionId : String) (amount : Int) : EconomicAction :=
  { actionId := actionId
    kind := .stake
    chainId := 1
    blockNumber := 100
    txHash := "0x01"
    logIndex := 0
    contractAddress := "0xb0"
    poolRole := "community_pool"
    wallet := none
    amountLink := amount
    sourceEventSignature := "0x02"
    rawLogId := "raw-" ++ actionId
    decodedEventId := "event-" ++ actionId }

def movementOf (movementId : String) (amount : Int) : TokenMovement :=
  { movementId := movementId
    chainId := 1
    blockNumber := 100
    txHash := "0x01"
    tokenAddress := "0x514910771af9ca656af840dff83e8264ecf986ca"
    fromAddr := "0xaa"
    toAddr := "0xb0"
    amount := amount
    evidenceIds := ["log-" ++ movementId]
    sourcePriority := .log
    isCanonical := true }

end EconomicLedger.Matching
