import EconomicLedger.Ledger.Accounts
import EconomicLedger.Lib.Relational
import EconomicLedger.Matching.OrderIndependence
import EconomicLedger.Movements.Flows

/-!
# The ledger and the chain

A transaction is exact when each action has a single movement of its amount. The entries of its
actions then book, movement by movement, the movement's amount for every action that takes it,
whichever way the movement went.
-/

namespace EconomicLedger.Matching
open Model Text Ledger Movements Relational

variable (sha256 : Digest)

/-! ## Exact transactions -/

/-- Each action expects and has a single movement of its amount, and every movement has the name of
one of these. -/
structure OneToOne (actions : List EconomicAction) (movements : List TokenMovement) : Prop where
  expected : ∀ action ∈ actions, action.kind ∉ notExpectedKinds ∧ 0 < action.amountLink
  single : ∀ action ∈ actions, (movements.filter (·.amount = action.amountLink)).length = 1
  named : ∀ m ∈ movements, ∃ action ∈ actions, ∃ m' ∈ movements,
    m'.amount = action.amountLink ∧ m'.movementId = m.movementId

def worseThanExact : List Status := [.unmatched, .unexpected, .ambiguous, .partialMatch, .notExpected]

theorem mem_worseThanExact (status : Status) : status ∈ worseThanExact ↔ status ≠ .exact := by
  cases status <;> decide

theorem rollupStatus_exact_iff (edges : List ActionMovementMatch) :
    rollupStatus edges = .exact ↔ ∀ status ∈ edges.map ActionMovementMatch.status, status = .exact := by
  let present : Status → Bool := fun s => s ∈ edges.map ActionMovementMatch.status
  have priority : rollupStatus edges =
      ((worseThanExact.find? present).or ([Status.exact].find? present)).getD .exact := by
    rw [← List.find?_append]
    rfl
  have none_iff : rollupStatus edges = .exact ↔ worseThanExact.find? present = none := by
    rw [priority]
    cases worst : worseThanExact.find? present with
    | none =>
        rw [Option.none_or]
        cases last : [Status.exact].find? present with
        | none => simp
        | some status =>
            have own := List.mem_of_find?_eq_some last
            simpa using own
    | some status =>
        have worse := (mem_worseThanExact status).mp (List.mem_of_find?_eq_some worst)
        simpa using worse
  rw [none_iff, List.find?_eq_none]
  constructor
  · intro absent status here
    by_contra notExact
    exact absent status ((mem_worseThanExact status).mpr notExact) (decide_eq_true here)
  · intro exact status worse here
    exact (mem_worseThanExact status).mp worse (exact status (of_decide_eq_true here))

theorem actionStatus_exact_iff (action : EconomicAction) (movements : List TokenMovement) :
    actionStatus action movements = .exact ↔ action.kind ∉ notExpectedKinds ∧
      ((candidatesFor action movements).filter (·.amount = action.amountLink)).length = 1 := by
  unfold actionStatus
  by_cases expected : action.kind ∈ notExpectedKinds
  · simp [expected]
  · rw [if_neg expected]
    simp only [expected, not_false_eq_true, true_and]
    split
    next none =>
      rw [none]
      split_ifs <;> simp
    next one => simp [one]
    next n several => simp [several]

theorem takes_of_exact (action : EconomicAction) (movements : List TokenMovement)
    (exact : actionStatus action movements = .exact) (m : TokenMovement) :
    Takes action movements m ↔ m ∈ candidatesFor action movements ∧ m.amount = action.amountLink := by
  obtain ⟨expected, one⟩ := (actionStatus_exact_iff action movements).mp exact
  obtain ⟨only, single⟩ := List.length_eq_one_iff.mp one
  have found : (candidatesFor action movements).find? (·.amount = action.amountLink) = some only := by
    rw [← List.head?_filter, single]
    rfl
  have settled : settle action movements = some [only] := by
    simp only [settle, if_neg expected, found]
  have member : m ∈ candidatesFor action movements ∧ m.amount = action.amountLink ↔
      m ∈ (candidatesFor action movements).filter (·.amount = action.amountLink) := by
    simp
  rw [takes_iff, settled, member, single]
  rfl

theorem unmatchedMovements_eq_nil_iff (actions : List EconomicAction) (movements : List TokenMovement)
    (oneTx : OneTx actions movements) :
    unmatchedMovements sha256 actions movements = [] ↔
      ∀ m ∈ movements, ∃ action ∈ actions, ∃ m', Takes action movements m' ∧
        m'.movementId = m.movementId := by
  simp only [← matchedId_iff sha256]
  rw [← List.map_eq_nil_iff (f := Prod.fst), unmatchedMovements_fst sha256 actions movements oneTx,
    List.filter_eq_nil_iff]
  simp only [decide_eq_true_eq, not_not]

theorem candidatesFor_oneTx (actions : List EconomicAction) (movements : List TokenMovement)
    (oneTx : OneTx actions movements) (action : EconomicAction) (member : action ∈ actions) :
    candidatesFor action movements = movements.filter (0 < ·.amount) := by
  obtain ⟨txHash, own, moved⟩ := oneTx
  apply List.filter_congr
  intro m isMovement
  simp [own action member, moved m isMovement]

theorem candidates_ofAmount (actions : List EconomicAction) (movements : List TokenMovement)
    (oneTx : OneTx actions movements) (action : EconomicAction) (member : action ∈ actions)
    (positive : 0 < action.amountLink) :
    (candidatesFor action movements).filter (·.amount = action.amountLink) =
      movements.filter (·.amount = action.amountLink) := by
  rw [candidatesFor_oneTx actions movements oneTx action member, List.filter_filter]
  apply List.filter_congr
  intro m _
  by_cases equal : m.amount = action.amountLink <;> simp [equal, positive]

theorem overallStatus_exact_iff (actions : List EconomicAction) (movements : List TokenMovement) :
    (matchTxEconomics sha256 actions movements).overallStatus = .exact ↔
      (∀ action ∈ actions, actionStatus action movements = .exact) ∧
        unmatchedMovements sha256 actions movements = [] := by
  rw [(matchTxEconomics_fields sha256 actions movements).2.2.2, rollupStatus_exact_iff]
  simp only [txEdges_status]
  constructor
  · intro exact
    constructor
    · intro action member
      exact exact _ (.inl ⟨action, member, rfl⟩)
    · by_contra some
      have unexpected := exact .unexpected (.inr ⟨rfl, List.length_pos_iff.mpr some⟩)
      cases unexpected
  · rintro ⟨exact, none⟩ status (⟨action, member, rfl⟩ | ⟨-, some⟩)
    · exact exact action member
    · rw [none] at some
      cases some

theorem positive_of_exact (action : EconomicAction) (movements : List TokenMovement)
    (exact : actionStatus action movements = .exact) :
    action.kind ∉ notExpectedKinds ∧ 0 < action.amountLink := by
  obtain ⟨kind, one⟩ := (actionStatus_exact_iff action movements).mp exact
  obtain ⟨m, single⟩ := List.length_eq_one_iff.mp one
  have own : m ∈ (candidatesFor action movements).filter (·.amount = action.amountLink) := by
    simp [single]
  obtain ⟨candidate, equal⟩ := List.mem_filter.mp own
  have positive := (List.mem_filter.mp candidate).2
  simp only [Bool.and_eq_true, decide_eq_true_eq] at positive equal
  exact ⟨kind, equal ▸ positive.2⟩

theorem exact_iff_oneToOne (actions : List EconomicAction) (movements : List TokenMovement)
    (oneTx : OneTx actions movements) :
    (matchTxEconomics sha256 actions movements).overallStatus = .exact ↔ OneToOne actions movements := by
  rw [overallStatus_exact_iff, unmatchedMovements_eq_nil_iff sha256 actions movements oneTx]
  constructor
  · rintro ⟨exact, named⟩
    have expected (action : EconomicAction) (member : action ∈ actions) :=
      positive_of_exact action movements (exact action member)
    refine ⟨expected, ?_, ?_⟩
    · intro action member
      rw [← candidates_ofAmount actions movements oneTx action member (expected action member).2]
      exact ((actionStatus_exact_iff action movements).mp (exact action member)).2
    · intro m member
      obtain ⟨action, isAction, m', takes, same⟩ := named m member
      have equal := ((takes_of_exact action movements (exact action isAction) m').mp takes).2
      exact ⟨action, isAction, m', takes.mem, equal, same⟩
  · intro given
    have exact : ∀ action ∈ actions, actionStatus action movements = .exact := by
      intro action member
      obtain ⟨kind, positive⟩ := given.expected action member
      rw [actionStatus_exact_iff,
        candidates_ofAmount actions movements oneTx action member positive]
      exact ⟨kind, given.single action member⟩
    refine ⟨exact, ?_⟩
    intro m member
    obtain ⟨action, isAction, m', isMovement, equal, same⟩ := given.named m member
    refine ⟨action, isAction, m', ?_, same⟩
    rw [takes_of_exact action movements (exact action isAction),
      candidatesFor_oneTx actions movements oneTx action isAction, List.mem_filter]
    have positive := (given.expected action isAction).2
    exact ⟨⟨isMovement, by simp [equal, positive]⟩, equal⟩

/-! ## Which way an amount goes -/

/-- Which way a movement goes at an address. -/
def direction (address : String) (m : TokenMovement) : Int :=
  (if lower m.toAddr = lower address then 1 else 0) - if lower m.fromAddr = lower address then 1 else 0

/-- Stakes bring their amount to the pool, unstakes take it from there. -/
def ownWay (action : EconomicAction) : Int := if action.kind = .stake then 1 else -1

def StakeOrUnstake (action : EconomicAction) : Prop :=
  action.kind = .stake ∨ action.kind = .unstakeFinalized

instance (action : EconomicAction) : Decidable (StakeOrUnstake action) :=
  inferInstanceAs (Decidable (_ ∨ _))

/-- The actions on a pool that have a movement's amount. -/
def takers (actions : List EconomicAction) (pool : EconomicAction) (m : TokenMovement) :
    List EconomicAction :=
  actions.filter fun action => action.amountLink = m.amount ∧ poolAccount action = poolAccount pool

/-- The ways in which a movement can fail the actions of a pool. -/
inductive AtFault (actions : List EconomicAction) (pool : EconomicAction) (m : TokenMovement) : Prop
  | loose (unclaimed : takers actions pool m = []) (some : m.amount ≠ 0)
      (moves : direction pool.contractAddress m ≠ 0) : AtFault actions pool m
  | astray {action : EconomicAction} (claimed : takers actions pool m = [action])
      (other : direction pool.contractAddress m ≠ ownWay action) : AtFault actions pool m
  | shared (several : 2 ≤ (takers actions pool m).length)
      (other : direction pool.contractAddress m ≠ ((takers actions pool m).map ownWay).sum) :
      AtFault actions pool m

/-- The account of a pool is no wallet's. -/
def WalletsApart (actions : List EconomicAction) (pool : EconomicAction) : Prop :=
  ∀ action ∈ actions, walletAccount (orText action.wallet "unknown") ≠ poolAccount pool

theorem accountEffect_pool (pool action : EconomicAction)
    (wallet : walletAccount (orText action.wallet "unknown") ≠ poolAccount pool)
    (kind : StakeOrUnstake action) :
    accountEffect (poolAccount pool) action =
      if poolAccount action = poolAccount pool then action.amountLink * ownWay action else 0 := by
  unfold accountEffect bookedAccounts ownWay
  rcases kind with stake | unstake
  · simp [stake, wallet]
  · simp only [unstake, wallet, reduceCtorEq, if_false]
    split_ifs <;> simp

theorem sum_takers (actions : List EconomicAction) (pool : EconomicAction) (m : TokenMovement)
    (apart : WalletsApart actions pool) (kinds : ∀ action ∈ actions, StakeOrUnstake action) :
    ((actions.filter (m.amount = ·.amountLink)).map (accountEffect (poolAccount pool))).sum =
      m.amount * ((takers actions pool m).map ownWay).sum := by
  induction actions with
  | nil => simp [takers]
  | cons action rest ih =>
      have tail := ih (fun other member => apart other (List.mem_cons_of_mem _ member))
        fun other member => kinds other (List.mem_cons_of_mem _ member)
      have effect := accountEffect_pool pool action (apart action List.mem_cons_self)
        (kinds action List.mem_cons_self)
      rw [takers] at tail ⊢
      rw [List.filter_cons, List.filter_cons]
      by_cases own : m.amount = action.amountLink
      · rw [if_pos (by simpa using own), List.map_cons, List.sum_cons, tail, effect, ← own]
        by_cases here : poolAccount action = poolAccount pool
        · rw [if_pos here, if_pos (by simp [own, here]), List.map_cons, List.sum_cons, mul_add]
        · rw [if_neg here, if_neg (by simp [here]), zero_add]
      · rw [if_neg (by simpa using own), if_neg (by simp [Ne.symm own]), tail]

theorem accountNet_oneToOne (actions : List EconomicAction) (movements : List TokenMovement)
    (given : OneToOne actions movements) (evidence : EconomicAction → List TokenMovement)
    (pool : EconomicAction) (apart : WalletsApart actions pool)
    (kinds : ∀ action ∈ actions, StakeOrUnstake action) :
    accountNet (poolAccount pool) (ledgerEntries sha256 evidence actions) =
      (movements.map fun m => m.amount * ((takers actions pool m).map ownWay).sum).sum := by
  rw [accountNet_ledgerEntries,
    sum_at_matches (fun action (m : TokenMovement) => decide (m.amount = action.amountLink))
      (accountEffect (poolAccount pool)) given.single]
  congr 1
  exact List.map_congr_left fun m _ => sum_takers actions pool m apart kinds

theorem balanceDelta_direction (movements : List TokenMovement) (address : String) (blockNumber : Int)
    (inBlock : ∀ m ∈ movements, m.blockNumber = blockNumber) :
    computeBalanceDelta movements address blockNumber blockNumber =
      (movements.map fun m => m.amount * direction address m).sum := by
  rw [computeBalanceDelta_eq]
  congr 1
  apply List.map_congr_left
  intro m member
  have inside : ¬ (m.blockNumber < blockNumber ∨ blockNumber < m.blockNumber) := by
    have here := inBlock m member
    omega
  rw [Transfer.effectIn, transferOf, if_neg inside, Transfer.effect, direction, mul_sub]
  simp only [mul_ite, mul_one, mul_zero]

/-! ## Agreement -/

/-- A movement is at fault when what is booked of it is not what it brings the pool. -/
theorem atFault_iff (actions : List EconomicAction) (pool : EconomicAction) (m : TokenMovement)
    (positive : ∀ action ∈ actions, 0 < action.amountLink) :
    AtFault actions pool m ↔ m.amount * ((takers actions pool m).map ownWay).sum ≠
      m.amount * direction pool.contractAddress m := by
  have nonzero : takers actions pool m ≠ [] → m.amount ≠ 0 := by
    intro claimed
    obtain ⟨action, member⟩ := List.exists_mem_of_ne_nil _ claimed
    obtain ⟨member, own⟩ := List.mem_filter.mp member
    simp only [decide_eq_true_eq] at own
    have := positive action member
    omega
  constructor
  · intro fault same
    cases fault with
    | loose unclaimed some moves =>
        rw [unclaimed] at same
        exact moves (mul_left_cancel₀ some same).symm
    | astray claimed other =>
        have same := mul_left_cancel₀ (nonzero (by simp [claimed])) same
        rw [claimed] at same
        exact other (by simpa using same.symm)
    | shared several other =>
        have claimed : takers actions pool m ≠ [] := by
          intro none
          simp [none] at several
        exact other (mul_left_cancel₀ (nonzero claimed) same).symm
  · intro differs
    have other : direction pool.contractAddress m ≠ ((takers actions pool m).map ownWay).sum :=
      fun same => differs (by rw [same])
    match claimed : takers actions pool m with
    | [] =>
        refine AtFault.loose claimed (fun zero => differs (by simp [zero])) ?_
        simpa [claimed] using other
    | [action] =>
        refine AtFault.astray claimed ?_
        simpa [claimed] using other
    | first :: second :: rest => exact AtFault.shared (by simp [claimed]) other

theorem booked_of_faultless (actions : List EconomicAction) (pool : EconomicAction)
    (positive : ∀ action ∈ actions, 0 < action.amountLink) (movements : List TokenMovement)
    (faultless : ∀ m ∈ movements, ¬ AtFault actions pool m) :
    (movements.map fun m => m.amount * ((takers actions pool m).map ownWay).sum) =
      movements.map fun m => m.amount * direction pool.contractAddress m := by
  apply List.map_congr_left
  intro m member
  have none := faultless m member
  rwa [atFault_iff _ _ _ positive, not_not] at none

/-- No pool has a wallet's account, and no movement is at fault. -/
structure Followed (actions : List EconomicAction) (movements : List TokenMovement) : Prop where
  apart : ∀ pool ∈ actions, WalletsApart actions pool
  followed : ∀ pool ∈ actions, ∀ m ∈ movements, ¬ AtFault actions pool m

section
variable (actions : List EconomicAction) (movements : List TokenMovement)
  (evidence : EconomicAction → List TokenMovement) (blockNumber : Int)
  (kinds : ∀ action ∈ actions, StakeOrUnstake action)
  (inBlock : ∀ m ∈ movements, m.blockNumber = blockNumber)
include kinds inBlock

theorem agrees_of_faultless (given : OneToOne actions movements) (pool : EconomicAction)
    (apart : WalletsApart actions pool) (faultless : ∀ m ∈ movements, ¬ AtFault actions pool m) :
    accountNet (poolAccount pool) (ledgerEntries sha256 evidence actions) =
      computeBalanceDelta movements pool.contractAddress blockNumber blockNumber := by
  rw [accountNet_oneToOne sha256 actions movements given evidence pool apart kinds,
    balanceDelta_direction _ _ _ inBlock,
    booked_of_faultless actions pool (fun action member => (given.expected action member).2) movements
      faultless]

theorem differs_of_fault (given : OneToOne actions movements) (pool : EconomicAction)
    (apart : WalletsApart actions pool) (before after : List TokenMovement) (m : TokenMovement)
    (split : movements = before ++ m :: after) (fault : AtFault actions pool m)
    (others : ∀ m' ∈ before ++ after, ¬ AtFault actions pool m') :
    accountNet (poolAccount pool) (ledgerEntries sha256 evidence actions) ≠
      computeBalanceDelta movements pool.contractAddress blockNumber blockNumber := by
  rw [accountNet_oneToOne sha256 actions movements given evidence pool apart kinds,
    balanceDelta_direction _ _ _ inBlock]
  have positive : ∀ action ∈ actions, 0 < action.amountLink :=
    fun action member => (given.expected action member).2
  have differs := (atFault_iff actions pool m positive).mp fault
  have first := booked_of_faultless actions pool positive before
    fun m' member => others m' (List.mem_append_left _ member)
  have last := booked_of_faultless actions pool positive after
    fun m' member => others m' (List.mem_append_right _ member)
  intro equal
  rw [split, List.map_append, List.map_append, List.map_cons, List.map_cons, first, last,
    List.sum_append, List.sum_append, List.sum_cons, List.sum_cons] at equal
  omega

end

/-- The ledger of an exact transaction agrees with the chain when each movement goes the way of the
action that takes it. One movement at fault at a pool breaks the agreement there; several can cancel. -/
theorem exact_agrees_followed (actions : List EconomicAction) (movements : List TokenMovement)
    (evidence : EconomicAction → List TokenMovement) (blockNumber : Int)
    (kinds : ∀ action ∈ actions, StakeOrUnstake action) (oneTx : OneTx actions movements)
    (inBlock : ∀ m ∈ movements, m.blockNumber = blockNumber) :
    ((OneToOne actions movements → Followed actions movements) →
      (matchTxEconomics sha256 actions movements).overallStatus = .exact →
        ∀ pool ∈ actions, accountNet (poolAccount pool) (ledgerEntries sha256 evidence actions) =
          computeBalanceDelta movements pool.contractAddress blockNumber blockNumber) ∧
    ((matchTxEconomics sha256 actions movements).overallStatus = .exact →
      ∀ pool ∈ actions, WalletsApart actions pool → ∀ before m after, movements = before ++ m :: after →
        AtFault actions pool m → (∀ m' ∈ before ++ after, ¬ AtFault actions pool m') →
        accountNet (poolAccount pool) (ledgerEntries sha256 evidence actions) ≠
          computeBalanceDelta movements pool.contractAddress blockNumber blockNumber) := by
  rw [exact_iff_oneToOne sha256 actions movements oneTx]
  constructor
  · intro condition given pool isPool
    obtain ⟨apart, followed⟩ := condition given
    exact agrees_of_faultless sha256 actions movements evidence blockNumber kinds inBlock given pool
      (apart pool isPool) (followed pool isPool)
  · intro given pool _ apart before m after split fault others
    exact differs_of_fault sha256 actions movements evidence blockNumber kinds inBlock given pool apart
      before after m split fault others

/-! ### One stake and one movement -/

def walletStake : EconomicAction := { stakeOf "a1" 5 with wallet := some "0xaa" }

theorem exact_agrees_stake :
    (matchTxEconomics id [walletStake] [movementOf "m1" 5]).overallStatus = .exact ∧
    ∀ pool ∈ [walletStake], accountNet (poolAccount pool)
        (ledgerEntries id (fun _ => [movementOf "m1" 5]) [walletStake]) =
      computeBalanceDelta [movementOf "m1" 5] pool.contractAddress 100 100 := by
  have exact : (matchTxEconomics id [walletStake] [movementOf "m1" 5]).overallStatus = .exact := by
    decide
  have followed : Followed [walletStake] [movementOf "m1" 5] := by
    refine ⟨by unfold WalletsApart; decide, ?_⟩
    simp only [List.mem_singleton, forall_eq]
    rw [atFault_iff _ _ _ (by decide)]
    decide
  exact ⟨exact, (exact_agrees_followed id [walletStake] [movementOf "m1" 5] _ 100 (by decide)
    ⟨"0x01", by decide⟩ (by decide)).1 (fun _ => followed) exact⟩

def paidElsewhere : TokenMovement := { movementOf "m1" 5 with toAddr := "0xcc" }

theorem exact_without_deposit :
    walletStake.kind = .stake ∧ walletStake.wallet = some paidElsewhere.fromAddr ∧
    OneTx [walletStake] [paidElsewhere] ∧ (∀ m ∈ [paidElsewhere], m.blockNumber = walletStake.blockNumber) ∧
    ¬ ((matchTxEconomics id [walletStake] [paidElsewhere]).overallStatus = .exact →
      ∀ pool ∈ [walletStake], accountNet (poolAccount pool)
          (ledgerEntries id (fun _ => [paidElsewhere]) [walletStake]) =
        computeBalanceDelta [paidElsewhere] pool.contractAddress 100 100) :=
  ⟨rfl, rfl, ⟨"0x01", by decide⟩, by decide, by decide⟩

end EconomicLedger.Matching
