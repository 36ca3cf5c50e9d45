import EconomicLedger.Ledger.Synthesized
import EconomicLedger.Movements.Built
import EconomicLedger.Movements.Provenance

/-!
# Edges of LINK transfers

The edge of a Payment Abstraction action goes to the first movement of its transaction with its amount.
The movement of the action's own log is among these, and it is the first unless another of them comes
before it.
-/

namespace EconomicLedger.Matching
open Model Text Movements Ledger

variable (sha256 : Digest)

/-! ## The first candidate -/

def candidate (action : PAEconomicAction) (m : TokenMovement) : Bool :=
  lower m.txHash = lower action.txHash ∧ m.amount = action.target

theorem candidate_amount {action : PAEconomicAction} {m : TokenMovement}
    (isCandidate : candidate action m = true) : m.amount = action.target :=
  (of_decide_eq_true isCandidate).2

/-- The one row of the action is an exact edge to the movement. -/
def Claims (action : PAEconomicAction) (movements : List TokenMovement) (runPartitionId : String)
    (m : TokenMovement) : Prop :=
  ∃ row, paEdgeRows sha256 action movements runPartitionId = [row] ∧ row.actionId = action.actionId ∧
    row.status = Status.exact.value ∧ row.movementId = m.movementId ∧ row.allocatedAmount = m.amount

def Expects (action : PAEconomicAction) : Prop := action.kind ≠ .configChanged ∧ action.target ≠ 0

theorem paEdgeRows_first (action : PAEconomicAction) (expects : Expects action) (movements : List TokenMovement)
    (runPartitionId : String) (m : TokenMovement) (first : movements.find? (candidate action) = some m) :
    Claims sha256 action movements runPartitionId m := by
  have heads : ∃ rest, paCandidates action movements = m :: rest := by
    obtain ⟨isCandidate, earlier, later, rfl, others⟩ := List.find?_eq_some_iff_append.mp first
    have none : earlier.filter (candidate action) = [] := by
      rw [List.filter_eq_nil_iff]
      intro n member
      simpa using others n member
    refine ⟨later.filter (candidate action), ?_⟩
    change (earlier ++ m :: later).filter (candidate action) = _
    rw [List.filter_append, none, List.filter_cons_of_pos isCandidate, List.nil_append]
  obtain ⟨rest, heads⟩ := heads
  rw [Claims, paEdgeRows, if_neg (not_or.mpr expects), heads]
  exact ⟨_, rfl, rfl, rfl, rfl, rfl⟩

theorem claims_iff_first (action : PAEconomicAction) (expects : Expects action) (movements : List TokenMovement)
    (distinct : (ids movements).Nodup) (runPartitionId : String)
    (exists_candidate : ∃ m ∈ movements, candidate action m = true) (m : TokenMovement)
    (member : m ∈ movements) : Claims sha256 action movements runPartitionId m ↔
      movements.find? (candidate action) = some m := by
  constructor
  · rintro ⟨row, rows, -, -, claimed, -⟩
    obtain ⟨n, found⟩ := Option.isSome_iff_exists.mp (List.find?_isSome.mpr exists_candidate)
    obtain ⟨row', rows', -, -, claimed', -⟩ := paEdgeRows_first sha256 action expects movements
      runPartitionId n found
    obtain rfl := List.singleton_inj.mp (rows.symm.trans rows')
    rw [found, List.inj_on_of_nodup_map distinct (List.mem_of_find?_eq_some found) member
      (claimed'.symm.trans claimed)]
  · exact paEdgeRows_first sha256 action expects movements runPartitionId m

/-! ## One transaction -/

structure OneTransaction (transfers : List LinkTransfer) : Prop where
  decoded : ∀ t ∈ transfers, t.event.isTransfer = true
  together : ∃ chainId txHash, ∀ t ∈ transfers, t.event.chainId = chainId ∧ lower t.event.txHash = txHash
  apart : (transfers.map (·.event.logIndex)).Nodup

variable {sha256}

theorem OneTransaction.ids_nodup {transfers : List LinkTransfer} (one : OneTransaction transfers)
    (injective : Function.Injective sha256) :
    (ids ((transfers.map LinkTransfer.event).map (builtLog sha256))).Nodup := by
  rw [ids, List.map_map, List.map_map]
  have apart := one.apart
  rw [List.Nodup, List.pairwise_map] at apart ⊢
  refine apart.imp fun differ same => differ ?_
  exact ((computeMovementId_inj injective _ _ _ _ _ _ _ _ _ _ _ _).mp same).2

theorem transferAmount_eq (t : LinkTransfer) : t.event.transferAmount = .ok t.value := by
  rw [DecodedEvent.transferAmount, t.hasValue]
  rfl

variable (sha256)

theorem OneTransaction.built {transfers : List LinkTransfer} (one : OneTransaction transfers) :
    buildMovementsFromTransferLogs sha256 (transfers.map LinkTransfer.event) =
      .ok ((transfers.map LinkTransfer.event).map (builtLog sha256)) := by
  have all : (transfers.map LinkTransfer.event).filter (·.isTransfer) = transfers.map LinkTransfer.event := by
    rw [List.filter_eq_self]
    intro ev member
    obtain ⟨t, inside, rfl⟩ := List.mem_map.mp member
    exact one.decoded t inside
  rw [buildMovementsFromTransferLogs_eq_ok_iff, all]
  refine ⟨fun ev member => ?_, rfl⟩
  obtain ⟨t, -, rfl⟩ := List.mem_map.mp member
  exact ⟨t.value, transferAmount_eq t⟩

theorem OneTransaction.sources {transfers : List LinkTransfer} (one : OneTransaction transfers)
    (injective : Function.Injective sha256) (traces : List TokenMovement)
    (fromTraces : ∀ m ∈ traces, m.sourcePriority = .trace) :
    Sources ((transfers.map LinkTransfer.event).map (builtLog sha256)) traces where
  distinct := one.ids_nodup injective
  fromLogs := fun m member => by
    obtain ⟨ev, -, rfl⟩ := List.mem_map.mp member
    rfl
  fromTraces := fromTraces

/-! ## The actions of the transfers -/

theorem mem_synthesized (transfers : List LinkTransfer) (action : PAEconomicAction) :
    action ∈ transfers.flatMap (fun t => (t.action? sha256).toList) ↔
      ∃ t ∈ transfers, t.action? sha256 = some action := by
  simp only [List.mem_flatMap, Option.mem_toList]

theorem action_cases (t : LinkTransfer) (action : PAEconomicAction) (booked : t.action? sha256 = some action) :
    Expects action ∧ action.target = t.value ∧ lower action.txHash = lower t.event.txHash ∧
      action.rawLogId = t.event.rawLogId := by
  rw [LinkTransfer.action?] at booked
  split_ifs at booked with nothing
  obtain ⟨⟨kind, role⟩, receiver, rfl⟩ := Option.map_eq_some_iff.mp booked
  have nonzero : t.value ≠ 0 := by omega
  have target : (synthesizedAction sha256 t.event kind role t.value).target = t.value := ite_self t.value
  refine ⟨⟨fun config => ?_, target.trans_ne nonzero⟩, target, lower_lower _, rfl⟩
  rcases paReceiver_cases receiver with ⟨-, rfl, -⟩ | ⟨-, rfl, -⟩ | ⟨-, rfl, -⟩ <;> cases config

theorem exists_own (transfers : List LinkTransfer) (traces : List TokenMovement)
    (sources : Sources ((transfers.map LinkTransfer.event).map (builtLog sha256)) traces) (t : LinkTransfer)
    (member : t ∈ transfers) (action : PAEconomicAction) (booked : t.action? sha256 = some action) :
    ∃ own ∈ unifyMovements ((transfers.map LinkTransfer.event).map (builtLog sha256)) traces,
      action.rawLogId ∈ own.evidenceIds ∧ candidate action own = true := by
  obtain ⟨-, target, sameTx, rawLog⟩ := action_cases sha256 t action booked
  obtain ⟨g, inGroups, isKept⟩ := exists_group_log sources (builtLog sha256 t.event)
    (List.mem_map_of_mem (List.mem_map_of_mem member))
  refine ⟨g.record, (unifyMovements_groups sources).mem_iff.mpr (List.mem_map_of_mem inGroups), ?_, ?_⟩
  · rw [Group.record, mem_absorbAll_evidence, isKept, rawLog]
    exact Or.inl List.mem_cons_self
  · have bucket : g.record.bucketKey = (builtLog sha256 t.event).bucketKey := by
      rw [Group.record_bucketKey, isKept]
    have tx : g.record.txHash = lower t.event.txHash := congrArg (fun key : BucketKey => key.1) bucket
    have amount : g.record.amount = t.value := by
      have same := congrArg (fun key : BucketKey => key.2.2.2) bucket
      exact same.trans (amountOf_eq t.event t.value (transferAmount_eq t))
    simp only [candidate, tx, lower_lower, sameTx, amount, target, and_self, decide_true]

theorem sameTx_of_synthesized {transfers : List LinkTransfer} (one : OneTransaction transfers) :
    ∃ txHash, ∀ action ∈ transfers.flatMap (fun t => (t.action? sha256).toList),
      lower action.txHash = txHash := by
  obtain ⟨chainId, txHash, together⟩ := one.together
  refine ⟨txHash, fun action member => ?_⟩
  obtain ⟨t, inside, booked⟩ := (mem_synthesized sha256 transfers action).mp member
  obtain ⟨-, -, sameTx, -⟩ := action_cases sha256 t action booked
  rw [sameTx, (together t inside).2]

/-! ## The edges -/

/-- The edge of an action goes to the first movement with its amount, be it that of its log or not. -/
theorem pa_edges_first (injective : Function.Injective sha256) (transfers : List LinkTransfer)
    (one : OneTransaction transfers) (traces : List TokenMovement)
    (fromTraces : ∀ m ∈ traces, m.sourcePriority = .trace) (runPartitionId : String) :
    ∃ actions logs,
      synthesizePaActionsFromLinkTransfers sha256 (transfers.map LinkTransfer.event) = .ok actions ∧
      buildMovementsFromTransferLogs sha256 (transfers.map LinkTransfer.event) = .ok logs ∧
      (∀ action ∈ actions,
        (∃ m, (unifyMovements logs traces).find? (candidate action) = some m ∧
          Claims sha256 action (unifyMovements logs traces) runPartitionId m) ∧
        ∃ own ∈ unifyMovements logs traces, action.rawLogId ∈ own.evidenceIds ∧ candidate action own = true ∧
          (Claims sha256 action (unifyMovements logs traces) runPartitionId own ↔
            (unifyMovements logs traces).find? (candidate action) = some own)) ∧
      ∀ action ∈ actions, ∀ action' ∈ actions,
        (∃ m ∈ unifyMovements logs traces,
          Claims sha256 action (unifyMovements logs traces) runPartitionId m ∧
          Claims sha256 action' (unifyMovements logs traces) runPartitionId m) ↔
        action.target = action'.target := by
  have sources := one.sources sha256 injective traces fromTraces
  have distinct := ids_unifyMovements_nodup sources
  obtain ⟨txHash, sameTx⟩ := sameTx_of_synthesized sha256 one
  have ownOf (action : PAEconomicAction)
      (member : action ∈ transfers.flatMap fun t => (t.action? sha256).toList) : Expects action ∧
        ∃ own ∈ unifyMovements ((transfers.map LinkTransfer.event).map (builtLog sha256)) traces,
          action.rawLogId ∈ own.evidenceIds ∧ candidate action own = true := by
    obtain ⟨t, inside, booked⟩ := (mem_synthesized sha256 transfers action).mp member
    exact ⟨(action_cases sha256 t action booked).1,
      exists_own sha256 transfers traces sources t inside action booked⟩
  refine ⟨_, _, synthesized_eq sha256 transfers, one.built sha256, ?_, ?_⟩
  · intro action member
    obtain ⟨expects, own, inside, carries, isCandidate⟩ := ownOf action member
    obtain ⟨m, first⟩ := Option.isSome_iff_exists.mp (List.find?_isSome.mpr ⟨own, inside, isCandidate⟩)
    exact ⟨⟨m, first, paEdgeRows_first sha256 action expects _ runPartitionId m first⟩,
      own, inside, carries, isCandidate,
      claims_iff_first sha256 action expects _ distinct runPartitionId ⟨own, inside, isCandidate⟩ own inside⟩
  · intro action member action' member'
    obtain ⟨expects, own, inside, -, isCandidate⟩ := ownOf action member
    obtain ⟨expects', own', inside', -, isCandidate'⟩ := ownOf action' member'
    constructor
    · rintro ⟨m, inMovements, claims, claims'⟩
      have first := (claims_iff_first sha256 action expects _ distinct runPartitionId
        ⟨own, inside, isCandidate⟩ m inMovements).mp claims
      have first' := (claims_iff_first sha256 action' expects' _ distinct runPartitionId
        ⟨own', inside', isCandidate'⟩ m inMovements).mp claims'
      exact (candidate_amount (List.find?_some first)).symm.trans
        (candidate_amount (List.find?_some first'))
    · intro sameTarget
      have sameCandidates : candidate action' = candidate action := by
        funext m
        rw [candidate, candidate, sameTx action member, sameTx action' member', sameTarget]
      obtain ⟨m, first⟩ := Option.isSome_iff_exists.mp (List.find?_isSome.mpr ⟨own, inside, isCandidate⟩)
      exact ⟨m, List.mem_of_find?_eq_some first,
        paEdgeRows_first sha256 action expects _ runPartitionId m first,
        paEdgeRows_first sha256 action' expects' _ runPartitionId m (sameCandidates ▸ first)⟩

/-! ## Two equal transfers -/

def twiceToReserves : List LinkTransfer := [0, 1].map toReserves

def twiceLogs : List TokenMovement := (twiceToReserves.map LinkTransfer.event).map (builtLog id)

def twiceAction (logIndex : Int) : PAEconomicAction :=
  synthesizedAction id (transferEvent paSwapAutomatorAddress paReservesAddress logIndex 5) .reservesDeposit
    "pa_reserves" 5

theorem oneTransaction_twice : OneTransaction twiceToReserves where
  decoded := by
    intro t member
    obtain ⟨logIndex, -, rfl⟩ := List.mem_map.mp member
    exact decide_eq_true lower_erc20TransferTopic0
  together := ⟨1, lower "0x01", by
    intro t member
    obtain ⟨logIndex, -, rfl⟩ := List.mem_map.mp member
    exact ⟨rfl, rfl⟩⟩
  apart := by decide

theorem pa_edges_first_twice : ∃ actions logs,
    synthesizePaActionsFromLinkTransfers id (twiceToReserves.map LinkTransfer.event) = .ok actions ∧
    buildMovementsFromTransferLogs id (twiceToReserves.map LinkTransfer.event) = .ok logs ∧
    ∀ action ∈ actions, ∃ m, (unifyMovements logs []).find? (candidate action) = some m ∧
      Claims id action (unifyMovements logs []) "run" m := by
  obtain ⟨actions, logs, synthesized, built, each, -⟩ := pa_edges_first id Function.injective_id
    twiceToReserves oneTransaction_twice [] nofun "run"
  exact ⟨actions, logs, synthesized, built, fun action member => (each action member).1⟩

/-- Both actions claim one movement, and it cannot carry the logs of both. -/
theorem equal_transfers_share_edge : OneTransaction twiceToReserves ∧
    synthesizePaActionsFromLinkTransfers id (twiceToReserves.map LinkTransfer.event) =
      .ok [twiceAction 0, twiceAction 1] ∧
    buildMovementsFromTransferLogs id (twiceToReserves.map LinkTransfer.event) = .ok twiceLogs ∧
    (∃ m, Claims id (twiceAction 0) (unifyMovements twiceLogs []) "run" m ∧
      Claims id (twiceAction 1) (unifyMovements twiceLogs []) "run" m) ∧
    ¬ ∀ action ∈ [twiceAction 0, twiceAction 1], ∃ m ∈ unifyMovements twiceLogs [],
      action.rawLogId ∈ m.evidenceIds ∧ Claims id action (unifyMovements twiceLogs []) "run" m := by
  have sources : Sources twiceLogs [] := oneTransaction_twice.sources id Function.injective_id [] nofun
  have target (logIndex : Int) : (twiceAction logIndex).target = 5 := rfl
  have expects (logIndex : Int) : Expects (twiceAction logIndex) := ⟨nofun, by rw [target]; decide⟩
  obtain ⟨own, inside, -, isCandidate⟩ := exists_own id twiceToReserves [] sources _ List.mem_cons_self
    (twiceAction 0) rfl
  obtain ⟨m, first⟩ := Option.isSome_iff_exists.mp (List.find?_isSome.mpr ⟨own, inside, isCandidate⟩)
  have claims (logIndex : Int) : Claims id (twiceAction logIndex) (unifyMovements twiceLogs []) "run" m :=
    paEdgeRows_first id _ (expects logIndex) _ "run" m first
  have onlyFirst (logIndex : Int) (n : TokenMovement) (member : n ∈ unifyMovements twiceLogs [])
      (claimed : Claims id (twiceAction logIndex) (unifyMovements twiceLogs []) "run" n) : n = m := by
    have isFirst := (claims_iff_first id _ (expects logIndex) _ (ids_unifyMovements_nodup sources) "run"
      ⟨own, inside, isCandidate⟩ n member).mp claimed
    exact Option.some.inj (isFirst.symm.trans first)
  refine ⟨oneTransaction_twice, synthesized_eq id twiceToReserves, oneTransaction_twice.built id,
    ⟨m, claims 0, claims 1⟩, fun each => ?_⟩
  obtain ⟨n, member, carries, claimed⟩ := each (twiceAction 0) List.mem_cons_self
  obtain ⟨n', member', carries', claimed'⟩ := each (twiceAction 1) (List.mem_cons_of_mem _ List.mem_cons_self)
  rw [onlyFirst 0 n member claimed] at carries member
  rw [onlyFirst 1 n' member' claimed'] at carries'
  obtain ⟨t, -, rfl⟩ := List.mem_map.mp (mem_logs_of_unifyMovements sources m member)
  have same := (List.mem_singleton.mp carries).trans (List.mem_singleton.mp carries').symm
  exact absurd same (by decide)

end EconomicLedger.Matching
