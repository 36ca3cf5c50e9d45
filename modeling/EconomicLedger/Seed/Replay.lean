import EconomicLedger.Marts.FlowRows
import EconomicLedger.Marts.Replay
import EconomicLedger.Seed.DbtTests

/-!
# Replays of the seed script

The script run again under another `run_partition_id` writes the same tables but for that column, so the
warehouse built from them keeps its content.
-/

namespace EconomicLedger.Seed
open Model Ledger Text Fallible Keyed Marts Payload Relational Rollup Staging

variable {sha256 : Digest} {libs : ExternalLibs}

/-! ## Tables of another run -/

/-- The tables with the rows that another run writes. -/
def writtenBy (runPartitionId : String) (seeds : SeedTables) : SeedTables :=
  { decodedEvents := seeds.decodedEvents.map fun row => { row with runPartitionId := runPartitionId }
    decodedTraceCalls := seeds.decodedTraceCalls.map fun row => { row with runPartitionId := runPartitionId }
    linkTransfers := seeds.linkTransfers.map fun row => { row with runPartitionId := runPartitionId }
    canonicalBlocks := seeds.canonicalBlocks.map fun row => { row with runPartitionId := runPartitionId }
    economicActions := seeds.economicActions.map fun row => { row with runPartitionId := runPartitionId }
    tokenMovements := seeds.tokenMovements.map fun row => { row with runPartitionId := runPartitionId }
    actionMovementEdges := seeds.actionMovementEdges.map fun row =>
      { row with runPartitionId := runPartitionId }
    ledgerEntries := seeds.ledgerEntries.map fun row => { row with runPartitionId := runPartitionId } }

theorem canonicalBlockRow_writtenBy (tx : TxJson) (block : BlockJson) (run run' : String) :
    canonicalBlockRow tx block run' =
      (canonicalBlockRow tx block run).map fun row => { row with runPartitionId := run' } := by
  unfold canonicalBlockRow
  cases intBase16 tx.blockNumber with
  | error failure => rfl
  | ok blockNumber =>
      cases intBase16 block.timestamp with
      | error failure => rfl
      | ok timestamp => rfl

theorem sharedTables_writtenBy (logs : List RawLog) (recovered : List RecoveredEvent) (side : TokenSide)
    (block : BlockRow) (run run' : String) :
    sharedTables logs recovered side { block with runPartitionId := run' } run' =
      writtenBy run' (sharedTables logs recovered side block run) := by
  have seedLogs : isSeedLog (recovered.map fun r => decodedEventRow r.event run') =
      isSeedLog (recovered.map fun r => decodedEventRow r.event run) := by
    funext log
    simp only [isSeedLog, List.map_map]
    rfl
  simp only [sharedTables, writtenBy, seedLogs, List.map_map, List.map_cons, List.map_nil]
  rfl

theorem stakeTables_writtenBy (logs : List RawLog) (recovered : List RecoveredEvent) (side : TokenSide)
    (block : BlockRow) (stakingActions : List EconomicAction) (run run' : String) :
    stakeTables sha256 logs recovered side { block with runPartitionId := run' } stakingActions run' =
      writtenBy run' (stakeTables sha256 logs recovered side block stakingActions run) := by
  simp only [stakeTables, sharedTables_writtenBy logs recovered side block run run', writtenBy,
    List.map_map, List.map_flatMap]
  rfl

theorem paEdgeRows_writtenBy (action : PAEconomicAction) (movements : List TokenMovement)
    (run run' : String) : paEdgeRows sha256 action movements run' =
      (paEdgeRows sha256 action movements run).map fun row => { row with runPartitionId := run' } := by
  unfold paEdgeRows
  split_ifs
  · rfl
  · cases paCandidates action movements with
    | nil => rfl
    | cons m rest => rfl

theorem paTables_writtenBy (logs : List RawLog) (recovered : List RecoveredEvent) (side : TokenSide)
    (block : BlockRow) (paActions : List PAEconomicAction) (run run' : String) :
    paTables sha256 logs recovered side { block with runPartitionId := run' } paActions run' =
      writtenBy run' (paTables sha256 logs recovered side block paActions run) := by
  simp only [paTables, sharedTables_writtenBy logs recovered side block run run', writtenBy,
    List.map_map, List.map_flatMap, paEdgeRows_writtenBy _ _ run run']
  rfl

theorem raising_map {α β : Type} (f : α → β) (x : Py α) : raising (x.map f) = (raising x).map f := by
  cases x <;> rfl

theorem processStakeFixture_writtenBy (fixture : Fixture) (run run' : String) :
    processStakeFixture sha256 libs fixture run' =
      (processStakeFixture sha256 libs fixture run).map (writtenBy run') := by
  unfold processStakeFixture
  cases raising (loadReceipt fixture.receipt) with
  | error failure => rfl
  | ok receipt =>
  cases raising (loadLogs fixture) with
  | error failure => rfl
  | ok logs =>
  cases raising (loadTrace fixture) with
  | error failure => rfl
  | ok rootTrace =>
  simp only [ok_bind]
  cases raising (recoverEvents sha256 libs stakedWatch logs) with
  | error failure => rfl
  | ok recovered =>
  simp only [ok_bind]
  cases (recovered.filterMap RecoveredEvent.watched?).getLast? with
  | none => rfl
  | some stakedEvent =>
  simp only
  cases raising (tokenSide sha256 libs rootTrace receipt (recovered.filterMap RecoveredEvent.linkTransfer?)) with
  | error failure => rfl
  | ok side =>
  cases raising (classifyEventAsAction sha256 stakedEvent stubContractRegistry) with
  | error failure => rfl
  | ok stakingActions =>
  rw [canonicalBlockRow_writtenBy fixture.tx fixture.block run run', raising_map]
  cases raising (canonicalBlockRow fixture.tx fixture.block run) with
  | error failure => rfl
  | ok block =>
  exact congrArg Except.ok (stakeTables_writtenBy logs recovered side block stakingActions run run')

theorem processPaFixture_writtenBy (fixture : Fixture) (run run' : String) :
    processPaFixture sha256 libs fixture run' =
      (processPaFixture sha256 libs fixture run).map (writtenBy run') := by
  unfold processPaFixture
  cases raising (loadReceipt fixture.receipt) with
  | error failure => rfl
  | ok receipt =>
  cases raising (loadLogs fixture) with
  | error failure => rfl
  | ok logs =>
  cases raising (loadTrace fixture) with
  | error failure => rfl
  | ok rootTrace =>
  simp only [ok_bind]
  cases raising (recoverEvents sha256 libs assetTransferredForSwapWatch logs) with
  | error failure => rfl
  | ok recovered =>
  simp only [ok_bind]
  cases raising (tokenSide sha256 libs rootTrace receipt (recovered.filterMap RecoveredEvent.linkTransfer?)) with
  | error failure => rfl
  | ok side =>
  cases raising (flatMapM (fun ev => classifyPaEventAsAction sha256 ev stubContractRegistry)
      (recovered.filterMap RecoveredEvent.watched?)) with
  | error failure => rfl
  | ok classified =>
  cases raising (synthesizePaActionsFromLinkTransfers sha256
      (recovered.filterMap RecoveredEvent.linkTransfer?)) with
  | error failure => rfl
  | ok synthesized =>
  rw [canonicalBlockRow_writtenBy fixture.tx fixture.block run run', raising_map]
  cases raising (canonicalBlockRow fixture.tx fixture.block run) with
  | error failure => rfl
  | ok block =>
  exact congrArg Except.ok
    (paTables_writtenBy logs recovered side block (classified ++ synthesized) run run')

theorem mergeRows_map {ρ : Type} (key : ρ → String) (f : ρ → ρ) (own : ∀ row, key (f row) = key row)
    (stake pa : List ρ) : mergeRows key (stake.map f) (pa.map f) = (mergeRows key stake pa).map f := by
  have named : (key · ≠ "") ∘ f = (key · ≠ "") := funext fun row => by simp [own]
  have same : (fun row => key (f row)) = key := funext own
  rw [mergeRows_eq, mergeRows_eq, ← List.map_append, keyed, List.filter_map, firstByKey_map, same]
  refine congrArg _ (congrArg _ (List.filter_congr fun row _ => ?_))
  simp [own]

theorem mergeTables_writtenBy (stake pa : SeedTables) (run' : String) :
    mergeTables (writtenBy run' stake) (writtenBy run' pa) = writtenBy run' (mergeTables stake pa) := by
  have logs := values_index_map RawLogRow.position (fun row => { row with runPartitionId := run' })
    (fun _ => rfl) (stake.linkTransfers ++ pa.linkTransfers)
  simp only [mergeTables, writtenBy, ← List.map_append, logs]
  congr 1
  all_goals
    apply mergeRows_map
    exact fun _ => rfl

/-- The script under any `run_partition_id`. -/
def seedUnder (sha256 : Digest) (libs : ExternalLibs) (stakeFixture paFixture : Fixture)
    (runPartitionId : String) : Except SeedError SeedTables := do
  let stake ← processStakeFixture sha256 libs stakeFixture runPartitionId
  let pa ← processPaFixture sha256 libs paFixture runPartitionId
  checkSeeds (mergeTables stake pa)

theorem seedMain_eq_seedUnder (stakeFixture paFixture : Fixture) :
    seedMain sha256 libs stakeFixture paFixture =
      seedUnder sha256 libs stakeFixture paFixture seedRunPartitionId := rfl

theorem seedUnder_writtenBy (identifying : Identifying sha256) (stakeFixture paFixture : Fixture)
    (run run' : String) : seedUnder sha256 libs stakeFixture paFixture run' =
      (seedUnder sha256 libs stakeFixture paFixture run).map (writtenBy run') := by
  have stakeAgain := @processStakeFixture_writtenBy sha256 libs stakeFixture run run'
  have paAgain := @processPaFixture_writtenBy sha256 libs paFixture run run'
  unfold seedUnder
  cases stakeProcessed : processStakeFixture sha256 libs stakeFixture run with
  | error failure =>
      rw [stakeAgain, stakeProcessed]
      rfl
  | ok stake =>
      cases paProcessed : processPaFixture sha256 libs paFixture run with
      | error failure =>
          rw [stakeAgain, stakeProcessed, paAgain, paProcessed]
          rfl
      | ok pa =>
          rw [stakeProcessed] at stakeAgain
          rw [paProcessed] at paAgain
          have checked := checkSeeds_merged identifying stakeProcessed paProcessed
          have checkedAgain := checkSeeds_merged identifying stakeAgain paAgain
          rw [mergeTables_writtenBy] at checkedAgain
          rw [stakeAgain, paAgain]
          simp only [Except.map, ok_bind, checked, mergeTables_writtenBy]
          exact checkedAgain

/-! ## The same sources -/

theorem same_map {α : Type} (untag tag : α → α) (covered : ∀ a, untag (tag a) = untag a) (rows : List α) :
    Same untag (rows.map tag) rows := by
  rw [Same, List.map_map]
  exact List.Perm.of_eq (List.map_congr_left fun a _ => covered a)

def rerunBlock (run' : String) (row : BlockRow) : BlockRow := { row with runPartitionId := run' }

theorem stgCanonicalBlocks_rerun (finalityDepth : Int) (run' : String) (rawBlocks : List BlockRow) :
    stgCanonicalBlocks finalityDepth (rawBlocks.map (rerunBlock run')) =
      (stgCanonicalBlocks finalityDepth rawBlocks).map fun cb => { cb with runPartitionId := run' } := by
  have numbers : (rawBlocks.map (rerunBlock run')).map BlockRow.blockNumber =
      rawBlocks.map BlockRow.blockNumber := by
    rw [List.map_map]
    rfl
  have finalized : finalizedBlocks finalityDepth (rawBlocks.map (rerunBlock run')) =
      (finalizedBlocks finalityDepth rawBlocks).map (rerunBlock run') := by
    unfold finalizedBlocks isFinalized
    rw [List.filter_map, numbers]
    rfl
  have latest := latest_map BlockRow.height (rerunBlock run') (fun _ => rfl) BlockRow.ingestedAt
    (fun _ => rfl) (finalizedBlocks finalityDepth rawBlocks)
  rw [stgCanonicalBlocks, finalized, latestBlocks, latest, stgCanonicalBlocks, List.map_map, List.map_map]
  rfl

/-- What a dbt run over the seeds reads. -/
def dbtSeedSources (finalityDepth : Int) (seeds : SeedTables) : DbtSources :=
  seedSources seeds (canonicalView finalityDepth seeds.canonicalBlocks)

theorem writtenBy_sameSources (finalityDepth : Int) (run' : String) (seeds : SeedTables) :
    SameSources (dbtSeedSources finalityDepth (writtenBy run' seeds)) (dbtSeedSources finalityDepth seeds) where
  economicActions := by
    have same := same_map untagAction (fun row => { row with runPartitionId := run' })
      (fun _ => rfl) (seeds.economicActions.map seedAction)
    rw [List.map_map] at same
    change Same untagAction ((seeds.economicActions.map _).map _) _
    rw [List.map_map]
    exact same
  tokenMovements := same_map untagMovement (fun row => { row with runPartitionId := run' })
    (fun _ => rfl) seeds.tokenMovements
  actionMovementEdges := by
    have same := same_map untagEdge (fun row => { row with runPartitionId := run' })
      (fun _ => rfl) (seeds.actionMovementEdges.map seedEdge)
    rw [List.map_map] at same
    change Same untagEdge ((seeds.actionMovementEdges.map _).map _) _
    rw [List.map_map]
    exact same
  ledgerEntries := same_map untagEntry (fun row => { row with runPartitionId := run' })
    (fun _ => rfl) seeds.ledgerEntries
  canonicalBlocks := by
    change Same untagBlock (stgCanonicalBlocks finalityDepth (seeds.canonicalBlocks.map (rerunBlock run')))
      (stgCanonicalBlocks finalityDepth seeds.canonicalBlocks)
    rw [stgCanonicalBlocks_rerun]
    exact same_map untagBlock (fun cb => { cb with runPartitionId := run' }) (fun _ => rfl) _

/-! ## Unique tests -/

theorem nodup_of_length_le_one {α β : Type} (f : α → β) {rows : List α} (few : rows.length ≤ 1) :
    (rows.map f).Nodup := by
  cases rows with
  | nil => exact List.nodup_nil
  | cons row rest =>
      cases rest with
      | nil => exact List.nodup_singleton _
      | cons next more => simp at few

theorem classified_position {ev : DecodedEvent} {registry : ContractRegistry} {actions : List EconomicAction}
    (classified : classifyEventAsAction sha256 ev registry = .ok actions) (action : EconomicAction)
    (member : action ∈ actions) : action.chainId = ev.chainId ∧ action.blockNumber = ev.blockNumber ∧
      action.txHash = ev.txHash := by
  rw [classifyEventAsAction_eq] at classified
  cases kind : stakingKind registry ev with
  | none =>
      rw [kind] at classified
      cases classified
      cases member
  | some kind' =>
      rw [kind] at classified
      cases amount : extractAmountLink ev with
      | error failure =>
          rw [amount] at classified
          cases classified
      | ok amount' =>
          rw [amount] at classified
          cases classified
          unfold actionsOf at member
          split_ifs at member
          · rcases List.mem_cons.mp member with rfl | later
            · exact ⟨rfl, rfl, rfl⟩
            · obtain rfl := List.mem_singleton.mp later
              exact ⟨rfl, rfl, rfl⟩
          · obtain rfl := List.mem_singleton.mp member
            exact ⟨rfl, rfl, rfl⟩

/-- A stake is one action. -/
theorem staked_single {logs : List RawLog} {recovered : List RecoveredEvent} {ev : DecodedEvent}
    (found : recoverEvents sha256 libs stakedWatch logs = .ok recovered) (member : .watched ev ∈ recovered)
    {actions : List EconomicAction}
    (classified : classifyEventAsAction sha256 ev stubContractRegistry = .ok actions) :
    actions.length ≤ 1 := by
  obtain ⟨log, -, source⟩ := recoverEvents_from found _ member
  cases source with
  | watched _ _ _ decodes =>
      obtain ⟨entry, inside, named⟩ := decodesTo_entry decodes
      obtain rfl := List.mem_singleton.mp inside
      have kind : stakingKind stubContractRegistry ev = some .stake ∨
          stakingKind stubContractRegistry ev = none := by
        rw [stakingKind, named]
        split_ifs
        · exact Or.inr rfl
        · exact Or.inl rfl
      rw [classifyEventAsAction_eq] at classified
      rcases kind with stake | unknown
      · rw [stake] at classified
        cases amount : extractAmountLink ev with
        | error failure =>
            rw [amount] at classified
            cases classified
        | ok amount' =>
            rw [amount] at classified
            cases classified
            exact Nat.le_refl 1
      · rw [unknown] at classified
        cases classified
        exact Nat.zero_le 1

/-- The edge is loaded at the position of a log. -/
def LoggedAt (logs : List RawLog) (row : EdgeRow) : Prop :=
  ∃ log ∈ logs, row.chainId = log.chainId ∧ row.blockNumber = log.blockNumber ∧ row.txHash = lower log.txHash

theorem stakeEdge_logged {logs : List RawLog} {recovered : List RecoveredEvent} {ev : DecodedEvent}
    (found : recoverEvents sha256 libs stakedWatch logs = .ok recovered) (member : .watched ev ∈ recovered)
    {actions : List EconomicAction}
    (classified : classifyEventAsAction sha256 ev stubContractRegistry = .ok actions)
    (edges : EconomicAction → List ActionMovementMatch) (run : String) (row : EdgeRow)
    (inside : row ∈ actions.flatMap fun action => (edges action).map (edgeRow · action run)) :
    LoggedAt logs row := by
  obtain ⟨action, isAction, here⟩ := List.mem_flatMap.mp inside
  obtain ⟨edge, -, rfl⟩ := List.mem_map.mp here
  obtain ⟨log, isLog, source⟩ := recoverEvents_from found _ member
  have at_ := recoveredFrom_position source
  obtain ⟨chain, number, tx⟩ := classified_position classified action isAction
  refine ⟨log, isLog, chain.trans at_.chainId, number.trans at_.blockNumber, ?_⟩
  change lower action.txHash = _
  rw [tx, show ev.txHash = lower log.txHash from at_.txHash, lower_lower]

theorem paEdgeRow_at (action : PAEconomicAction) (movements : List TokenMovement) (run : String)
    (row : EdgeRow) (member : row ∈ paEdgeRows sha256 action movements run) :
    row.chainId = action.chainId ∧ row.blockNumber = action.blockNumber ∧ row.txHash = lower action.txHash := by
  unfold paEdgeRows at member
  split_ifs at member
  · rw [List.mem_singleton.mp member]
    exact ⟨rfl, rfl, rfl⟩
  · split at member
    · rw [List.mem_singleton.mp member]
      exact ⟨rfl, rfl, rfl⟩
    · rw [List.mem_singleton.mp member]
      exact ⟨rfl, rfl, rfl⟩

theorem paEdge_logged {logs : List RawLog} {recovered : List RecoveredEvent}
    (found : recoverEvents sha256 libs assetTransferredForSwapWatch logs = .ok recovered)
    {actions : List PAEconomicAction}
    (synthesized : synthesizePaActionsFromLinkTransfers sha256
      (recovered.filterMap RecoveredEvent.linkTransfer?) = .ok actions)
    (movements : List TokenMovement) (run : String) (row : EdgeRow)
    (inside : row ∈ actions.flatMap fun action => paEdgeRows sha256 action movements run) :
    LoggedAt logs row := by
  obtain ⟨action, isAction, here⟩ := List.mem_flatMap.mp inside
  obtain ⟨ev, isEvent, kind, role, amount, -, -, rfl⟩ := synthesized_of_mem synthesized action isAction
  obtain ⟨log, isLog, source⟩ := recoverEvents_from found _ (mem_linkTransfers isEvent)
  have at_ := recoveredFrom_position source
  obtain ⟨chain, number, tx⟩ := paEdgeRow_at _ movements run row here
  refine ⟨log, isLog, chain.trans at_.chainId, number.trans at_.blockNumber, tx.trans ?_⟩
  change lower (lower ev.txHash) = _
  rw [lower_lower, show ev.txHash = lower log.txHash from at_.txHash, lower_lower]

theorem recon_txHash_nodup {edges : List ActionMovementEdge}
    (onePlace : ∀ e ∈ edges, ∀ e' ∈ edges, e.txHash = e'.txHash →
      e.chainId = e'.chainId ∧ e.blockNumber = e'.blockNumber) :
    ((intActionMovementRecon edges).map ActionMovementReconRow.txHash).Nodup := by
  have keys : (intActionMovementRecon edges).map ActionMovementReconRow.txHash =
      (Dict.groupBy ActionMovementEdge.tx edges).keys.map Prod.fst := by
    rw [intActionMovementRecon, groupRows_eq, List.map_map]
    rfl
  rw [keys]
  refine List.Nodup.map_on (fun k present k' present' same => ?_) (Dict.keys_nodup _)
  rw [Dict.mem_keys_groupBy] at present present'
  obtain ⟨e, member, rfl⟩ := List.mem_map.mp present
  obtain ⟨e', member', rfl⟩ := List.mem_map.mp present'
  obtain ⟨chain, number⟩ := onePlace e member e' member' same
  exact Prod.ext same (Prod.ext chain number)

theorem status_of_one_chain (edges : List ActionMovementEdge) (blocks : CanonicalBlocks) (chainId : Int)
    (oneChain : ∀ e ∈ edges, e.chainId = chainId) : (reconciliationStatus sha256 edges blocks).length ≤ 1 := by
  have groups : (groupRows ActionMovementEdge.chainId chainEdges edges).length ≤ 1 := by
    cases edges with
    | nil => exact Nat.zero_le 1
    | cons e rest =>
        rw [groupRows_single _ _ (e :: rest) chainId (List.cons_ne_nil _ _) oneChain]
        exact Nat.le_refl 1
  have single (row : ChainEdges) : (blocks.rows.filter (onTipBlock row)).length ≤ 1 := by
    apply filter_length_le_one CanonicalBlock.height blocks.unique _ (row.chainId, row.blockRangeEnd)
    intro cb here
    simp only [onTipBlock, Bool.and_eq_true, decide_eq_true_eq] at here
    exact Prod.ext here.1 here.2
  have joined := congrArg List.length (innerJoin_left onTipBlock
    fun row (_ : row ∈ groupRows ActionMovementEdge.chainId chainEdges edges) => single row)
  rw [List.length_map] at joined
  rw [reconciliationStatus, List.length_map, joined]
  exact (List.length_filter_le _ _).trans groups

/-- The `unique` tests pass on the seeds. -/
theorem seeds_unique {stakeFixture paFixture : Fixture} {run : String} {stake pa : SeedTables}
    (stakeProcessed : processStakeFixture sha256 libs stakeFixture run = .ok stake)
    (paProcessed : processPaFixture sha256 libs paFixture run = .ok pa)
    (oneBlock : ∀ logs logs', loadLogs stakeFixture = .ok logs → loadLogs paFixture = .ok logs' →
      OneBlockEach (logs ++ logs')) (finalityDepth : Int) :
    UniqueTests (dbtRun sha256 none (dbtSeedSources finalityDepth (mergeTables stake pa))) := by
  obtain ⟨logs, recovered, side, block, stakedEvent, stakingActions, loaded, found, staked, classified, -,
    isStake⟩ := processStakeFixture_ok stakeProcessed
  obtain ⟨logs', recovered', side', block', paActions, loaded', found', synthesized, -, isPa⟩ :=
    processPaFixture_ok paProcessed
  set seeds := mergeTables stake pa with merged
  set blocks := canonicalView finalityDepth seeds.canonicalBlocks with isView
  have few : seeds.economicActions.length ≤ 1 := by
    have kept : seeds.economicActions.length ≤ (stake.economicActions ++ pa.economicActions).length := by
      change (mergeRows (·.action.actionId) stake.economicActions pa.economicActions).length ≤ _
      rw [mergeRows_eq]
      exact ((firstByKey_sublist _ _).trans List.filter_sublist).length_le
    have actions : (stake.economicActions ++ pa.economicActions).length = stakingActions.length := by
      rw [isStake, isPa, List.length_append]
      exact List.length_map _
    exact kept.trans (actions.le.trans (staked_single found staked classified))
  have logged : ∀ e ∈ seeds.actionMovementEdges, LoggedAt (logs ++ logs') e := by
    intro e member
    obtain ⟨source, -⟩ := mem_of_mem_mergeRows EdgeRow.edgeId member
    rcases List.mem_append.mp source with ofStake | ofPa
    · rw [isStake] at ofStake
      obtain ⟨log, inside, same⟩ := stakeEdge_logged found staked classified _ run e ofStake
      exact ⟨log, List.mem_append_left _ inside, same⟩
    · rw [isPa] at ofPa
      obtain ⟨log, inside, same⟩ := paEdge_logged found' synthesized _ run e ofPa
      exact ⟨log, List.mem_append_right _ inside, same⟩
  have chains : ∀ log ∈ logs ++ logs', log.chainId = 1 := fun log member =>
    (List.mem_append.mp member).elim (loadLogs_chain loaded log) (loadLogs_chain loaded' log)
  have txHash : ((intActionMovementRecon (seeds.actionMovementEdges.map seedEdge)).map
      ActionMovementReconRow.txHash).Nodup := by
    apply recon_txHash_nodup
    intro e member e' member' same
    obtain ⟨row, isRow, rfl⟩ := List.mem_map.mp member
    obtain ⟨row', isRow', rfl⟩ := List.mem_map.mp member'
    obtain ⟨log, inside, chain, number, tx⟩ := logged row isRow
    obtain ⟨log', inside', chain', number', tx'⟩ := logged row' isRow'
    have oneNumber := oneBlock logs logs' loaded loaded' log inside log' inside'
      (tx.symm.trans (Eq.trans same tx'))
    exact ⟨chain.trans ((chains log inside).trans (chain'.trans (chains log' inside')).symm),
      number.trans (oneNumber.trans number'.symm)⟩
  exact {
    actionId := by
      change ((intEconomicActions (seeds.economicActions.map seedAction) blocks).map _).Nodup
      apply nodup_of_length_le_one
      rw [intEconomicActions_eq, List.length_map]
      refine (List.length_filter_le _ _).trans ?_
      rwa [List.length_map]
    movementId := by
      change ((intTokenMovementRows seeds.tokenMovements).map _).Nodup
      rw [intTokenMovementRows, List.map_map]
      exact mergeRows_nodup _ stake.tokenMovements pa.tokenMovements
    txHash := txHash
    entryId := by
      change ((LedgerSource.visible ⟨seeds.ledgerEntries, blocks⟩).map _).Nodup
      rw [visible_eq]
      exact (mergeRows_nodup _ stake.ledgerEntries pa.ledgerEntries).sublist (List.filter_sublist.map _)
    eventId := by
      change ((stakingLinkFlows (seeds.economicActions.map seedAction) blocks
        (intActionMovementRecon (seeds.actionMovementEdges.map seedEdge))).map _).Nodup
      rw [stakingLinkFlows_eventIds _ _ _ txHash]
      apply nodup_of_length_le_one
      refine (List.length_filter_le _ _).trans ?_
      rwa [List.length_map, List.length_map]
    partitionId := by
      change ((reconciliationStatus sha256 (seeds.actionMovementEdges.map seedEdge) blocks).map _).Nodup
      apply nodup_of_length_le_one
      apply status_of_one_chain _ _ 1
      intro e member
      obtain ⟨row, isRow, rfl⟩ := List.mem_map.mp member
      obtain ⟨log, inside, chain, -⟩ := logged row isRow
      exact chain.trans (chains log inside) }

/-! ## Replays -/

/-- Whatever the runs are called, a replay of script and models changes the content of no model. -/
theorem seed_replays_keep_content (identifying : Identifying sha256) (stakeFixture paFixture : Fixture)
    (runIds : Nat → String) (first : SeedTables)
    (ran : seedUnder sha256 libs stakeFixture paFixture (runIds 0) = .ok first)
    (oneBlock : ∀ logs logs', loadLogs stakeFixture = .ok logs → loadLogs paFixture = .ok logs' →
      OneBlockEach (logs ++ logs')) (finalityDepth : Int) :
    ∃ tables : Nat → SeedTables, tables 0 = first ∧
      (∀ run, seedUnder sha256 libs stakeFixture paFixture (runIds run) = .ok (tables run)) ∧
      ∀ run, SameContent
        (warehouseAfter sha256 (fun run => dbtSeedSources finalityDepth (tables run)) run)
        (dbtRun sha256 none (dbtSeedSources finalityDepth first)) := by
  have again (run : Nat) : seedUnder sha256 libs stakeFixture paFixture (runIds run) =
      .ok (writtenBy (runIds run) first) := by
    rw [seedUnder_writtenBy identifying stakeFixture paFixture (runIds 0) (runIds run), ran]
    rfl
  have unchanged : writtenBy (runIds 0) first = first := Except.ok.inj ((again 0).symm.trans ran)
  refine ⟨fun run => writtenBy (runIds run) first, unchanged, again, fun run => ?_⟩
  have unique : UniqueTests (dbtRun sha256 none (dbtSeedSources finalityDepth first)) := by
    simp only [seedUnder, bind_eq_ok_iff] at ran
    obtain ⟨stake, stakeProcessed, pa, paProcessed, checked⟩ := ran
    rw [checkSeeds_merged identifying stakeProcessed paProcessed] at checked
    rw [← Except.ok.inj checked]
    exact seeds_unique stakeProcessed paProcessed oneBlock finalityDepth
  have start : dbtSeedSources finalityDepth (writtenBy (runIds 0) first) =
      dbtSeedSources finalityDepth first := congrArg _ unchanged
  have kept := content_kept sha256
    (fun run => dbtSeedSources finalityDepth (writtenBy (runIds run) first)) (fun run => by
      rw [start]
      exact writtenBy_sameSources finalityDepth (runIds run) first) (by
      rw [start]
      exact unique) run
  rwa [start] at kept

def runNames : Nat → String
  | 0 => seedRunPartitionId
  | run + 1 => "replay-" ++ toString run

theorem seed_replays_keep_content_oneStake :
    ∃ first, seedUnder prefixed seedLibs oneStake oneTransfer seedRunPartitionId = .ok first ∧
      ∃ tables : Nat → SeedTables, tables 0 = first ∧
        (∀ run, seedUnder prefixed seedLibs oneStake oneTransfer (runNames run) = .ok (tables run)) ∧
        ∀ run, SameContent (warehouseAfter prefixed (fun run => dbtSeedSources 0 (tables run)) run)
          (dbtRun prefixed none (dbtSeedSources 0 first)) := by
  obtain ⟨first, ran⟩ := oneStake_ran
  rw [seedMain_eq_seedUnder] at ran
  refine ⟨first, ran, seed_replays_keep_content prefixed_identifying oneStake oneTransfer runNames first ran ?_ 0⟩
  intro logs logs' loaded loaded'
  refine oneBlock_of_numbers 7 fun log member => ?_
  rcases List.mem_append.mp member with here | here
  · exact fixtureOf_number loaded log here
  · exact fixtureOf_number loaded' log here

end EconomicLedger.Seed
