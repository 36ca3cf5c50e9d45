import EconomicLedger.Marts.LedgerMerge
import EconomicLedger.Seed.Run
import EconomicLedger.Staging.CanonicalBlocks

/-!
# Tests on the seeds

The models that read the seeds, and the tests that run on them. The ledger stays balanced through any
number of incremental runs; the raw logs have no duplicates, and hold the log of every staged event.
-/

namespace EconomicLedger.Seed
open Model Ledger Text Fallible Keyed DoubleEntry Marts Staging Relational Rollup

variable {sha256 : Digest} {libs : ExternalLibs}

theorem seedMain_ok (identifying : Identifying sha256) {stakeFixture paFixture : Fixture} {seeds : SeedTables}
    (ran : seedMain sha256 libs stakeFixture paFixture = .ok seeds) :
    ∃ stake pa, processStakeFixture sha256 libs stakeFixture seedRunPartitionId = .ok stake ∧
      processPaFixture sha256 libs paFixture seedRunPartitionId = .ok pa ∧ seeds = mergeTables stake pa := by
  simp only [seedMain, bind_eq_ok_iff] at ran
  obtain ⟨stake, stakeProcessed, pa, paProcessed, checked⟩ := ran
  rw [checkSeeds_merged identifying stakeProcessed paProcessed, Except.ok.injEq] at checked
  exact ⟨stake, pa, stakeProcessed, paProcessed, checked.symm⟩

/-! ## The ledger -/

theorem ledger_of_run (identifying : Identifying sha256) {stakeFixture paFixture : Fixture}
    {seeds : SeedTables} (ran : seedMain sha256 libs stakeFixture paFixture = .ok seeds) :
    ∃ movements stakingActions paActions, seeds.ledgerEntries.map LedgerEntryRow.entry =
      stakeEntries sha256 movements stakingActions ++ paEntries sha256 paActions := by
  obtain ⟨stake, pa, stakeProcessed, paProcessed, rfl⟩ := seedMain_ok identifying ran
  obtain ⟨logs, recovered, side, block, stakedEvent, stakingActions, -, -, -, classified, -, rfl⟩ :=
    processStakeFixture_ok stakeProcessed
  obtain ⟨logs', recovered', side', block', paActions, -, -, synthesized, -, rfl⟩ :=
    processPaFixture_ok paProcessed
  exact ⟨side.movements, stakingActions, _, mergedEntries_eq identifying side.movements stakingActions
    (actionIds_of_one identifying.injective classified) paActions (fun action member nothing => by
      obtain ⟨debited, credited, amount, pair, -⟩ :=
        synthesized_booked (synthesized_of_mem synthesized action member)
      rw [pair] at nothing
      cases nothing) seedRunPartitionId⟩

/-- What a dbt run over the seeds reads. -/
def seedSource (finalityDepth : Int) (seeds : SeedTables) : LedgerSource :=
  ⟨seeds.ledgerEntries, canonicalView finalityDepth seeds.canonicalBlocks⟩

theorem ledgerIds_nodup (identifying : Identifying sha256) {stakeFixture paFixture : Fixture}
    {seeds : SeedTables} (ran : seedMain sha256 libs stakeFixture paFixture = .ok seeds) :
    (seeds.ledgerEntries.map (·.entry.entryId)).Nodup := by
  obtain ⟨stake, pa, -, -, rfl⟩ := seedMain_ok identifying ran
  exact mergeRows_nodup _ stake.ledgerEntries pa.ledgerEntries

/-- On the seeds `assert_ledger_balanced_per_tx` finds nothing after any number of runs. -/
theorem seeds_balanced_after_runs (identifying : Identifying sha256) (stakeFixture paFixture : Fixture)
    (seeds : SeedTables) (ran : seedMain sha256 libs stakeFixture paFixture = .ok seeds) (finalityDepth : Int)
    (runs : Nat) :
    assertLedgerBalancedPerTx
      (Marts.entriesOf (tableAfter (fun _ => seedSource finalityDepth seeds) runs)) = [] := by
  set source := seedSource finalityDepth seeds with isSource
  have visible : Marts.entriesOf source.visible = (Marts.entriesOf seeds.ledgerEntries).filter fun e =>
      source.blocks.rows.any fun cb => cb.chainId = e.chainId && cb.blockNumber = e.blockNumber := by
    rw [visible_eq, Marts.entriesOf, Marts.entriesOf, List.filter_map]
    rfl
  have distinct : DistinctEntries source := by
    have ids : (Marts.entriesOf seeds.ledgerEntries).map LedgerEntry.entryId =
        seeds.ledgerEntries.map (·.entry.entryId) := by
      rw [Marts.entriesOf, List.map_map]
      rfl
    rw [DistinctEntries, visible]
    exact (ids ▸ ledgerIds_nodup identifying ran).sublist (List.filter_sublist.map _)
  have whole := tableAfter_perm (fun _ => source) runs (fun _ _ => distinct) fun i _ =>
    ⟨fun le member => List.mem_map_of_mem member,
      fun le member unknown => absurd (List.mem_map_of_mem member) unknown⟩
  obtain ⟨movements, stakingActions, paActions, ledger⟩ := ledger_of_run identifying ran
  rw [assertLedgerBalancedPerTx_iff]
  intro group
  have total : groupNet (Marts.entriesOf (tableAfter (fun _ => source) runs)) group =
      groupNet (Marts.entriesOf source.visible) group := ((whole.filter _).map _).sum_eq
  rw [total, groupNet, visible, List.filter_filter, Marts.entriesOf, ledger]
  exact net_merged movements stakingActions paActions fun k => decide (k.1 = group) &&
    source.blocks.rows.any fun cb => cb.chainId = k.1.1 && cb.blockNumber = k.2

theorem seeds_balanced_after_runs_oneStake :
    ∃ seeds, seedMain prefixed seedLibs oneStake oneTransfer = .ok seeds ∧
      assertLedgerBalancedPerTx
        (Marts.entriesOf (tableAfter (fun _ => seedSource 0 seeds) 2)) = [] := by
  obtain ⟨seeds, ran⟩ := oneStake_ran
  exact ⟨seeds, ran, seeds_balanced_after_runs prefixed_identifying oneStake oneTransfer seeds ran 0 2⟩

/-! ## Raw logs -/

theorem seedLogs_unique (stake pa : SeedTables) :
    ((mergeTables stake pa).linkTransfers.map RawLogRow.position).Nodup := by
  rw [mergeTables, Dict.keys_index]
  exact Dict.keys_nodup _

theorem noDuplicates_of_unique (rows : List RawLogRow) (unique : (rows.map RawLogRow.position).Nodup)
    (blocks : CanonicalBlocks) : assertNoDuplicateCanonicalLogs rows blocks.rows = [] := by
  have single : ∀ rl ∈ rows, (blocks.rows.filter (onLogBlock rl)).length ≤ 1 := by
    intro rl _
    apply filter_length_le_one CanonicalBlock.height blocks.unique _ (rl.chainId, rl.blockNumber)
    intro cb here
    simp only [onLogBlock, Bool.and_eq_true, decide_eq_true_eq] at here
    exact Prod.ext here.1 here.2
  have joined : ((innerJoin onLogBlock rows blocks.rows).map fun pair => pair.1.position).Nodup := by
    have left := congrArg (List.map RawLogRow.position) (innerJoin_left onLogBlock single)
    rw [List.map_map] at left
    exact left ▸ unique.sublist (List.filter_sublist.map _)
  rw [assertNoDuplicateCanonicalLogs, List.filter_eq_nil_iff, forall_groupRows_iff]
  intro pair _ many
  have one : ((innerJoin onLogBlock rows blocks.rows).filter fun other =>
      other.1.identity = pair.1.identity).length ≤ 1 := by
    apply filter_length_le_one (fun other => other.1.position) joined _ pair.1.position
    intro other same
    exact congrArg Prod.snd (of_decide_eq_true same)
  have found := of_decide_eq_true many
  simp only [logOccurrences] at found
  omega

theorem rawLogs_position (rows : List RawLogRow) :
    (rawLogs rows).map RawLogRow.position = rows.map RawLogRow.position := by
  rw [rawLogs, List.map_map]
  rfl

/-! ## Staged events -/

/-- A transaction is in one block. -/
def OneBlockEach (logs : List RawLog) : Prop :=
  ∀ log ∈ logs, ∀ log' ∈ logs, lower log.txHash = lower log'.txHash → log.blockNumber = log'.blockNumber

theorem loadLogs_chain {fixture : Fixture} {logs : List RawLog} (loaded : loadLogs fixture = .ok logs)
    (log : RawLog) (member : log ∈ logs) : log.chainId = 1 := by
  obtain ⟨json, -, read⟩ := exists_of_mem_mapM loadLog loaded log member
  simp only [loadLog, bind_eq_ok_iff, pure_eq_ok_iff] at read
  obtain ⟨_, -, _, -, _, -, rfl⟩ := read
  rfl

/-- The log of a decoded event is among the raw logs of its fixture. -/
theorem sharedTables_logged {watch : WatchedEvent} {logs : List RawLog} {recovered : List RecoveredEvent}
    (found : recoverEvents sha256 libs watch logs = .ok recovered) (side : TokenSide) (block : BlockRow)
    (runPartitionId : String) (de : DecodedEventRow)
    (member : de ∈ (sharedTables logs recovered side block runPartitionId).decodedEvents) :
    ∃ log ∈ logs, rawLogRow log runPartitionId ∈
        (sharedTables logs recovered side block runPartitionId).linkTransfers ∧
      de.chainId = log.chainId ∧ de.blockNumber = log.blockNumber ∧ de.txHash = lower log.txHash ∧
      de.logIndex = log.logIndex := by
  obtain ⟨r, isEvent, rfl⟩ := List.mem_map.mp member
  obtain ⟨log, inside, source⟩ := recoverEvents_from found r isEvent
  have at_ := recoveredFrom_position source
  have tx : lower r.event.txHash = lower log.txHash := by rw [at_.txHash, lower_lower]
  refine ⟨log, inside, ?_, at_.chainId, at_.blockNumber, tx, at_.logIndex⟩
  refine List.mem_map.mpr ⟨log, List.mem_filter.mpr ⟨inside, ?_⟩, rfl⟩
  refine decide_eq_true (Or.inr (List.mem_map.mpr ⟨_, List.mem_map_of_mem isEvent, ?_⟩))
  exact Prod.ext tx at_.logIndex

theorem mem_linkTransfers_source {logs : List RawLog} {recovered : List RecoveredEvent} (side : TokenSide)
    (block : BlockRow) {runPartitionId : String} {row : RawLogRow}
    (member : row ∈ (sharedTables logs recovered side block runPartitionId).linkTransfers) :
    ∃ log ∈ logs, row = rawLogRow log runPartitionId := by
  obtain ⟨log, inside, rfl⟩ := List.mem_map.mp member
  exact ⟨log, (List.mem_filter.mp inside).1, rfl⟩

theorem leftJoin_unmatched {α β : Type*} (on : α → β → Bool) {left : List α} {right : List β} {a : α}
    (member : (a, none) ∈ leftJoin on left right) : a ∈ left ∧ ∀ b ∈ right, on a b = false := by
  rw [leftJoin_eq, List.mem_flatMap] at member
  obtain ⟨a', inside, here⟩ := member
  obtain ⟨o, partner, same⟩ := List.mem_map.mp here
  obtain ⟨rfl, rfl⟩ := Prod.mk.inj same
  refine ⟨inside, fun b isRow => ?_⟩
  unfold partners at partner
  split at partner
  next nothing =>
    have absent := List.filter_eq_nil_iff.mp nothing b isRow
    simpa using absent
  next => simp at partner

/-- No staged event is an orphan and no canonical log is there twice. -/
theorem seed_logs_pass_tests (identifying : Identifying sha256) (stakeFixture paFixture : Fixture)
    (seeds : SeedTables) (ran : seedMain sha256 libs stakeFixture paFixture = .ok seeds)
    (oneBlock : ∀ logs logs', loadLogs stakeFixture = .ok logs → loadLogs paFixture = .ok logs' →
      OneBlockEach (logs ++ logs')) (finalityDepth : Int) :
    assertNoOrphanDecodedEvents
        (stgStakingEvents seeds.decodedEvents (stgCanonicalBlocks finalityDepth seeds.canonicalBlocks))
        (rawLogs seeds.linkTransfers) = [] ∧
      assertNoDuplicateCanonicalLogs (rawLogs seeds.linkTransfers)
        (stgCanonicalBlocks finalityDepth seeds.canonicalBlocks) = [] := by
  obtain ⟨stake, pa, stakeProcessed, paProcessed, rfl⟩ := seedMain_ok identifying ran
  obtain ⟨logs, recovered, side, block, stakedEvent, stakingActions, loaded, found, -, -, -, isStake⟩ :=
    processStakeFixture_ok stakeProcessed
  obtain ⟨logs', recovered', side', block', paActions, loaded', found', -, -, isPa⟩ :=
    processPaFixture_ok paProcessed
  have unique := seedLogs_unique stake pa
  refine ⟨?_, noDuplicates_of_unique _ (by rwa [rawLogs_position])
    (canonicalView finalityDepth (mergeTables stake pa).canonicalBlocks)⟩
  rw [assertNoOrphanDecodedEvents, List.map_eq_nil_iff, List.filter_eq_nil_iff]
  rintro ⟨staged, partner⟩ member missing
  obtain rfl := Option.isNone_iff_eq_none.mp missing
  obtain ⟨isStaged, unmatched⟩ := leftJoin_unmatched onDecodedLog member
  obtain ⟨⟨de, cb⟩, joined, rfl⟩ := List.mem_map.mp isStaged
  have inSeeds : de ∈ (mergeTables stake pa).decodedEvents :=
    ((mem_innerJoin onEventBlock).mp (List.mem_filter.mp joined).1).1
  obtain ⟨source, -⟩ := mem_of_mem_mergeRows _ inSeeds
  have logged : ∃ log ∈ logs ++ logs', rawLogRow log seedRunPartitionId ∈
      stake.linkTransfers ++ pa.linkTransfers ∧ de.chainId = log.chainId ∧
        de.blockNumber = log.blockNumber ∧ de.txHash = lower log.txHash ∧ de.logIndex = log.logIndex := by
    rcases List.mem_append.mp source with ofStake | ofPa
    · rw [isStake] at ofStake
      obtain ⟨log, inside, row, same⟩ := sharedTables_logged found side block seedRunPartitionId de ofStake
      exact ⟨log, List.mem_append_left _ inside, List.mem_append_left _ (isStake ▸ row), same⟩
    · rw [isPa] at ofPa
      obtain ⟨log, inside, row, same⟩ := sharedTables_logged found' side' block' seedRunPartitionId de ofPa
      exact ⟨log, List.mem_append_right _ inside, List.mem_append_right _ (isPa ▸ row), same⟩
  obtain ⟨log, inside, row, chain, number, tx, index⟩ := logged
  -- the row kept under the position of the log comes from a log of the same transaction
  obtain ⟨kept, isKept, here⟩ : ∃ kept ∈ (mergeTables stake pa).linkTransfers,
      kept.position = (rawLogRow log seedRunPartitionId).position := by
    have present : (rawLogRow log seedRunPartitionId).position ∈
        (Dict.index RawLogRow.position (stake.linkTransfers ++ pa.linkTransfers)).keys := by
      rw [Dict.index, Dict.mem_keys_gather]
      exact Or.inr (List.mem_map_of_mem row)
    rw [← Dict.keys_index] at present
    exact List.mem_map.mp present
  have keptSource : ∃ log' ∈ logs ++ logs', kept = rawLogRow log' seedRunPartitionId := by
    rcases List.mem_append.mp (Dict.mem_of_mem_index _ _ _ isKept) with ofStake | ofPa
    · rw [isStake] at ofStake
      obtain ⟨log', inside', same⟩ := mem_linkTransfers_source side block ofStake
      exact ⟨log', List.mem_append_left _ inside', same⟩
    · rw [isPa] at ofPa
      obtain ⟨log', inside', same⟩ := mem_linkTransfers_source side' block' ofPa
      exact ⟨log', List.mem_append_right _ inside', same⟩
  obtain ⟨log', inside', rfl⟩ := keptSource
  obtain ⟨sameTx, sameIndex⟩ := Prod.mk.inj here
  have sameBlock := oneBlock logs logs' loaded loaded' log' inside' log inside sameTx
  have chains : ∀ l ∈ logs ++ logs', l.chainId = 1 := fun l member =>
    (List.mem_append.mp member).elim (loadLogs_chain loaded l) (loadLogs_chain loaded' l)
  have matched := unmatched _ (List.mem_map_of_mem isKept)
  have onLog : onDecodedLog { de with contractAddress := lower de.contractAddress }
      { rawLogRow log' seedRunPartitionId with
        address := lower (rawLogRow log' seedRunPartitionId).address } = true := by
    simp only [onDecodedLog, Bool.and_eq_true, decide_eq_true_eq]
    refine ⟨⟨⟨?_, ?_⟩, ?_⟩, ?_⟩
    · exact (chains log' inside').trans (chain.trans (chains log inside)).symm
    · exact sameBlock.trans number.symm
    · exact sameTx.trans tx.symm
    · exact sameIndex.trans index.symm
  rw [onLog] at matched
  cases matched

theorem oneBlock_of_numbers {logs : List RawLog} (blockNumber : Int)
    (numbers : ∀ log ∈ logs, log.blockNumber = blockNumber) : OneBlockEach logs :=
  fun log member log' member' _ => (numbers log member).trans (numbers log' member').symm

theorem fixtureOf_number {txHash address data : String} {topics : List String} {logs : List RawLog}
    (loaded : loadLogs (fixtureOf txHash (seedLog txHash address topics data)) = .ok logs)
    (log : RawLog) (member : log ∈ logs) : log.blockNumber = 7 := by
  obtain ⟨json, isLog, read⟩ := exists_of_mem_mapM loadLog loaded log member
  obtain rfl := List.mem_singleton.mp isLog
  simp only [loadLog, bind_eq_ok_iff, pure_eq_ok_iff] at read
  obtain ⟨number, parsed, _, -, _, -, rfl⟩ := read
  have seven : intBase16 "0x7" = .ok 7 := by decide
  exact (Except.ok.inj (parsed.symm.trans seven))

theorem seed_logs_pass_tests_oneStake :
    ∃ seeds, seedMain prefixed seedLibs oneStake oneTransfer = .ok seeds ∧
      assertNoOrphanDecodedEvents
          (stgStakingEvents seeds.decodedEvents (stgCanonicalBlocks 0 seeds.canonicalBlocks))
          (rawLogs seeds.linkTransfers) = [] ∧
        assertNoDuplicateCanonicalLogs (rawLogs seeds.linkTransfers)
          (stgCanonicalBlocks 0 seeds.canonicalBlocks) = [] := by
  obtain ⟨seeds, ran⟩ := oneStake_ran
  refine ⟨seeds, ran, seed_logs_pass_tests prefixed_identifying oneStake oneTransfer seeds ran ?_ 0⟩
  intro logs logs' loaded loaded'
  refine oneBlock_of_numbers 7 fun log member => ?_
  rcases List.mem_append.mp member with here | here
  · exact fixtureOf_number loaded log here
  · exact fixtureOf_number loaded' log here

end EconomicLedger.Seed
