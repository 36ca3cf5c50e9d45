import EconomicLedger.Decode.EmittedLogs
import EconomicLedger.Decode.Words
import EconomicLedger.Matching.Settlement
import EconomicLedger.Seed.Merge
import EconomicLedger.Seed.Processes

/-!
# Runs of the seed script

Whatever fixtures the script decodes, both of its checks pass on the merged tables: every edge names an
action the seeds hold, and every transaction of the merged ledger is balanced.
-/

namespace EconomicLedger.Seed
open Model Ledger Text Fallible Keyed DoubleEntry Matching Decode

/-- What identifiers rely on from the digest. -/
structure Identifying (sha256 : Digest) : Prop where
  injective : Function.Injective sha256
  named : ∀ text, sha256 text ≠ ""

variable {sha256 : Digest} {libs : ExternalLibs}

/-! ## The merged ledger -/

def stakeEntries (sha256 : Digest) (movements : List TokenMovement) (actions : List EconomicAction) :
    List LedgerEntry :=
  actions.flatMap fun action => (buildLedgerEntries sha256 action movements).map loweredEntry

def paEntries (sha256 : Digest) (actions : List PAEconomicAction) : List LedgerEntry :=
  actions.flatMap fun action => (buildPaLedgerEntries sha256 action).map loweredEntry

theorem entryId_lowered (entries : List LedgerEntry) :
    (entries.map loweredEntry).map LedgerEntry.entryId = entries.map LedgerEntry.entryId := by
  rw [List.map_map]
  rfl

theorem stakeEntries_identified (sha256 : Digest) (movements : List TokenMovement) :
    IdentifiesEntries sha256 "ledger_entry" EconomicAction.actionId
      fun action => (buildLedgerEntries sha256 action movements).map loweredEntry := by
  intro action
  simpa only [entryId_lowered] using ledgerEntries_identified sha256 (fun _ => movements) action

theorem paEntries_identified (sha256 : Digest) :
    IdentifiesEntries sha256 "pa_ledger_entry" PAEconomicAction.actionId
      fun action => (buildPaLedgerEntries sha256 action).map loweredEntry := by
  intro action
  simpa only [entryId_lowered] using paLedgerEntries_identified sha256 action

theorem ledgerRows_entries {α : Type} (actions : List α) (book : α → List LedgerEntry)
    (runPartitionId : String) :
    (actions.flatMap fun action => (book action).map (ledgerRow · runPartitionId)).map LedgerEntryRow.entry =
      actions.flatMap fun action => (book action).map loweredEntry := by
  rw [List.map_flatMap]
  exact List.flatMap_congr fun action _ => entries_rows (book action) runPartitionId

theorem stake_and_pa_apart (injective : Function.Injective sha256) (movements : List TokenMovement)
    (stakingActions : List EconomicAction) (paActions : List PAEconomicAction) :
    List.Disjoint ((stakeEntries sha256 movements stakingActions).map LedgerEntry.entryId)
      ((paEntries sha256 paActions).map LedgerEntry.entryId) :=
  disjoint_tags injective (by decide) (by decide) (by decide)
    (entryIds_tagged (stakeEntries_identified sha256 movements) stakingActions)
    (entryIds_tagged (paEntries_identified sha256) paActions)

/-- The merged ledger: all entries of the stake, and those of the first PA action under every id. -/
theorem mergedEntries_eq (identifying : Identifying sha256) (movements : List TokenMovement)
    (stakingActions : List EconomicAction) (distinct : (stakingActions.map EconomicAction.actionId).Nodup)
    (paActions : List PAEconomicAction)
    (booked : ∀ action ∈ paActions, buildPaLedgerEntries sha256 action ≠ []) (runPartitionId : String) :
    (mergeRows (·.entry.entryId)
        (stakingActions.flatMap fun action =>
          (buildLedgerEntries sha256 action movements).map (ledgerRow · runPartitionId))
        (paActions.flatMap fun action =>
          (buildPaLedgerEntries sha256 action).map (paLedgerRow · runPartitionId))).map LedgerEntryRow.entry =
      stakeEntries sha256 movements stakingActions ++
        paEntries sha256 (firstByKey PAEconomicAction.actionId paActions) := by
  set stake := stakingActions.flatMap fun action =>
    (buildLedgerEntries sha256 action movements).map (ledgerRow · runPartitionId) with stakeRows
  set pa := paActions.flatMap fun action =>
    (buildPaLedgerEntries sha256 action).map (paLedgerRow · runPartitionId) with paRows
  have entries : (stake ++ pa).map LedgerEntryRow.entry =
      stakeEntries sha256 movements stakingActions ++ paEntries sha256 paActions := by
    rw [List.map_append, stakeRows, ledgerRows_entries, paRows]
    exact congrArg _ (ledgerRows_entries paActions (buildPaLedgerEntries sha256) runPartitionId)
  have named : ∀ row ∈ stake ++ pa, row.entry.entryId ≠ "" := by
    have tagged : ∀ id ∈ ((stake ++ pa).map LedgerEntryRow.entry).map LedgerEntry.entryId,
        ∃ tag body, TaggedBy sha256 tag body id := by
      rw [entries, List.map_append]
      intro id member
      rcases List.mem_append.mp member with here | here
      · exact ⟨_, entryIds_tagged (stakeEntries_identified sha256 movements) stakingActions id here⟩
      · exact ⟨_, entryIds_tagged (paEntries_identified sha256) paActions id here⟩
    intro row member
    obtain ⟨tag, body, suffix, -, same⟩ :=
      tagged _ (List.mem_map_of_mem (List.mem_map_of_mem (f := LedgerEntryRow.entry) member))
    rw [same]
    exact identifying.named _
  have stakeDistinct : ((stakeEntries sha256 movements stakingActions).map LedgerEntry.entryId).Nodup :=
    entryIds_nodup identifying.injective (by decide) (stakeEntries_identified sha256 movements) _ distinct
  have paUnseen : unseen LedgerEntry.entryId (stakeEntries sha256 movements stakingActions)
      (paEntries sha256 paActions) = paEntries sha256 paActions := by
    rw [unseen, List.filter_eq_self]
    intro e member
    exact decide_eq_true fun here => stake_and_pa_apart identifying.injective movements stakingActions
      paActions here (List.mem_map_of_mem member)
  have kept : firstByKey LedgerEntry.entryId (paEntries sha256 paActions) =
      paEntries sha256 (firstByKey PAEconomicAction.actionId paActions) :=
    firstByKey_booked identifying.injective (by decide) (paEntries_identified sha256) paActions
      fun action member nothing => booked action member (List.map_eq_nil_iff.mp nothing)
  rw [mergeRows_named _ _ _ named, ← firstByKey_map LedgerEntry.entryId LedgerEntryRow.entry, entries,
    firstByKey_append, firstByKey_of_nodup _ _ stakeDistinct, paUnseen, kept]

theorem net_merged (movements : List TokenMovement) (stakingActions : List EconomicAction)
    (paActions : List PAEconomicAction) (p : (Int × String) × Int → Bool) :
    net signedAmount ((stakeEntries sha256 movements stakingActions ++ paEntries sha256 paActions).filter
      fun e => p (position e)) = 0 := by
  apply net_filter_of_each signedAmount position
  intro k
  rw [List.filter_append, net_append]
  have stake := net_position _ (stake_posting sha256 movements) stakingActions k
  have pa := net_position _ (pa_posting sha256) paActions k
  exact (congrArg₂ (· + ·) stake pa).trans (add_zero 0)

/-! ## Edges -/

theorem paEdgeRows_owned (action : PAEconomicAction) (movements : List TokenMovement) (runPartitionId : String)
    (row : EdgeRow) (member : row ∈ paEdgeRows sha256 action movements runPartitionId) :
    row.actionId = action.actionId := by
  unfold paEdgeRows at member
  split_ifs at member
  · rw [List.mem_singleton.mp member]
    rfl
  · split at member
    · rw [List.mem_singleton.mp member]
      rfl
    · rw [List.mem_singleton.mp member]
      rfl

theorem stakeEdge_owned (action : EconomicAction) (movements : List TokenMovement) (runPartitionId : String)
    (named : action.actionId ≠ "") (row : EdgeRow)
    (member : row ∈ (matchActionToMovements sha256 action movements).map (edgeRow · action runPartitionId)) :
    row.actionId = action.actionId := by
  obtain ⟨edge, inside, rfl⟩ := List.mem_map.mp member
  change orText edge.actionId "" = _
  rw [(matchActionToMovements_matched sha256 action movements).owned edge inside]
  exact if_neg named

theorem actionId_named (identifying : Identifying sha256) {ev : DecodedEvent} {actions : List EconomicAction}
    (classified : classifyEventAsAction sha256 ev stubContractRegistry = .ok actions)
    (action : EconomicAction) (member : action ∈ actions) : action.actionId ≠ "" := by
  have produced : action ∈ results (classifyEventAsAction sha256 ev stubContractRegistry) := by
    rwa [classified]
  obtain ⟨suffix, -, same⟩ := actionId_tagged sha256 stubContractRegistry ev action produced
  rw [same]
  exact identifying.named _

theorem actionIds_of_one (injective : Function.Injective sha256) {ev : DecodedEvent}
    {actions : List EconomicAction}
    (classified : classifyEventAsAction sha256 ev stubContractRegistry = .ok actions) :
    (actions.map EconomicAction.actionId).Nodup := by
  apply actionIds_nodup sha256 stubContractRegistry injective [ev] (List.nodup_singleton _) actions
  rw [economicActions, flatMapM, classified]
  simp [flatMapM, ok_bind, pure, Except.pure]

/-! ## Both checks -/

theorem checkSeeds_merged (identifying : Identifying sha256) {stakeFixture paFixture : Fixture}
    {runPartitionId : String} {stake pa : SeedTables}
    (stakeProcessed : processStakeFixture sha256 libs stakeFixture runPartitionId = .ok stake)
    (paProcessed : processPaFixture sha256 libs paFixture runPartitionId = .ok pa) :
    checkSeeds (mergeTables stake pa) = .ok (mergeTables stake pa) := by
  obtain ⟨logs, recovered, side, block, stakedEvent, stakingActions, -, -, -, classified, -, rfl⟩ :=
    processStakeFixture_ok stakeProcessed
  obtain ⟨logs', recovered', side', block', paActions, -, -, synthesized, -, rfl⟩ :=
    processPaFixture_ok paProcessed
  have pairs : ∀ action ∈ paActions, ∃ debited credited amount, buildPaLedgerEntries sha256 action =
      bookPair (makePaEntry sha256 action) debited credited amount ∧
        (paAccountLabels.any fun label => startsWith credited label) = true :=
    fun action member => synthesized_booked (synthesized_of_mem synthesized action member)
  have ledger := mergedEntries_eq identifying side.movements stakingActions
    (actionIds_of_one identifying.injective classified) paActions (fun action member nothing => by
      obtain ⟨debited, credited, amount, pair, -⟩ := pairs action member
      rw [pair] at nothing
      cases nothing) runPartitionId
  set seeds := mergeTables (stakeTables sha256 logs recovered side block stakingActions runPartitionId)
    (paTables sha256 logs' recovered' side' block' paActions runPartitionId) with merged
  have balanced : imbalance seeds.ledgerEntries = none := by
    rw [imbalance_eq_none_iff]
    intro txHash
    rw [show seeds.ledgerEntries.map LedgerEntryRow.entry = _ from ledger]
    exact net_merged side.movements stakingActions _ fun k => k.1.2 = txHash
  have known : unknownEdge seeds = none := by
    rw [unknownEdge, List.find?_eq_none]
    intro e member
    suffices inside : e.actionId ∈ knownActionIds seeds by simp [inside]
    rw [knownActionIds, List.mem_append]
    obtain ⟨source, -⟩ := mem_of_mem_mergeRows EdgeRow.edgeId member
    rcases List.mem_append.mp source with ofStake | ofPa
    · obtain ⟨action, isAction, row⟩ := List.mem_flatMap.mp ofStake
      have named := actionId_named identifying classified action isAction
      rw [stakeEdge_owned action side.movements runPartitionId named e row]
      refine Or.inl ((mem_keys_mergeRows (fun row : EconomicActionRow => row.action.actionId) _ _ _).mpr ⟨named, ?_⟩)
      exact List.mem_map.mpr ⟨stakingActionRow action runPartitionId,
        List.mem_append_left _ (List.mem_map_of_mem isAction), rfl⟩
    · obtain ⟨action, isAction, row⟩ := List.mem_flatMap.mp ofPa
      rw [paEdgeRows_owned action side'.movements runPartitionId e row]
      -- the first action under the id has its entries in the ledger
      obtain ⟨first, isFirst, same⟩ := List.mem_map.mp
        ((mem_keys_firstByKey PAEconomicAction.actionId paActions action.actionId).mpr
          (List.mem_map_of_mem isAction))
      obtain ⟨debited, credited, amount, pair, label⟩ :=
        pairs first ((firstByKey_sublist _ _).subset isFirst)
      have entry : loweredEntry (makePaEntry sha256 first 1 credited .credit amount) ∈
          seeds.ledgerEntries.map LedgerEntryRow.entry := by
        rw [show seeds.ledgerEntries.map LedgerEntryRow.entry = _ from ledger]
        refine List.mem_append_right _ (List.mem_flatMap.mpr ⟨first, isFirst, ?_⟩)
        rw [pair]
        exact List.mem_map_of_mem (List.mem_cons_of_mem _ List.mem_cons_self)
      obtain ⟨ledgerRow, inLedger, isEntry⟩ := List.mem_map.mp entry
      refine Or.inr (List.mem_map.mpr ⟨ledgerRow, List.mem_filter.mpr ⟨inLedger, ?_⟩, ?_⟩)
      · rw [isEntry]
        exact label
      · rw [isEntry]
        exact same
  rw [checkSeeds, known, balanced]

/-- The script fails only where one of the fixtures does not decode. -/
theorem seedMain_eq (identifying : Identifying sha256) (stakeFixture paFixture : Fixture) :
    seedMain sha256 libs stakeFixture paFixture = (do
      let stake ← processStakeFixture sha256 libs stakeFixture seedRunPartitionId
      let pa ← processPaFixture sha256 libs paFixture seedRunPartitionId
      return mergeTables stake pa) := by
  unfold seedMain
  cases stakeProcessed : processStakeFixture sha256 libs stakeFixture seedRunPartitionId with
  | error failure => rfl
  | ok stake =>
      cases paProcessed : processPaFixture sha256 libs paFixture seedRunPartitionId with
      | error failure => rfl
      | ok pa => exact checkSeeds_merged identifying stakeProcessed paProcessed

/-! ### A stake, and a transfer to the reserves -/

def prefixed : Digest := fun text => "0x" ++ text

theorem prefixed_identifying : Identifying prefixed where
  injective := fun text text' same => (String.append_right_inj "0x").mp same
  named := fun text empty => by
    have lengths := congrArg String.length empty
    rw [prefixed, String.length_append] at lengths
    exact absurd lengths (by simp)

def seedDigest (text : String) : String :=
  if text = "Transfer(address,address,uint256)" then
    "ddf252ad1be2c89b69c2b068fc378daa952ba7f163c4a11628f55a4df523b3ef"
  else if text = "Staked(address,uint256,uint256,uint256)" then
    "b4caaf29adda3eefee3ad552a8e85058589bf834c7466cae4ee58787f70589ed"
  else ""

def seedLibs : ExternalLibs := ⟨Decode.wordDecode, seedDigest⟩

def noCalls : CallTracerNode :=
  .node (Dict.ofList [("from", .str "0x1111111111111111111111111111111111111111")]) none

def seedLog (txHash address : String) (topics : List String) (data : String) : LogJson :=
  { blockNumber := "0x7"
    blockHash := "0xb7"
    transactionHash := txHash
    transactionIndex := "0x0"
    logIndex := "0x0"
    address := address
    topics := topics
    data := data }

def fixtureOf (txHash : String) (log : LogJson) : Fixture :=
  { tx := ⟨txHash, "0x7", "0xb7"⟩
    block := ⟨none, "0xb6", "0x64"⟩
    receipt := ⟨txHash, "0x0", "0x7", "0x1", "0x5208", none, "0x5208"⟩
    logs := [log]
    trace := noCalls }

def seedRawLog (txHash address : String) (topics : List String) (data : String) : RawLog :=
  { chainId := 1
    blockNumber := 7
    blockHash := "0xb7"
    txHash := txHash
    txIndex := 0
    logIndex := 0
    address := lower address
    topics := topics
    data := data }

theorem loadLogs_fixtureOf (txHash address : String) (topics : List String) (data : String) :
    loadLogs (fixtureOf txHash (seedLog txHash address topics data)) =
      .ok [seedRawLog txHash address topics data] := by
  have seven : intBase16 "0x7" = .ok 7 := by decide
  have zero : intBase16 "0x0" = .ok 0 := by decide
  simp only [loadLogs, fixtureOf, List.mapM_cons, List.mapM_nil, loadLog, seedLog, seven, zero]
  rfl

theorem recoverEvent_watched {watch : WatchedEvent} {log : RawLog} {ev : DecodedEvent}
    (other : lower log.address ≠ linkTokenAddress) (own : lower log.address = watch.contract)
    (signed : log.topics.head?.map lower = some watch.topic0)
    (decodes : DecodesTo sha256 libs log watch.abi ev) :
    recoverEvents sha256 libs watch [log] = .ok [.watched ev] := by
  have decoded := ((decodeLog_success_iff sha256 libs log watch.abi _).mpr ⟨ev, decodes, rfl⟩).1
  simp only [recoverEvents, flatMapM, recoverEvent, if_neg other, if_pos (And.intro own signed), decoded]
  rfl

theorem recoverEvent_link {watch : WatchedEvent} {log : RawLog} {ev : DecodedEvent}
    (onLink : lower log.address = linkTokenAddress) (decodes : DecodesTo sha256 libs log erc20TransferAbi ev) :
    recoverEvents sha256 libs watch [log] = .ok [.linkTransfer ev] := by
  have decoded := ((decodeLog_success_iff sha256 libs log erc20TransferAbi _).mpr ⟨ev, decodes, rfl⟩).1
  simp only [recoverEvents, flatMapM, recoverEvent, if_pos onLink, decoded]
  rfl

def payer : List UInt8 := List.replicate 20 17

def stakeOfSeven : EmittedEvent :=
  { name := "Staked"
    anonymous := false
    args := [addressArg "staker" true payer, amountArg "amount" 7, amountArg "newPrincipal" 7,
      amountArg "totalPoolPrincipal" 7] }

def reserves : List UInt8 :=
  [0x56, 0x80, 0x68, 0x1e, 0xd3, 0x76, 0x7b, 0x96, 0x91, 0x4c, 0xe7, 0x41, 0xa3, 0x08, 0x15, 0x5c, 0x7f, 0xb9,
    0x17, 0x1d]

def transferOfSeven (receiver : List UInt8) : EmittedEvent :=
  { name := "Transfer"
    anonymous := false
    args := [addressArg "from" true payer, addressArg "to" true receiver, amountArg "value" 7] }

theorem stakeOfSeven_words : OfWords stakeOfSeven := by
  refine ⟨rfl, fun a member => ?_⟩
  simp only [stakeOfSeven, List.mem_cons, List.not_mem_nil, or_false] at member
  rcases member with rfl | rfl | rfl | rfl
  · exact .address _ _ _ rfl
  · exact .amount _ _ (by decide)
  · exact .amount _ _ (by decide)
  · exact .amount _ _ (by decide)

theorem transferOfSeven_words (receiver : List UInt8) (size : receiver.length = 20) :
    OfWords (transferOfSeven receiver) := by
  refine ⟨rfl, fun a member => ?_⟩
  simp only [transferOfSeven, List.mem_cons, List.not_mem_nil, or_false] at member
  rcases member with rfl | rfl | rfl
  · exact .address _ _ _ rfl
  · exact .address _ _ _ size
  · exact .amount _ _ (by decide)

theorem onlyStaked : OnlyEvent stakingPoolAbi stakeOfSeven := by
  have amount : (AbiType.uint 256).jsonType = "uint256" := by decide
  simp only [OnlyEvent, stakingPoolAbi, eventEntry, EmittedEvent.entry, stakeOfSeven, List.map_cons,
    List.map_nil, addressArg, amountArg, AbiType.input, amount]
  rfl

theorem onlyTransfer (receiver : List UInt8) : OnlyEvent erc20TransferAbi (transferOfSeven receiver) := by
  have amount : (AbiType.uint 256).jsonType = "uint256" := by decide
  simp only [OnlyEvent, erc20TransferAbi, eventEntry, EmittedEvent.entry, transferOfSeven, List.map_cons,
    List.map_nil, addressArg, amountArg, AbiType.input, amount]
  rfl

def oneStake : Fixture :=
  fixtureOf "0xA1" (seedLog "0xA1" communityPool (eventTopics seedLibs stakeOfSeven) (eventData stakeOfSeven))

def oneTransfer : Fixture :=
  fixtureOf "0xA2" (seedLog "0xA2" linkTokenAddress (eventTopics seedLibs (transferOfSeven reserves))
    (eventData (transferOfSeven reserves)))

def succeeded {ε α : Type} : Except ε α → Bool
  | .error _ => false
  | .ok _ => true

theorem exists_of_succeeded {ε α : Type} {x : Except ε α} (done : succeeded x = true) : ∃ a, x = .ok a := by
  cases x with
  | error e => cases done
  | ok a => exact ⟨a, rfl⟩

theorem exists_of_bind_succeeded {ε α β : Type} {x : Except ε α} {f : α → Except ε β}
    (done : succeeded (x >>= f) = true) : ∃ a b, x = .ok a ∧ f a = .ok b := by
  cases x with
  | error e => cases done
  | ok a =>
      obtain ⟨b, next⟩ := exists_of_succeeded done
      exact ⟨a, b, rfl, next⟩

theorem loadReceipt_fixtureOf (txHash : String) (log : LogJson) :
    loadReceipt (fixtureOf txHash log).receipt = .ok { txHash := txHash, status := 1 } := by
  have seven : intBase16 "0x7" = .ok 7 := by decide
  have zero : intBase16 "0x0" = .ok 0 := by decide
  have one : intBase16 "0x1" = .ok 1 := by decide
  have gas : intBase16 "0x5208" = .ok 21000 := by decide
  simp only [loadReceipt, fixtureOf, seven, zero, one, gas]
  rfl

def stakeEvent : DecodedEvent :=
  eventOf prefixed (seedRawLog "0xA1" communityPool (eventTopics seedLibs stakeOfSeven) (eventData stakeOfSeven))
    stakeOfSeven.entry (plainParams stakeOfSeven.indexedArgs) (plainParams stakeOfSeven.dataArgs)

theorem oneStake_recovered : recoverEvents prefixed seedLibs stakedWatch
    [seedRawLog "0xA1" communityPool (eventTopics seedLibs stakeOfSeven) (eventData stakeOfSeven)] =
      .ok [.watched stakeEvent] :=
  recoverEvent_watched (by decide +kernel) (by decide +kernel) (by decide +kernel)
    (emitted_decodes prefixed seedDigest onlyStaked stakeOfSeven_words _ rfl rfl)

theorem oneStake_processed :
    ∃ stake, processStakeFixture prefixed seedLibs oneStake seedRunPartitionId = .ok stake := by
  obtain ⟨rootTrace, side, traced, sided⟩ := exists_of_bind_succeeded (x := loadTrace oneStake)
    (f := fun t => tokenSide prefixed seedLibs t { txHash := "0xA1", status := 1 } []) (by decide +kernel)
  obtain ⟨actions, classified⟩ := exists_of_succeeded
    (x := classifyEventAsAction prefixed stakeEvent stubContractRegistry) (by decide +kernel)
  obtain ⟨block, row⟩ := exists_of_succeeded
    (x := canonicalBlockRow oneStake.tx oneStake.block seedRunPartitionId) (by decide +kernel)
  exact ⟨_, processStakeFixture_of (loadReceipt_fixtureOf "0xA1" _) (loadLogs_fixtureOf "0xA1" communityPool _ _)
    traced oneStake_recovered rfl sided classified row⟩

def transferEvent : DecodedEvent :=
  eventOf prefixed (seedRawLog "0xA2" linkTokenAddress (eventTopics seedLibs (transferOfSeven reserves))
    (eventData (transferOfSeven reserves))) (transferOfSeven reserves).entry
    (plainParams (transferOfSeven reserves).indexedArgs) (plainParams (transferOfSeven reserves).dataArgs)

theorem oneTransfer_recovered : recoverEvents prefixed seedLibs assetTransferredForSwapWatch
    [seedRawLog "0xA2" linkTokenAddress (eventTopics seedLibs (transferOfSeven reserves))
      (eventData (transferOfSeven reserves))] = .ok [.linkTransfer transferEvent] :=
  recoverEvent_link (by decide +kernel) (emitted_decodes prefixed seedDigest (onlyTransfer reserves)
    (transferOfSeven_words reserves rfl) _ rfl rfl)

theorem oneTransfer_processed :
    ∃ pa, processPaFixture prefixed seedLibs oneTransfer seedRunPartitionId = .ok pa := by
  obtain ⟨rootTrace, side, traced, sided⟩ := exists_of_bind_succeeded (x := loadTrace oneTransfer)
    (f := fun t => tokenSide prefixed seedLibs t { txHash := "0xA2", status := 1 } [transferEvent])
    (by decide +kernel)
  obtain ⟨actions, synthesized⟩ := exists_of_succeeded
    (x := synthesizePaActionsFromLinkTransfers prefixed [transferEvent]) (by decide +kernel)
  obtain ⟨block, row⟩ := exists_of_succeeded
    (x := canonicalBlockRow oneTransfer.tx oneTransfer.block seedRunPartitionId) (by decide +kernel)
  exact ⟨_, processPaFixture_of (loadReceipt_fixtureOf "0xA2" _) (loadLogs_fixtureOf "0xA2" linkTokenAddress _ _)
    traced oneTransfer_recovered sided rfl synthesized row⟩

theorem oneStake_ran : ∃ seeds, seedMain prefixed seedLibs oneStake oneTransfer = .ok seeds := by
  obtain ⟨stake, stakeProcessed⟩ := oneStake_processed
  obtain ⟨pa, paProcessed⟩ := oneTransfer_processed
  refine ⟨mergeTables stake pa, ?_⟩
  rw [seedMain, stakeProcessed, paProcessed]
  exact checkSeeds_merged prefixed_identifying stakeProcessed paProcessed

theorem seedMain_eq_oneStake :
    ∃ stake pa, processStakeFixture prefixed seedLibs oneStake seedRunPartitionId = .ok stake ∧
      processPaFixture prefixed seedLibs oneTransfer seedRunPartitionId = .ok pa ∧
      seedMain prefixed seedLibs oneStake oneTransfer = .ok (mergeTables stake pa) := by
  obtain ⟨stake, stakeProcessed⟩ := oneStake_processed
  obtain ⟨pa, paProcessed⟩ := oneTransfer_processed
  refine ⟨stake, pa, stakeProcessed, paProcessed, ?_⟩
  rw [seedMain_eq prefixed_identifying oneStake oneTransfer, stakeProcessed, paProcessed]
  rfl

end EconomicLedger.Seed
