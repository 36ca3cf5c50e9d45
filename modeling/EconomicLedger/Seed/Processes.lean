import EconomicLedger.Decode.Logs
import EconomicLedger.Ledger.Synthesized
import EconomicLedger.Model.SeedScript

/-!
# What a fixture yields

The events recovered from the logs of a fixture, and the actions that come from them: one action of the
last stake, and an action of every positive LINK transfer to a Payment Abstraction contract.
-/

namespace EconomicLedger.Seed
open Model Text Fallible Decode Ledger DoubleEntry

variable {sha256 : Digest} {libs : ExternalLibs}

theorem raising_eq_ok {α : Type} (x : Py α) (a : α) : raising x = .ok a ↔ x = .ok a := by
  cases x <;> simp [raising, Except.mapError]

/-! ## Recovered events -/

inductive RecoveredFrom (sha256 : Digest) (libs : ExternalLibs) (watch : WatchedEvent) (log : RawLog) :
    RecoveredEvent → Prop
  | linkTransfer (ev : DecodedEvent) (onLink : lower log.address = linkTokenAddress)
      (decodes : DecodesTo sha256 libs log erc20TransferAbi ev) :
      RecoveredFrom sha256 libs watch log (.linkTransfer ev)
  | watched (ev : DecodedEvent) (own : lower log.address = watch.contract)
      (signed : log.topics.head?.map lower = some watch.topic0)
      (decodes : DecodesTo sha256 libs log watch.abi ev) : RecoveredFrom sha256 libs watch log (.watched ev)

theorem decodesTo_of_recovered {log : RawLog} {abi : Abi} {res : DecodeResult DecodedEvent}
    {ev : DecodedEvent} (decoded : decodeLog sha256 libs log abi = .ok res) (event : res.recovered = some ev) :
    DecodesTo sha256 libs log abi ev := by
  unfold DecodeResult.recovered at event
  split_ifs at event with success
  obtain ⟨ev', decodes, rfl⟩ := (decodeLog_success_iff sha256 libs log abi res).mp ⟨decoded, success⟩
  cases event
  exact decodes

theorem recoverEvent_from {watch : WatchedEvent} {log : RawLog} {found : List RecoveredEvent}
    (recovered : recoverEvent sha256 libs watch log = .ok found) (r : RecoveredEvent) (member : r ∈ found) :
    RecoveredFrom sha256 libs watch log r := by
  unfold recoverEvent at recovered
  split_ifs at recovered with onLink own
  · obtain ⟨res, decoded, rest⟩ := (bind_eq_ok_iff _ _ _).mp recovered
    obtain rfl := (pure_eq_ok_iff _ _).mp rest
    obtain ⟨ev, event, rfl⟩ := Option.map_eq_some_iff.mp (Option.mem_toList.mp member)
    exact .linkTransfer ev onLink (decodesTo_of_recovered decoded event)
  · obtain ⟨res, decoded, rest⟩ := (bind_eq_ok_iff _ _ _).mp recovered
    obtain rfl := (pure_eq_ok_iff _ _).mp rest
    obtain ⟨ev, event, rfl⟩ := Option.map_eq_some_iff.mp (Option.mem_toList.mp member)
    exact .watched ev own.1 own.2 (decodesTo_of_recovered decoded event)
  · obtain rfl := (pure_eq_ok_iff _ _).mp recovered
    cases member

theorem recoverEvents_from {watch : WatchedEvent} {logs : List RawLog} {found : List RecoveredEvent}
    (recovered : recoverEvents sha256 libs watch logs = .ok found) (r : RecoveredEvent) (member : r ∈ found) :
    ∃ log ∈ logs, RecoveredFrom sha256 libs watch log r := by
  obtain ⟨each, rfl⟩ := (flatMapM_eq_ok_iff _ _ _).mp recovered
  obtain ⟨log, inside, here⟩ := List.mem_flatMap.mp member
  obtain ⟨part, computed⟩ := each log inside
  rw [computed, results_ok] at here
  exact ⟨log, inside, recoverEvent_from computed r here⟩

theorem mem_linkTransfers {found : List RecoveredEvent} {ev : DecodedEvent}
    (member : ev ∈ found.filterMap RecoveredEvent.linkTransfer?) : .linkTransfer ev ∈ found := by
  obtain ⟨r, inside, here⟩ := List.mem_filterMap.mp member
  cases r with
  | linkTransfer ev' => exact Option.some.inj here ▸ inside
  | watched ev' => cases here

theorem mem_watched {found : List RecoveredEvent} {ev : DecodedEvent}
    (member : ev ∈ found.filterMap RecoveredEvent.watched?) : .watched ev ∈ found := by
  obtain ⟨r, inside, here⟩ := List.mem_filterMap.mp member
  cases r with
  | linkTransfer ev' => cases here
  | watched ev' => exact Option.some.inj here ▸ inside

/-- The event comes from an entry of the ABI and keeps the position of the log. -/
theorem decodesTo_entry {log : RawLog} {abi : Abi} {ev : DecodedEvent}
    (decodes : DecodesTo sha256 libs log abi ev) :
    ∃ entry ∈ abi.jsonAbi, ev.eventName = entry.name.getD "<unnamed>" := by
  obtain ⟨entry, topicConsumed, indexedParams, bytes, dataParams, chosen, -, -, -, -, rfl⟩ := decodes
  refine ⟨entry, ?_, rfl⟩
  unfold selectEvent at chosen
  split at chosen
  · split at chosen
    next found =>
      cases chosen
      exact List.mem_of_find?_eq_some found
    next => cases chosen
  · split at chosen
    next found =>
      cases chosen
      exact List.mem_of_find?_eq_some found
    next => cases chosen

structure SamePosition (log : RawLog) (ev : DecodedEvent) : Prop where
  chainId : ev.chainId = log.chainId
  blockNumber : ev.blockNumber = log.blockNumber
  txHash : ev.txHash = lower log.txHash
  logIndex : ev.logIndex = log.logIndex

theorem decodesTo_position {log : RawLog} {abi : Abi} {ev : DecodedEvent}
    (decodes : DecodesTo sha256 libs log abi ev) : SamePosition log ev := by
  obtain ⟨entry, topicConsumed, indexedParams, bytes, dataParams, -, -, -, -, -, rfl⟩ := decodes
  exact ⟨rfl, rfl, rfl, rfl⟩

theorem recoveredFrom_position {watch : WatchedEvent} {log : RawLog} {r : RecoveredEvent}
    (source : RecoveredFrom sha256 libs watch log r) : SamePosition log r.event := by
  cases source with
  | linkTransfer ev onLink decodes => exact decodesTo_position decodes
  | watched ev own signed decodes => exact decodesTo_position decodes

/-! ## Actions -/

/-- The watched event of the PA fixture has a name the semantics do not know. -/
theorem classified_none {logs : List RawLog} {found : List RecoveredEvent}
    (recovered : recoverEvents sha256 libs assetTransferredForSwapWatch logs = .ok found)
    (classified : List PAEconomicAction)
    (returned : flatMapM (fun ev => classifyPaEventAsAction sha256 ev stubContractRegistry)
      (found.filterMap RecoveredEvent.watched?) = .ok classified) : classified = [] := by
  obtain ⟨-, rfl⟩ := (flatMapM_eq_ok_iff _ _ _).mp returned
  rw [List.flatMap_eq_nil_iff]
  intro ev member
  obtain ⟨log, -, source⟩ := recoverEvents_from recovered _ (mem_watched member)
  cases source with
  | watched _ _ _ decodes =>
      obtain ⟨entry, inside, named⟩ := decodesTo_entry decodes
      obtain rfl := List.mem_singleton.mp inside
      have unknown : paKind stubContractRegistry ev = none := by
        rw [paKind, named]
        exact ite_self none
      rw [classifyPaEventAsAction_eq, unknown]
      rfl

/-- An action of a positive LINK transfer to a PA contract. -/
def Synthesized (sha256 : Digest) (events : List DecodedEvent) (action : PAEconomicAction) : Prop :=
  ∃ ev ∈ events, ∃ kind role amount, 0 < amount ∧ paReceiver (transferParty ev "to") = some (kind, role) ∧
    action = synthesizedAction sha256 ev kind role amount

theorem synthesized_of_mem {events : List DecodedEvent} {actions : List PAEconomicAction}
    (returned : synthesizePaActionsFromLinkTransfers sha256 events = .ok actions) (action : PAEconomicAction)
    (member : action ∈ actions) : Synthesized sha256 events action := by
  obtain ⟨each, rfl⟩ := (flatMapM_eq_ok_iff _ _ _).mp returned
  obtain ⟨ev, inside, here⟩ := List.mem_flatMap.mp member
  obtain ⟨part, computed⟩ := each ev inside
  rw [computed, results_ok] at here
  obtain ⟨amount, -, rest⟩ := (bind_eq_ok_iff _ _ _).mp computed
  split_ifs at rest with nothing
  · obtain rfl := (pure_eq_ok_iff _ _).mp rest
    cases here
  · cases receiver : paReceiver (transferParty ev "to") with
    | none =>
        rw [receiver] at rest
        obtain rfl := (pure_eq_ok_iff _ _).mp rest
        cases here
    | some booked =>
        rw [receiver] at rest
        obtain rfl := (pure_eq_ok_iff _ _).mp rest
        exact ⟨ev, inside, booked.1, booked.2, amount, not_le.mp nothing, receiver, List.mem_singleton.mp here⟩

theorem labelled (head rest label : String) (known : label ∈ paAccountLabels)
    (begins : startsWith head label = true) :
    (paAccountLabels.any fun label => startsWith (head ++ rest) label) = true := by
  refine List.any_eq_true.mpr ⟨label, known, ?_⟩
  rw [startsWith, String.toList_append]
  exact List.isPrefixOf_iff_prefix.mpr ((List.isPrefixOf_iff_prefix.mp begins).trans (List.prefix_append _ _))

/-- It books a pair of entries, one of them on an account of Payment Abstraction. -/
theorem synthesized_booked {events : List DecodedEvent} {action : PAEconomicAction}
    (synthesized : Synthesized sha256 events action) :
    ∃ debited credited amount, buildPaLedgerEntries sha256 action =
        bookPair (makePaEntry sha256 action) debited credited amount ∧
      (paAccountLabels.any fun label => startsWith credited label) = true := by
  obtain ⟨ev, -, kind, role, amount, positive, receiver, rfl⟩ := synthesized
  have something : ¬ (amount ≤ 0 ∧ amount ≤ 0) := by omega
  have nonzero : ¬ amount = 0 := by omega
  unfold buildPaLedgerEntries
  rcases paReceiver_cases receiver with ⟨-, rfl, rfl⟩ | ⟨-, rfl, rfl⟩ | ⟨-, rfl, rfl⟩
  · simp only [synthesizedAction, something, nonzero, reduceCtorEq, if_false]
    exact ⟨_, _, amount, rfl, labelled ("pa_reserves" ++ ":") _ "pa_" (by decide) (by decide)⟩
  · simp only [synthesizedAction, something, reduceCtorEq, if_false]
    exact ⟨_, _, amount, rfl, labelled ("pa_fee_aggregator" ++ ":") _ "pa_" (by decide) (by decide)⟩
  · simp only [synthesizedAction, something, reduceCtorEq, if_false]
    exact ⟨_, _, amount, rfl, labelled "forwarded_to:" _ "forwarded_to:" (by decide) (by decide)⟩

/-! ## Processes -/

theorem processStakeFixture_ok {fixture : Fixture} {runPartitionId : String} {tables : SeedTables}
    (processed : processStakeFixture sha256 libs fixture runPartitionId = .ok tables) :
    ∃ logs recovered side block stakedEvent stakingActions,
      loadLogs fixture = .ok logs ∧ recoverEvents sha256 libs stakedWatch logs = .ok recovered ∧
      .watched stakedEvent ∈ recovered ∧
      classifyEventAsAction sha256 stakedEvent stubContractRegistry = .ok stakingActions ∧
      canonicalBlockRow fixture.tx fixture.block runPartitionId = .ok block ∧
      tables = stakeTables sha256 logs recovered side block stakingActions runPartitionId := by
  simp only [processStakeFixture, bind_eq_ok_iff, raising_eq_ok] at processed
  obtain ⟨receipt, -, logs, loaded, rootTrace, -, recovered, found, rest⟩ := processed
  split at rest
  · cases rest
  next stakedEvent last =>
    simp only [bind_eq_ok_iff, raising_eq_ok, pure_eq_ok_iff] at rest
    obtain ⟨side, -, stakingActions, classified, block, row, rfl⟩ := rest
    exact ⟨logs, recovered, side, block, stakedEvent, stakingActions, loaded, found,
      mem_watched (List.mem_of_getLast? last), classified, row, rfl⟩

theorem processPaFixture_ok {fixture : Fixture} {runPartitionId : String} {tables : SeedTables}
    (processed : processPaFixture sha256 libs fixture runPartitionId = .ok tables) :
    ∃ logs recovered side block paActions,
      loadLogs fixture = .ok logs ∧
      recoverEvents sha256 libs assetTransferredForSwapWatch logs = .ok recovered ∧
      synthesizePaActionsFromLinkTransfers sha256 (recovered.filterMap RecoveredEvent.linkTransfer?) =
        .ok paActions ∧
      canonicalBlockRow fixture.tx fixture.block runPartitionId = .ok block ∧
      tables = paTables sha256 logs recovered side block paActions runPartitionId := by
  simp only [processPaFixture, bind_eq_ok_iff, raising_eq_ok, pure_eq_ok_iff] at processed
  obtain ⟨receipt, -, logs, loaded, rootTrace, -, recovered, found, side, -, classified, none, paActions,
    synthesized, block, row, rfl⟩ := processed
  obtain rfl := classified_none found classified none
  exact ⟨logs, recovered, side, block, paActions, loaded, found, synthesized, row, rfl⟩

theorem processStakeFixture_of {fixture : Fixture} {receipt : Receipt} {logs : List RawLog} {rootTrace : RawTrace}
    {recovered : List RecoveredEvent} {stakedEvent : DecodedEvent} {side : TokenSide}
    {stakingActions : List EconomicAction} {block : BlockRow} {runPartitionId : String}
    (received : loadReceipt fixture.receipt = .ok receipt) (loaded : loadLogs fixture = .ok logs)
    (traced : loadTrace fixture = .ok rootTrace) (found : recoverEvents sha256 libs stakedWatch logs = .ok recovered)
    (last : (recovered.filterMap RecoveredEvent.watched?).getLast? = some stakedEvent)
    (sided : tokenSide sha256 libs rootTrace receipt (recovered.filterMap RecoveredEvent.linkTransfer?) = .ok side)
    (classified : classifyEventAsAction sha256 stakedEvent stubContractRegistry = .ok stakingActions)
    (row : canonicalBlockRow fixture.tx fixture.block runPartitionId = .ok block) :
    processStakeFixture sha256 libs fixture runPartitionId =
      .ok (stakeTables sha256 logs recovered side block stakingActions runPartitionId) := by
  simp only [processStakeFixture, received, loaded, traced, found, raising, Except.mapError, ok_bind]
  rw [last]
  simp only [sided, classified, row, ok_bind]
  rfl

theorem processPaFixture_of {fixture : Fixture} {receipt : Receipt} {logs : List RawLog} {rootTrace : RawTrace}
    {recovered : List RecoveredEvent} {side : TokenSide} {classified synthesized : List PAEconomicAction}
    {block : BlockRow} {runPartitionId : String}
    (received : loadReceipt fixture.receipt = .ok receipt) (loaded : loadLogs fixture = .ok logs)
    (traced : loadTrace fixture = .ok rootTrace)
    (found : recoverEvents sha256 libs assetTransferredForSwapWatch logs = .ok recovered)
    (sided : tokenSide sha256 libs rootTrace receipt (recovered.filterMap RecoveredEvent.linkTransfer?) = .ok side)
    (known : flatMapM (fun ev => classifyPaEventAsAction sha256 ev stubContractRegistry)
      (recovered.filterMap RecoveredEvent.watched?) = .ok classified)
    (synthesizes : synthesizePaActionsFromLinkTransfers sha256
      (recovered.filterMap RecoveredEvent.linkTransfer?) = .ok synthesized)
    (row : canonicalBlockRow fixture.tx fixture.block runPartitionId = .ok block) :
    processPaFixture sha256 libs fixture runPartitionId =
      .ok (paTables sha256 logs recovered side block (classified ++ synthesized) runPartitionId) := by
  simp only [processPaFixture, received, loaded, traced, found, sided, known, synthesizes, row, raising,
    Except.mapError, ok_bind]
  rfl

end EconomicLedger.Seed
