import EconomicLedger.Decode.Logs
import EconomicLedger.Marts.FlowRows
import EconomicLedger.Ledger.Identity

/-!
# Competing blocks in the marts

From ingested logs to the rows of the action marts. The joins with the canonical blocks compare
heights, so the hash of the block a log was read from decides nothing.
-/

namespace EconomicLedger.Marts
open Model Ledger Decode Fallible Relational

/-! ## Ingestion -/

structure IngestionPass where
  logs : List RawLog
  runPartitionId : String

variable (sha256 : Digest) (libs : ExternalLibs) (abis : AbiRegistry) (registry : ContractRegistry)

def classifyLogs (logs : List RawLog) : Py (List EconomicAction) := do
  let events ← decodedEvents sha256 libs abis logs
  economicActions sha256 registry events

def ingest (pass : IngestionPass) : Py (List EconomicActionRow) := do
  let actions ← classifyLogs sha256 libs abis registry pass.logs
  return actions.map fun action => { action := action, runPartitionId := pass.runPartitionId }

def ingestAll (passes : List IngestionPass) : Py (List EconomicActionRow) :=
  flatMapM (ingest sha256 libs abis registry) passes

def logHeight (log : RawLog) : Int × Int := (log.chainId, log.blockNumber)

def logActions (log : RawLog) : List EconomicAction :=
  results (classifyLogs sha256 libs abis registry [log])

/-! ## The actions of a log -/

theorem decodeLog_height (log : RawLog) (abi : Abi) (outcome : DecodeResult DecodedEvent)
    (decoded : decodeLog sha256 libs log abi = .ok outcome) (ev : DecodedEvent)
    (event : outcome.decoded = some ev) : (ev.chainId, ev.blockNumber) = logHeight log := by
  obtain ⟨entry, _, indexedParams, _, dataParams, -, -, -, -, -, rfl⟩ :=
    (decodeLog_decoded_iff sha256 libs log abi ev).mp ⟨outcome, decoded, event⟩
  rfl

theorem classify_height (ev : DecodedEvent) (action : EconomicAction)
    (produced : action ∈ results (classifyEventAsAction sha256 ev registry)) :
    (action.chainId, action.blockNumber) = (ev.chainId, ev.blockNumber) := by
  rw [classifyEventAsAction_eq] at produced
  cases claimed : stakingKind registry ev with
  | none => simp [claimed] at produced
  | some kind =>
      simp only [claimed] at produced
      cases extracted : extractAmountLink ev with
      | error exc => simp [extracted, results, Except.map, Except.toOption] at produced
      | ok amount =>
          simp only [extracted, Except.map, results_ok, actionsOf] at produced
          split_ifs at produced
          · simp only [List.mem_cons, List.not_mem_nil, or_false] at produced
            rcases produced with rfl | rfl <;> rfl
          · rw [List.mem_singleton.mp produced]
            rfl

def decodeOne (log : RawLog) : Py (DecodeResult DecodedEvent) :=
  match abis.get (Text.lower log.address) log.blockNumber with
  | .error exc =>
      .ok (failedResult (computeRawLogId sha256 log) .unregisteredContract (reprText exc.detail))
  | .ok abi => decodeLog sha256 libs log abi

theorem decodeOne_height (log : RawLog) (outcome : DecodeResult DecodedEvent)
    (decoded : decodeOne sha256 libs abis log = .ok outcome) (ev : DecodedEvent)
    (event : outcome.decoded = some ev) : (ev.chainId, ev.blockNumber) = logHeight log := by
  unfold decodeOne at decoded
  cases found : abis.get (Text.lower log.address) log.blockNumber with
  | error exc =>
      rw [found] at decoded
      cases decoded
      cases event
  | ok abi =>
      rw [found] at decoded
      exact decodeLog_height sha256 libs log abi outcome decoded ev event

theorem classifyLogs_single (log : RawLog) (outcome : DecodeResult DecodedEvent)
    (decoded : decodeOne sha256 libs abis log = .ok outcome) :
    classifyLogs sha256 libs abis registry [log] =
      economicActions sha256 registry outcome.decoded.toList := by
  have batch : decodeLogsBatch sha256 libs abis [log] = .ok [outcome] :=
    (mapM_eq_ok_iff (decodeOne sha256 libs abis) [log] [outcome]).mpr
      (List.Forall₂.cons decoded List.Forall₂.nil)
  rw [classifyLogs, decodedEvents, batch]
  cases found : outcome.decoded <;> simp [found, ok_bind]

theorem logActions_height (log : RawLog) (action : EconomicAction)
    (produced : action ∈ logActions sha256 libs abis registry log) :
    (action.chainId, action.blockNumber) = logHeight log := by
  unfold logActions at produced
  cases decoded : decodeOne sha256 libs abis log with
  | error exc =>
      have raised : classifyLogs sha256 libs abis registry [log] = .error exc := by
        have batch : decodeLogsBatch sha256 libs abis [log] = .error exc := by
          change [log].mapM (decodeOne sha256 libs abis) = _
          rw [List.mapM_cons, decoded]
          rfl
        rw [classifyLogs, decodedEvents, batch]
        rfl
      simp [raised, results, Except.toOption] at produced
  | ok outcome =>
      rw [classifyLogs_single sha256 libs abis registry log outcome decoded] at produced
      cases classified : economicActions sha256 registry outcome.decoded.toList with
      | error exc => simp [classified, results, Except.toOption] at produced
      | ok actions =>
          obtain ⟨-, rfl⟩ := (flatMapM_eq_ok_iff _ _ _).mp classified
          rw [classified, results_ok] at produced
          obtain ⟨ev, isEvent, here⟩ := List.mem_flatMap.mp produced
          rw [classify_height sha256 registry ev action here]
          exact decodeOne_height sha256 libs abis log outcome decoded ev (by simpa using isEvent)

theorem classifyLogs_eq (logs : List RawLog) (actions : List EconomicAction)
    (classified : classifyLogs sha256 libs abis registry logs = .ok actions) :
    actions = logs.flatMap (logActions sha256 libs abis registry) := by
  simp only [classifyLogs, decodedEvents, bind_eq_ok_iff, pure_eq_ok_iff] at classified
  obtain ⟨_, ⟨outcomes, batch, rfl⟩, classified⟩ := classified
  have each := (mapM_eq_ok_iff (decodeOne sha256 libs abis) logs outcomes).mp batch
  obtain ⟨ok, rfl⟩ := (flatMapM_eq_ok_iff _ _ _).mp classified
  clear classified batch
  induction each with
  | nil => rfl
  | @cons log outcome logs outcomes first _ ih =>
      have single := classifyLogs_single sha256 libs abis registry log outcome first
      rw [List.flatMap_cons, logActions, single]
      cases found : outcome.decoded with
      | none =>
          rw [List.filterMap_cons_none found] at ok ⊢
          exact ih ok
      | some ev =>
          rw [List.filterMap_cons_some found] at ok ⊢
          obtain ⟨part, here⟩ := ok ev List.mem_cons_self
          have own : economicActions sha256 registry [ev] = .ok part := by
            simp [economicActions, flatMapM, here, ok_bind]
          rw [List.flatMap_cons, ih fun ev' later => ok ev' (List.mem_cons_of_mem ev later),
            Option.toList_some, own, here]

/-! ## Rows and their logs -/

/-- A row of a model comes from a log when the model selects it for an action of that log. -/
def ComesFrom {ρ : Type} (rows : List EconomicActionRow) (model : List EconomicActionRow → List ρ)
    (log : RawLog) (row : ρ) : Prop :=
  ∃ source ∈ rows, source.action ∈ logActions sha256 libs abis registry log ∧ row ∈ model [source]

/-- No row comes from a log of another block than the canonical one at its height. -/
def ReorgSafe {ρ : Type} (blocks : CanonicalBlocks) (logs : List RawLog)
    (rows : List EconomicActionRow) (model : List EconomicActionRow → List ρ) : Prop :=
  ∀ row ∈ model rows, ∀ log ∈ logs, ComesFrom sha256 libs abis registry rows model log row →
    ∀ cb ∈ blocks.rows, cb.height = logHeight log → log.blockHash = cb.blockHash

theorem onBlocks_iff (blocks : CanonicalBlocks) (chainId blockNumber : Int) :
    onBlocks blocks chainId blockNumber = true ↔
      ∃ cb ∈ blocks.rows, cb.height = (chainId, blockNumber) := by
  simp only [onBlocks, List.any_eq_true, Bool.and_eq_true, decide_eq_true_eq, CanonicalBlock.height,
    Prod.mk.injEq]

theorem mem_intEconomicActions (rows : List EconomicActionRow) (blocks : CanonicalBlocks)
    (row : EconomicActionRow) :
    row ∈ intEconomicActions rows blocks ↔ ∃ source ∈ rows,
      onBlocks blocks source.action.chainId source.action.blockNumber = true ∧ lowered source = row := by
  simp only [intEconomicActions_eq, List.mem_map, List.mem_filter, and_assoc]

theorem mem_stakingLinkFlows (rows : List EconomicActionRow) (blocks : CanonicalBlocks)
    (recon : List ActionMovementReconRow) (row : StakingLinkFlowRow) :
    row ∈ stakingLinkFlows rows blocks recon ↔
      ∃ source ∈ rows, row ∈ stakingLinkFlows [source] blocks recon := by
  simp only [stakingLinkFlows, List.mem_filterMap, Prod.exists]
  constructor
  · rintro ⟨a, cb, found, joined, made⟩
    obtain ⟨paired, own⟩ := (mem_leftJoin onTxHash).mp joined
    obtain ⟨inside, isBlock, matched⟩ := (mem_innerJoin onCanonicalBlock).mp paired
    obtain ⟨source, isSource, reached, rfl⟩ := (mem_intEconomicActions _ _ _).mp inside
    refine ⟨source, isSource, lowered source, cb, found, (mem_leftJoin onTxHash).mpr ⟨?_, own⟩, made⟩
    refine (mem_innerJoin onCanonicalBlock).mpr ⟨?_, isBlock, matched⟩
    exact (mem_intEconomicActions _ _ _).mpr ⟨source, List.mem_singleton_self source, reached, rfl⟩
  · rintro ⟨source, isSource, a, cb, found, joined, made⟩
    obtain ⟨paired, own⟩ := (mem_leftJoin onTxHash).mp joined
    obtain ⟨inside, isBlock, matched⟩ := (mem_innerJoin onCanonicalBlock).mp paired
    obtain ⟨only, isOnly, reached, rfl⟩ := (mem_intEconomicActions _ _ _).mp inside
    obtain rfl := List.mem_singleton.mp isOnly
    refine ⟨lowered only, cb, found, (mem_leftJoin onTxHash).mpr ⟨?_, own⟩, made⟩
    refine (mem_innerJoin onCanonicalBlock).mpr ⟨?_, isBlock, matched⟩
    exact (mem_intEconomicActions _ _ _).mpr ⟨only, isSource, reached, rfl⟩

theorem wallet_of_stakingLinkFlow (source : EconomicActionRow) (blocks : CanonicalBlocks)
    (recon : List ActionMovementReconRow) (row : StakingLinkFlowRow)
    (selected : row ∈ stakingLinkFlows [source] blocks recon) :
    source.action.wallet.isSome = true := by
  obtain ⟨⟨⟨a, cb⟩, found⟩, joined, made⟩ := List.mem_filterMap.mp selected
  have inside := ((mem_innerJoin onCanonicalBlock).mp ((mem_leftJoin onTxHash).mp joined).1).1
  obtain ⟨only, isOnly, -, rfl⟩ := (mem_intEconomicActions _ _ _).mp inside
  obtain rfl := List.mem_singleton.mp isOnly
  cases wallet : only.action.wallet with
  | none => simp [flowRow, lowered, wallet] at made
  | some w => rfl

theorem stakingLinkFlows_ne_nil (source : EconomicActionRow) (blocks : CanonicalBlocks)
    (recon : List ActionMovementReconRow) (cb : CanonicalBlock) (isBlock : cb ∈ blocks.rows)
    (height : cb.height = (source.action.chainId, source.action.blockNumber))
    (wallet : source.action.wallet.isSome = true) :
    ∃ row, row ∈ stakingLinkFlows [source] blocks recon := by
  have reached : onBlocks blocks source.action.chainId source.action.blockNumber = true :=
    (onBlocks_iff _ _ _).mpr ⟨cb, isBlock, height⟩
  have matched : onCanonicalBlock (lowered source) cb = true := by
    rw [CanonicalBlock.height, Prod.mk.injEq] at height
    simp only [onCanonicalBlock, lowered, height, decide_true, Bool.and_self]
  have paired : (lowered source, cb) ∈
      innerJoin onCanonicalBlock (intEconomicActions [source] blocks) blocks.rows :=
    (mem_innerJoin onCanonicalBlock).mpr ⟨(mem_intEconomicActions _ _ _).mpr
      ⟨source, List.mem_singleton_self source, reached, rfl⟩, isBlock, matched⟩
  obtain ⟨joined, inside, own⟩ := exists_mem_leftJoin onTxHash recon paired
  obtain ⟨w, isWallet⟩ := Option.isSome_iff_exists.mp wallet
  have made : (flowRow joined).isSome = true := by
    obtain ⟨⟨a, cb'⟩, found⟩ := joined
    cases own
    simp [flowRow, lowered, isWallet]
  obtain ⟨row, isRow⟩ := Option.isSome_iff_exists.mp made
  exact ⟨row, List.mem_filterMap.mpr ⟨joined, inside, isRow⟩⟩

/-! ## Reorg safety -/

/-- Every log of the kind lies in the canonical block of its height, where it has one. -/
def OnCanonicalHash (blocks : CanonicalBlocks) (logs : List RawLog) (kind : RawLog → Prop) : Prop :=
  ∀ log ∈ logs, kind log → ∀ cb ∈ blocks.rows, cb.height = logHeight log →
    log.blockHash = cb.blockHash

def passLogs (passes : List IngestionPass) : List RawLog := passes.flatMap IngestionPass.logs

theorem written_of_ingested (passes : List IngestionPass) (rows : List EconomicActionRow)
    (ran : ingestAll sha256 libs abis registry passes = .ok rows) (log : RawLog)
    (ingested : log ∈ passLogs passes) (action : EconomicAction)
    (produced : action ∈ logActions sha256 libs abis registry log) :
    ∃ source ∈ rows, source.action = action := by
  obtain ⟨each, rfl⟩ := (flatMapM_eq_ok_iff _ _ _).mp ran
  obtain ⟨pass, isPass, isLog⟩ := List.mem_flatMap.mp ingested
  obtain ⟨part, wrote⟩ := each pass isPass
  have written := wrote
  simp only [ingest, bind_eq_ok_iff, pure_eq_ok_iff] at written
  obtain ⟨actions, classified, rfl⟩ := written
  have all := classifyLogs_eq sha256 libs abis registry pass.logs actions classified
  have member : action ∈ actions := all ▸ List.mem_flatMap.mpr ⟨log, isLog, produced⟩
  refine ⟨{ action := action, runPartitionId := pass.runPartitionId }, ?_, rfl⟩
  refine List.mem_flatMap.mpr ⟨pass, isPass, ?_⟩
  rw [wrote, results_ok]
  exact List.mem_map_of_mem member

section Safety
variable (passes : List IngestionPass) (rows : List EconomicActionRow)
  (ran : ingestAll sha256 libs abis registry passes = .ok rows) (blocks : CanonicalBlocks)
include ran

theorem intEconomicActions_safe_iff :
    ReorgSafe sha256 libs abis registry blocks (passLogs passes) rows
        (intEconomicActions · blocks) ↔
      OnCanonicalHash blocks (passLogs passes) fun log =>
        logActions sha256 libs abis registry log ≠ [] := by
  constructor
  · intro safe log ingested yields cb isBlock height
    obtain ⟨action, produced⟩ := List.exists_mem_of_ne_nil _ yields
    obtain ⟨source, written, rfl⟩ :=
      written_of_ingested sha256 libs abis registry passes rows ran log ingested action produced
    have own := logActions_height sha256 libs abis registry log source.action produced
    have reached : onBlocks blocks source.action.chainId source.action.blockNumber = true :=
      (onBlocks_iff _ _ _).mpr ⟨cb, isBlock, height.trans own.symm⟩
    have selected : ∀ table : List EconomicActionRow, source ∈ table →
        lowered source ∈ intEconomicActions table blocks := fun table member =>
      (mem_intEconomicActions _ _ _).mpr ⟨source, member, reached, rfl⟩
    exact safe (lowered source) (selected rows written) log ingested
      ⟨source, written, produced, selected [source] (List.mem_singleton_self source)⟩ cb isBlock height
  · rintro canonical row - log ingested ⟨source, -, produced, -⟩ cb isBlock height
    exact canonical log ingested (List.ne_nil_of_mem produced) cb isBlock height

theorem stakingLinkFlows_safe_iff (recon : List ActionMovementReconRow) :
    ReorgSafe sha256 libs abis registry blocks (passLogs passes) rows
        (stakingLinkFlows · blocks recon) ↔
      OnCanonicalHash blocks (passLogs passes) fun log =>
        ∃ action ∈ logActions sha256 libs abis registry log, action.wallet.isSome = true := by
  constructor
  · rintro safe log ingested ⟨action, produced, wallet⟩ cb isBlock height
    obtain ⟨source, written, rfl⟩ :=
      written_of_ingested sha256 libs abis registry passes rows ran log ingested action produced
    have own := logActions_height sha256 libs abis registry log source.action produced
    obtain ⟨row, selected⟩ :=
      stakingLinkFlows_ne_nil source blocks recon cb isBlock (height.trans own.symm) wallet
    exact safe row ((mem_stakingLinkFlows _ _ _ _).mpr ⟨source, written, selected⟩) log ingested
      ⟨source, written, produced, selected⟩ cb isBlock height
  · rintro canonical row - log ingested ⟨source, -, produced, selected⟩ cb isBlock height
    exact canonical log ingested ⟨source.action, produced,
      wallet_of_stakingLinkFlow source blocks recon row selected⟩ cb isBlock height

theorem marts_reorg_safe_iff (recon : List ActionMovementReconRow) :
    (ReorgSafe sha256 libs abis registry blocks (passLogs passes) rows
        (intEconomicActions · blocks) ∧
      ReorgSafe sha256 libs abis registry blocks (passLogs passes) rows
        (stakingLinkFlows · blocks recon)) ↔
      OnCanonicalHash blocks (passLogs passes) fun log =>
        logActions sha256 libs abis registry log ≠ [] := by
  rw [intEconomicActions_safe_iff sha256 libs abis registry passes rows ran blocks,
    stakingLinkFlows_safe_iff sha256 libs abis registry passes rows ran blocks recon]
  constructor
  · exact And.left
  · intro canonical
    refine ⟨canonical, ?_⟩
    rintro log ingested ⟨action, produced, -⟩ cb isBlock height
    exact canonical log ingested (List.ne_nil_of_mem produced) cb isBlock height

end Safety

/-! ### A transaction included twice -/

def stakedIn (blockHash : String) (logIndex : Int) : RawLog :=
  { stakedLog logIndex with blockHash := blockHash }

def passOf (logs : List RawLog) : List IngestionPass := [{ logs := logs, runPartitionId := "run" }]

def poolRegistry : ContractRegistry := registryOf [(stakingPool, "community_pool")]

def rowsOf (logs : List RawLog) : List EconomicActionRow :=
  results (ingestAll id wordLibs stakingAbis poolRegistry (passOf logs))

/-- The stake of a dropped block, and the same stake in the block that replaced it. -/
def competingLogs : List RawLog := [stakedIn "0x0b" 1, stakedIn "0x0a" 0]

theorem staked_runs :
    ingestAll id wordLibs stakingAbis poolRegistry (passOf [stakedIn "0x0a" 0]) =
        .ok (rowsOf [stakedIn "0x0a" 0]) ∧
      ingestAll id wordLibs stakingAbis poolRegistry (passOf competingLogs) =
        .ok (rowsOf competingLogs) ∧
      (∃ action ∈ logActions id wordLibs stakingAbis poolRegistry (stakedIn "0x0b" 1),
        action.wallet.isSome = true) ∧
      (stakingLinkFlows (rowsOf competingLogs) blockHundred []).map StakingLinkFlowRow.amountLink =
        [7, 7] := by
  -- computed together, since each part decodes the logs
  decide +kernel

theorem marts_reorg_safe_one_block :
    ReorgSafe id wordLibs stakingAbis poolRegistry blockHundred (passLogs (passOf [stakedIn "0x0a" 0]))
        (rowsOf [stakedIn "0x0a" 0]) (intEconomicActions · blockHundred) ∧
      ReorgSafe id wordLibs stakingAbis poolRegistry blockHundred
        (passLogs (passOf [stakedIn "0x0a" 0])) (rowsOf [stakedIn "0x0a" 0])
        (stakingLinkFlows · blockHundred []) := by
  apply (marts_reorg_safe_iff id wordLibs stakingAbis poolRegistry (passOf [stakedIn "0x0a" 0])
    (rowsOf [stakedIn "0x0a" 0]) staked_runs.1 blockHundred []).mpr
  intro log ingested _ cb isBlock _
  obtain rfl := List.mem_singleton.mp ingested
  obtain rfl := List.mem_singleton.mp isBlock
  rfl

/-- The marts hold both stakes. -/
theorem reorged_stake_selected :
    ¬ ReorgSafe id wordLibs stakingAbis poolRegistry blockHundred (passLogs (passOf competingLogs))
        (rowsOf competingLogs) (intEconomicActions · blockHundred) ∧
    ¬ ReorgSafe id wordLibs stakingAbis poolRegistry blockHundred (passLogs (passOf competingLogs))
        (rowsOf competingLogs) (stakingLinkFlows · blockHundred []) ∧
    (stakingLinkFlows (rowsOf competingLogs) blockHundred []).map StakingLinkFlowRow.amountLink =
      [7, 7] := by
  obtain ⟨-, ran, orphan, amounts⟩ := staked_runs
  have ingested : stakedIn "0x0b" 1 ∈ passLogs (passOf competingLogs) := List.mem_cons_self
  have canonical : blockHundred.rows.head? = some _ := rfl
  have isBlock := List.mem_of_head? canonical
  have otherHash : ¬ (stakedIn "0x0b" 1).blockHash = "0x0a" := by decide
  refine ⟨fun safe => ?_, fun safe => ?_, amounts⟩
  · rw [intEconomicActions_safe_iff id wordLibs stakingAbis poolRegistry _ _ ran blockHundred] at safe
    obtain ⟨action, produced, -⟩ := orphan
    exact otherHash (safe _ ingested (List.ne_nil_of_mem produced) _ isBlock rfl)
  · rw [stakingLinkFlows_safe_iff id wordLibs stakingAbis poolRegistry _ _ ran blockHundred] at safe
    exact otherHash (safe _ ingested orphan _ isBlock rfl)

end EconomicLedger.Marts
