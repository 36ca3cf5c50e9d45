import EconomicLedger.Ledger.Layers
import EconomicLedger.Lib.Keyed
import EconomicLedger.Model.Marts

/-!
# The rows of `staking_link_flows`

The joins keep an action at most once, so the event ids of the mart are those of the actions on a
canonical block that have a wallet. A migration is one event with two such actions.
-/

namespace EconomicLedger.Marts
open Model Ledger Fallible Relational

/-! ## Event ids through the joins -/

def onBlocks (blocks : CanonicalBlocks) (chainId blockNumber : Int) : Bool :=
  blocks.rows.any fun cb => cb.chainId = chainId && cb.blockNumber = blockNumber

def selected (blocks : CanonicalBlocks) (action : EconomicAction) : Bool :=
  onBlocks blocks action.chainId action.blockNumber && action.wallet.isSome

theorem onCanonicalBlock_single (blocks : CanonicalBlocks) (a : EconomicActionRow) :
    (blocks.rows.filter (onCanonicalBlock a)).length ≤ 1 := by
  apply filter_length_le_one CanonicalBlock.height blocks.unique _
    (a.action.chainId, a.action.blockNumber)
  intro cb here
  simp only [onCanonicalBlock, Bool.and_eq_true, decide_eq_true_eq] at here
  rw [CanonicalBlock.height, here.1, here.2]

theorem onTxHash_single (recon : List ActionMovementReconRow)
    (unique : (recon.map ActionMovementReconRow.txHash).Nodup)
    (pair : EconomicActionRow × CanonicalBlock) :
    (recon.filter (onTxHash pair)).length ≤ 1 := by
  apply filter_length_le_one ActionMovementReconRow.txHash unique _ pair.1.action.txHash
  intro r here
  simpa [onTxHash, eq_comm] using here

def lowered (a : EconomicActionRow) : EconomicActionRow :=
  { a with action := { a.action with
      contractAddress := Text.lower a.action.contractAddress
      wallet := a.action.wallet.map Text.lower } }

theorem intEconomicActions_eq (economicActions : List EconomicActionRow) (blocks : CanonicalBlocks) :
    intEconomicActions economicActions blocks =
      (economicActions.filter fun a =>
        onBlocks blocks a.action.chainId a.action.blockNumber).map lowered := by
  have kept := innerJoin_left onCanonicalBlock
    fun a (_ : a ∈ economicActions) => onCanonicalBlock_single blocks a
  calc intEconomicActions economicActions blocks
      = ((innerJoin onCanonicalBlock economicActions blocks.rows).map Prod.fst).map lowered := by
        rw [List.map_map]
        rfl
    _ = _ := by
        rw [kept]
        rfl

/-- The event id a joined action contributes. -/
def selectedId (a : EconomicActionRow) : Option String :=
  a.action.wallet.map fun _ => a.action.decodedEventId

theorem flowRow_eventId
    (joined : (EconomicActionRow × CanonicalBlock) × Option ActionMovementReconRow) :
    (flowRow joined).map StakingLinkFlowRow.eventId = selectedId joined.1.1 := by
  obtain ⟨⟨a, cb⟩, recon⟩ := joined
  cases wallet : a.action.wallet <;> simp [flowRow, selectedId, wallet]

theorem selectedId_lowered (blocks : CanonicalBlocks) (economicActions : List EconomicActionRow) :
    ((((economicActions.filter fun a =>
      onBlocks blocks a.action.chainId a.action.blockNumber).map lowered).filter fun a =>
      blocks.rows.any (onCanonicalBlock a)).filterMap selectedId) =
      ((economicActions.map EconomicActionRow.action).filter (selected blocks)).map
        EconomicAction.decodedEventId := by
  have canonical : ((fun a => blocks.rows.any (onCanonicalBlock a)) ∘ lowered) =
      fun a => onBlocks blocks a.action.chainId a.action.blockNumber := rfl
  have wallets : selectedId ∘ lowered = selectedId := by
    funext a
    cases wallet : a.action.wallet <;> simp [selectedId, lowered, wallet]
  rw [List.filter_map, canonical, List.filter_filter, List.filterMap_map, wallets]
  simp only [Bool.and_self]
  induction economicActions with
  | nil => rfl
  | cons a rest ih =>
      cases reached : onBlocks blocks a.action.chainId a.action.blockNumber with
      | false => simpa [selected, reached] using ih
      | true =>
          cases wallet : a.action.wallet with
          | none => simpa [selected, reached, selectedId, wallet] using ih
          | some _ => simpa [selected, reached, selectedId, wallet] using ih

theorem stakingLinkFlows_eventIds (economicActions : List EconomicActionRow)
    (blocks : CanonicalBlocks) (recon : List ActionMovementReconRow)
    (unique : (recon.map ActionMovementReconRow.txHash).Nodup) :
    (stakingLinkFlows economicActions blocks recon).map StakingLinkFlowRow.eventId =
      ((economicActions.map EconomicActionRow.action).filter (selected blocks)).map
        EconomicAction.decodedEventId := by
  let pairs := innerJoin onCanonicalBlock (intEconomicActions economicActions blocks) blocks.rows
  have reconKept : (leftJoin onTxHash pairs recon).map Prod.fst = pairs :=
    leftJoin_left onTxHash fun pair _ => onTxHash_single recon unique pair
  have blockKept : pairs.map Prod.fst = (intEconomicActions economicActions blocks).filter
      fun a => blocks.rows.any (onCanonicalBlock a) :=
    innerJoin_left onCanonicalBlock fun a _ => onCanonicalBlock_single blocks a
  calc (stakingLinkFlows economicActions blocks recon).map StakingLinkFlowRow.eventId
      = (((leftJoin onTxHash pairs recon).map Prod.fst).map Prod.fst).filterMap selectedId := by
        rw [stakingLinkFlows, List.map_filterMap, List.filterMap_map, List.filterMap_map]
        exact congrArg (List.filterMap · _) (funext flowRow_eventId)
    _ = ((intEconomicActions economicActions blocks).filter
          fun a => blocks.rows.any (onCanonicalBlock a)).filterMap selectedId := by
        rw [reconKept, blockKept]
    _ = _ := by
        rw [intEconomicActions_eq, selectedId_lowered]

/-! ## One row per event -/

def migrationNames : List String := ["Migrated", "MigratedFromV01"]

theorem lookup_migration (name : String) :
    eventNameToKind.lookup name = some .migratedFromV01 ↔ name ∈ migrationNames := by
  by_cases known : name ∈ eventNameToKind.map Prod.fst
  · have agree : ∀ name ∈ eventNameToKind.map Prod.fst,
        eventNameToKind.lookup name = some .migratedFromV01 ↔ name ∈ migrationNames := by decide
    exact agree name known
  · have listed : ∀ name ∈ migrationNames, name ∈ eventNameToKind.map Prod.fst := by decide
    have absent := (isSome_lookup_iff eventNameToKind name).not.mpr known
    constructor
    · intro found
      exact absurd (by simp [found]) absent
    · exact fun member => absurd (listed name member) known

/-- A migration with a wallet, at a contract with a known role, on a canonical block. -/
def DoubleRow (registry : ContractRegistry) (blocks : CanonicalBlocks) (ev : DecodedEvent) : Prop :=
  ev.eventName ∈ migrationNames ∧
  orText (registry.role ev.contractAddress) "unknown" ≠ "unknown" ∧
  (extractWallet ev).isSome = true ∧
  onBlocks blocks ev.chainId ev.blockNumber = true

variable (sha256 : Digest) (registry : ContractRegistry) (blocks : CanonicalBlocks)

def eventRows (ev : DecodedEvent) : List String :=
  ((results (classifyEventAsAction sha256 ev registry)).filter (selected blocks)).map
    EconomicAction.decodedEventId

theorem eventRows_ids (ev : DecodedEvent) :
    ∀ eventId ∈ eventRows sha256 registry blocks ev, eventId = ev.decodedEventId := by
  intro eventId member
  obtain ⟨action, kept, rfl⟩ := List.mem_map.mp member
  have produced := (List.mem_filter.mp kept).1
  rw [classifyEventAsAction_eq] at produced
  cases claimed : stakingKind registry ev with
  | none => simp [claimed] at produced
  | some kind =>
      simp only [claimed] at produced
      cases extracted : extractAmountLink ev with
      | error exc => simp [extracted, results, Except.map, Except.toOption] at produced
      | ok amount =>
          simp only [extracted, Except.map, results_ok, actionsOf] at produced
          split_ifs at produced
          · simp only [List.mem_cons, List.not_mem_nil, or_false] at produced
            rcases produced with rfl | rfl <;> rfl
          · rw [List.mem_singleton.mp produced]
            rfl

theorem eventRows_nodup_iff (ev : DecodedEvent) (actions : List EconomicAction)
    (classified : classifyEventAsAction sha256 ev registry = .ok actions) :
    (eventRows sha256 registry blocks ev).Nodup ↔ ¬ DoubleRow registry blocks ev := by
  rw [eventRows, classified, results_ok]
  rw [classifyEventAsAction_eq] at classified
  unfold DoubleRow
  rw [← lookup_migration]
  cases claimed : stakingKind registry ev with
  | none =>
      rw [claimed] at classified
      obtain rfl := Except.ok.inj classified
      unfold stakingKind at claimed
      split_ifs at claimed with unknown
      · exact iff_of_true List.nodup_nil fun double => double.2.1 unknown
      · exact iff_of_true List.nodup_nil fun double => by simp [claimed] at double
  | some kind =>
      have known : stakingRole registry ev ≠ "unknown" := by
        intro unknown
        simp [stakingKind, unknown] at claimed
      have named : eventNameToKind.lookup ev.eventName = some kind := by
        rwa [stakingKind, if_neg known] at claimed
      simp only [claimed] at classified
      cases extracted : extractAmountLink ev with
      | error exc => simp [extracted, Except.map] at classified
      | ok amount =>
          simp only [extracted, Except.map, Except.ok.injEq] at classified
          obtain rfl := classified
          -- both halves of a migration carry the wallet and the block of the event
          by_cases migration : kind = .migratedFromV01
          · cases reached : onBlocks blocks ev.chainId ev.blockNumber <;>
              cases wallet : extractWallet ev <;>
              simp_all [actionsOf, v01Action, baseAction, selected, stakingRole]
          · cases reached : selected blocks
                (baseAction sha256 ev (stakingRole registry ev) kind amount) <;>
              simp [actionsOf, migration, named, reached]

theorem staking_link_flows_one_row_iff (events : List DecodedEvent)
    (distinct : (events.map DecodedEvent.decodedEventId).Nodup) (actions : List EconomicAction)
    (classified : economicActions sha256 registry events = .ok actions)
    (economicActions : List EconomicActionRow)
    (written : (economicActions.map EconomicActionRow.action).Perm actions)
    (recon : List ActionMovementReconRow)
    (unique : (recon.map ActionMovementReconRow.txHash).Nodup) :
    ((stakingLinkFlows economicActions blocks recon).map StakingLinkFlowRow.eventId).Nodup ↔
      ∀ ev ∈ events, ¬ DoubleRow registry blocks ev := by
  obtain ⟨each, rfl⟩ := (flatMapM_eq_ok_iff _ _ _).mp classified
  have ids := (written.filter (selected blocks)).map EconomicAction.decodedEventId
  have perEvent : ((events.flatMap fun ev => results (classifyEventAsAction sha256 ev registry)).filter
      (selected blocks)).map EconomicAction.decodedEventId =
      events.flatMap (eventRows sha256 registry blocks) := by
    rw [List.filter_flatMap, List.map_flatMap]
    rfl
  have apart := Keyed.disjoint_of_key DecodedEvent.decodedEventId
    (eventRows sha256 registry blocks) distinct fun ev _ ev' _ eventId member member' =>
      (eventRows_ids sha256 registry blocks ev eventId member).symm.trans
        (eventRows_ids sha256 registry blocks ev' eventId member')
  rw [stakingLinkFlows_eventIds economicActions blocks recon unique, ids.nodup_iff, perEvent,
    List.nodup_flatMap]
  constructor
  · rintro ⟨once, -⟩ ev member
    obtain ⟨part, here⟩ := each ev member
    exact (eventRows_nodup_iff sha256 registry blocks ev part here).mp (once ev member)
  · intro none
    refine ⟨fun ev member => ?_, apart⟩
    obtain ⟨part, here⟩ := each ev member
    exact (eventRows_nodup_iff sha256 registry blocks ev part here).mpr (none ev member)

/-! ### A stake and a migration -/

def stakeAndMigration : List DecodedEvent :=
  [eventAt "0xb0" "Staked" 0 [("staker", .str "0xAA"), ("amount", .int 7)],
    eventAt "0xb0" "Migrated" 1 [("wallet", .str "0xAA"), ("amount", .int 50)]]

def writtenRows (registry : ContractRegistry) (events : List DecodedEvent) : List EconomicActionRow :=
  (results (economicActions id registry events)).map fun action =>
    { action := action, runPartitionId := "run" }

def blockHundred : CanonicalBlocks where
  rows := [{ chainId := 1, blockNumber := 100, blockHash := "0x0a", parentHash := "0x09"
             timestamp := 0, runPartitionId := "run" }]
  unique := by decide

theorem staking_link_flows_stake :
    ((stakingLinkFlows (writtenRows (registryOf [("0xb0", "community_pool")])
        [eventAt "0xb0" "Staked" 0 [("staker", .str "0xAA"), ("amount", .int 7)]])
      blockHundred []).map StakingLinkFlowRow.eventId).Nodup := by
  refine (staking_link_flows_one_row_iff id (registryOf [("0xb0", "community_pool")]) blockHundred
    [eventAt "0xb0" "Staked" 0 [("staker", .str "0xAA"), ("amount", .int 7)]] (by decide)
    (results (economicActions id (registryOf [("0xb0", "community_pool")])
      [eventAt "0xb0" "Staked" 0 [("staker", .str "0xAA"), ("amount", .int 7)]])) rfl
    _ (by rw [writtenRows, List.map_map]; exact List.Perm.of_eq (List.map_id _)) [] (by decide)).mpr ?_
  intro ev member double
  rw [List.mem_singleton.mp member] at double
  exact absurd double.1 (by decide)

/-- The migration takes two rows with one event id. -/
theorem migration_two_rows :
    (stakeAndMigration.map DecodedEvent.decodedEventId).Nodup ∧
    economicActions id (registryOf [("0xb0", "community_pool")]) stakeAndMigration =
      .ok (results (economicActions id (registryOf [("0xb0", "community_pool")]) stakeAndMigration)) ∧
    ¬ ((stakingLinkFlows (writtenRows (registryOf [("0xb0", "community_pool")]) stakeAndMigration)
      blockHundred []).map StakingLinkFlowRow.eventId).Nodup :=
  ⟨by decide, rfl, by decide⟩

end EconomicLedger.Marts
