import EconomicLedger.Decode.Logs
import EconomicLedger.Decode.Words
import EconomicLedger.Ledger.DoubleEntry

/-!
# The chain of identifiers

An identifier is the digest of a tag, the identifier it builds on and a suffix without bars. The
four tags keep the four kinds apart, the suffixes tell apart what one event or one action yields,
and nothing in the chain depends on the order or the letter case of the logs.
-/

namespace EconomicLedger.Ledger
open Model Text Fallible Keyed Decode

variable (sha256 : Digest) (registry : ContractRegistry)

/-! ## Tagged identifiers -/

def taggedId (tag body suffix : String) : String := sha256 (joinBar [tag, body, suffix])

def TaggedBy (tag body id : String) : Prop := ∃ suffix, BarFree suffix ∧ id = taggedId sha256 tag body suffix

variable {sha256}

theorem taggedBy_inj (injective : Function.Injective sha256) {tag tag' body body' id : String}
    (freeTag : BarFree tag) (freeTag' : BarFree tag') (tagged : TaggedBy sha256 tag body id)
    (tagged' : TaggedBy sha256 tag' body' id) : tag = tag' ∧ body = body' := by
  obtain ⟨suffix, free, rfl⟩ := tagged
  obtain ⟨suffix', free', same⟩ := tagged'
  obtain ⟨tags, bodies, -⟩ := (joinBar_tagged_inj freeTag freeTag' free free').mp (injective same)
  exact ⟨tags, bodies⟩

theorem taggedId_ne (injective : Function.Injective sha256) {tag body suffix suffix' : String}
    (freeTag : BarFree tag) (free : BarFree suffix) (free' : BarFree suffix')
    (differ : suffix ≠ suffix') : taggedId sha256 tag body suffix ≠ taggedId sha256 tag body suffix' :=
  fun same => differ ((joinBar_tagged_inj freeTag freeTag free free').mp (injective same)).2.2

theorem disjoint_tags (injective : Function.Injective sha256) {tag tag' : String}
    (freeTag : BarFree tag) (freeTag' : BarFree tag') (differ : tag ≠ tag') {ids ids' : List String}
    (tagged : ∀ id ∈ ids, ∃ body, TaggedBy sha256 tag body id)
    (tagged' : ∀ id ∈ ids', ∃ body, TaggedBy sha256 tag' body id) : List.Disjoint ids ids' := by
  intro id member member'
  obtain ⟨body, here⟩ := tagged id member
  obtain ⟨body', there⟩ := tagged' id member'
  exact differ (taggedBy_inj injective freeTag freeTag' here there).1

variable (sha256)

/-! ## Action identifiers -/

theorem barFree_kind (kind : ActionKind) : BarFree kind.value := by cases kind <;> decide

theorem barFree_paKind (kind : PAActionKind) : BarFree kind.value := by cases kind <;> decide

theorem classifyEventAsAction_ids (ev : DecodedEvent) :
    let ids := (results (classifyEventAsAction sha256 ev registry)).map EconomicAction.actionId
    ids = [] ∨ (∃ kind, ids = [computeActionId sha256 ev kind]) ∨
      ids = [migratedV01DebitId sha256 ev, computeActionId sha256 ev .migratedFromV01] := by
  simp only [classifyEventAsAction_eq]
  cases stakingKind registry ev with
  | none => exact Or.inl rfl
  | some kind =>
      cases extractAmountLink ev with
      | error exc => exact Or.inl rfl
      | ok amount =>
          by_cases migration : kind = .migratedFromV01
          · subst migration
            exact Or.inr (Or.inr rfl)
          · refine Or.inr (Or.inl ⟨kind, ?_⟩)
            simp [Except.map, actionsOf, migration, baseAction]

theorem classifyPaEventAsAction_ids (ev : DecodedEvent) :
    let ids := (results (classifyPaEventAsAction sha256 ev registry)).map PAEconomicAction.actionId
    ids = [] ∨ ∃ kind, ids = [computePaActionId sha256 ev kind] := by
  simp only [classifyPaEventAsAction_eq]
  cases paKind registry ev with
  | none => exact Or.inl rfl
  | some kind =>
      cases pullAmount ev sourceAmountNames with
      | error exc => exact Or.inl rfl
      | ok sourceAmount =>
          cases pullAmount ev outputAmountNames with
          | error exc => exact Or.inl rfl
          | ok outputAmount => exact Or.inr ⟨kind, rfl⟩

theorem actionId_tagged (ev : DecodedEvent) (action : EconomicAction)
    (member : action ∈ results (classifyEventAsAction sha256 ev registry)) :
    TaggedBy sha256 "action" ev.decodedEventId action.actionId := by
  have here := List.mem_map_of_mem (f := EconomicAction.actionId) member
  rcases classifyEventAsAction_ids sha256 registry ev with none | ⟨kind, one⟩ | two
  · simp [none] at here
  · rw [one, List.mem_singleton] at here
    exact ⟨kind.value, barFree_kind kind, here⟩
  · rw [two, List.mem_cons, List.mem_singleton] at here
    rcases here with v01 | base
    · exact ⟨"migrated_v01_debit", by decide, v01⟩
    · exact ⟨ActionKind.migratedFromV01.value, barFree_kind _, base⟩

theorem paActionId_tagged (ev : DecodedEvent) (action : PAEconomicAction)
    (member : action ∈ results (classifyPaEventAsAction sha256 ev registry)) :
    TaggedBy sha256 "pa_action" ev.decodedEventId action.actionId := by
  have here := List.mem_map_of_mem (f := PAEconomicAction.actionId) member
  rcases classifyPaEventAsAction_ids sha256 registry ev with none | ⟨kind, one⟩
  · simp [none] at here
  · rw [one, List.mem_singleton] at here
    exact ⟨kind.value, barFree_paKind kind, here⟩

theorem actionIds_nodup (injective : Function.Injective sha256) (events : List DecodedEvent)
    (distinct : (events.map DecodedEvent.decodedEventId).Nodup) (actions : List EconomicAction)
    (classified : economicActions sha256 registry events = .ok actions) :
    (actions.map EconomicAction.actionId).Nodup := by
  obtain ⟨-, rfl⟩ := (flatMapM_eq_ok_iff _ _ _).mp classified
  rw [List.map_flatMap]
  apply nodup_flatMap_of_key DecodedEvent.decodedEventId _ distinct
  · intro ev _
    rcases classifyEventAsAction_ids sha256 registry ev with none | ⟨kind, one⟩ | two
    · simp [none]
    · simp [one]
    · have apart : migratedV01DebitId sha256 ev ≠ computeActionId sha256 ev .migratedFromV01 :=
        taggedId_ne injective (by decide) (by decide) (by decide) (by decide)
      simp [two, apart]
  · intro ev _ ev' _ id member member'
    obtain ⟨action, produced, rfl⟩ := List.mem_map.mp member
    obtain ⟨action', produced', same⟩ := List.mem_map.mp member'
    exact (taggedBy_inj injective (by decide) (by decide)
      (actionId_tagged sha256 registry ev action produced)
      (same ▸ actionId_tagged sha256 registry ev' action' produced')).2

theorem paActionIds_nodup (injective : Function.Injective sha256) (events : List DecodedEvent)
    (distinct : (events.map DecodedEvent.decodedEventId).Nodup) (actions : List PAEconomicAction)
    (classified : paEconomicActions sha256 registry events = .ok actions) :
    (actions.map PAEconomicAction.actionId).Nodup := by
  obtain ⟨-, rfl⟩ := (flatMapM_eq_ok_iff _ _ _).mp classified
  rw [List.map_flatMap]
  apply nodup_flatMap_of_key DecodedEvent.decodedEventId _ distinct
  · intro ev _
    rcases classifyPaEventAsAction_ids sha256 registry ev with none | ⟨kind, one⟩
    · simp [none]
    · simp [one]
  · intro ev _ ev' _ id member member'
    obtain ⟨action, produced, rfl⟩ := List.mem_map.mp member
    obtain ⟨action', produced', same⟩ := List.mem_map.mp member'
    exact (taggedBy_inj injective (by decide) (by decide)
      (paActionId_tagged sha256 registry ev action produced)
      (same ▸ paActionId_tagged sha256 registry ev' action' produced')).2

/-! ## Entry identifiers -/

/-- The entries of each action are identified by its identifier and their index. -/
def IdentifiesEntries {α : Type} (tag : String) (actionId : α → String)
    (book : α → List LedgerEntry) : Prop :=
  ∀ a, (book a).map LedgerEntry.entryId = [] ∨ (book a).map LedgerEntry.entryId =
    [taggedId sha256 tag (actionId a) (toString (0 : Int)),
      taggedId sha256 tag (actionId a) (toString (1 : Int))]

theorem ledgerEntries_identified (movements : EconomicAction → List TokenMovement) :
    IdentifiesEntries sha256 "ledger_entry" EconomicAction.actionId
      fun action => buildLedgerEntries sha256 action (movements action) := by
  intro action
  rcases buildLedgerEntries_cases sha256 action (movements action) with
    none | ⟨debited, credited, pair⟩
  · exact Or.inl (congrArg (List.map LedgerEntry.entryId) none)
  · exact Or.inr (congrArg (List.map LedgerEntry.entryId) pair)

theorem paLedgerEntries_identified :
    IdentifiesEntries sha256 "pa_ledger_entry" PAEconomicAction.actionId
      (buildPaLedgerEntries sha256) := by
  intro action
  rcases buildPaLedgerEntries_cases sha256 action with none | ⟨debited, credited, amount, pair⟩
  · exact Or.inl (congrArg (List.map LedgerEntry.entryId) none)
  · exact Or.inr (congrArg (List.map LedgerEntry.entryId) pair)

section Entries
variable {sha256} {α : Type} {tag : String} {actionId : α → String} {book : α → List LedgerEntry}

theorem entryId_tagged (identified : IdentifiesEntries sha256 tag actionId book) (a : α)
    (id : String) (member : id ∈ (book a).map LedgerEntry.entryId) :
    TaggedBy sha256 tag (actionId a) id := by
  rcases identified a with none | two
  · simp [none] at member
  · rw [two, List.mem_cons, List.mem_singleton] at member
    rcases member with debit | credit
    · exact ⟨_, barFree_int _, debit⟩
    · exact ⟨_, barFree_int _, credit⟩

theorem entryIds_nodup (injective : Function.Injective sha256) (freeTag : BarFree tag)
    (identified : IdentifiesEntries sha256 tag actionId book) (actions : List α)
    (distinct : (actions.map actionId).Nodup) :
    ((actions.flatMap book).map LedgerEntry.entryId).Nodup := by
  rw [List.map_flatMap]
  apply nodup_flatMap_of_key actionId _ distinct
  · intro a _
    rcases identified a with none | two
    · simp [none]
    · have apart : taggedId sha256 tag (actionId a) (toString (0 : Int)) ≠
          taggedId sha256 tag (actionId a) (toString (1 : Int)) :=
        taggedId_ne injective freeTag (barFree_int _) (barFree_int _) (by simp)
      simp only [two, List.nodup_cons, List.mem_singleton, apart, not_false_eq_true,
        List.not_mem_nil, List.nodup_nil, and_self]
  · intro a _ a' _ id member member'
    exact (taggedBy_inj injective freeTag freeTag (entryId_tagged identified a id member)
      (entryId_tagged identified a' id member')).2

theorem entryIds_tagged (identified : IdentifiesEntries sha256 tag actionId book)
    (actions : List α) :
    ∀ id ∈ (actions.flatMap book).map LedgerEntry.entryId, ∃ body, TaggedBy sha256 tag body id := by
  intro id member
  rw [List.map_flatMap] at member
  obtain ⟨a, -, here⟩ := List.mem_flatMap.mp member
  exact ⟨actionId a, entryId_tagged identified a id here⟩

end Entries

/-! ## The identifiers of a history -/

variable (movements : EconomicAction → List TokenMovement)

def historyIds (events : List DecodedEvent) : Py (List String) := do
  let actions ← economicActions sha256 registry events
  let paActions ← paEconomicActions sha256 registry events
  return actions.map EconomicAction.actionId ++ (paActions.map PAEconomicAction.actionId ++
    ((ledgerEntries sha256 movements actions).map LedgerEntry.entryId ++
      (paLedgerEntries sha256 paActions).map LedgerEntry.entryId))

theorem historyIds_nodup (injective : Function.Injective sha256) (events : List DecodedEvent)
    (distinct : (events.map DecodedEvent.decodedEventId).Nodup) (ids : List String)
    (computed : historyIds sha256 registry movements events = .ok ids) : ids.Nodup := by
  simp only [historyIds, bind_eq_ok_iff, pure_eq_ok_iff] at computed
  obtain ⟨actions, classified, paActions, paClassified, rfl⟩ := computed
  have staking := ledgerEntries_identified sha256 movements
  have pa := paLedgerEntries_identified sha256
  have actionTag : ∀ id ∈ actions.map EconomicAction.actionId,
      ∃ body, TaggedBy sha256 "action" body id := by
    intro id member
    obtain ⟨action, isAction, rfl⟩ := List.mem_map.mp member
    obtain ⟨-, rfl⟩ := (flatMapM_eq_ok_iff _ _ _).mp classified
    obtain ⟨ev, -, produced⟩ := List.mem_flatMap.mp isAction
    exact ⟨_, actionId_tagged sha256 registry ev action produced⟩
  have paActionTag : ∀ id ∈ paActions.map PAEconomicAction.actionId,
      ∃ body, TaggedBy sha256 "pa_action" body id := by
    intro id member
    obtain ⟨action, isAction, rfl⟩ := List.mem_map.mp member
    obtain ⟨-, rfl⟩ := (flatMapM_eq_ok_iff _ _ _).mp paClassified
    obtain ⟨ev, -, produced⟩ := List.mem_flatMap.mp isAction
    exact ⟨_, paActionId_tagged sha256 registry ev action produced⟩
  have distinctActions := actionIds_nodup sha256 registry injective events distinct actions classified
  have distinctPa := paActionIds_nodup sha256 registry injective events distinct paActions paClassified
  have entryTag := entryIds_tagged staking actions
  have paEntryTag := entryIds_tagged pa paActions
  refine distinctActions.append (distinctPa.append
    ((entryIds_nodup injective (by decide) staking actions distinctActions).append
      (entryIds_nodup injective (by decide) pa paActions distinctPa) ?_) ?_) ?_
  · exact disjoint_tags injective (by decide) (by decide) (by decide) entryTag paEntryTag
  · rw [List.disjoint_append_right]
    exact ⟨disjoint_tags injective (by decide) (by decide) (by decide) paActionTag entryTag,
      disjoint_tags injective (by decide) (by decide) (by decide) paActionTag paEntryTag⟩
  · rw [List.disjoint_append_right, List.disjoint_append_right]
    exact ⟨disjoint_tags injective (by decide) (by decide) (by decide) actionTag paActionTag,
      disjoint_tags injective (by decide) (by decide) (by decide) actionTag entryTag,
      disjoint_tags injective (by decide) (by decide) (by decide) actionTag paEntryTag⟩

theorem historyIds_ok (events : List DecodedEvent) (integral : ∀ ev ∈ events, IntegerAmounts ev) :
    ∃ ids, historyIds sha256 registry movements events = .ok ids := by
  obtain ⟨actions, classified⟩ := economicActions_ok sha256 registry events integral
  obtain ⟨paActions, paClassified⟩ := paEconomicActions_ok sha256 registry events integral
  exact ⟨_, by simp only [historyIds, classified, paClassified, bind, Except.bind]; rfl⟩

theorem historyIds_perm (movements' : EconomicAction → List TokenMovement)
    (events events' : List DecodedEvent) (reordered : events'.Perm events) (ids : List String)
    (computed : historyIds sha256 registry movements events = .ok ids) :
    ∃ ids', historyIds sha256 registry movements' events' = .ok ids' ∧ ids'.Perm ids := by
  simp only [historyIds, bind_eq_ok_iff, pure_eq_ok_iff] at computed ⊢
  obtain ⟨actions, classified, paActions, paClassified, rfl⟩ := computed
  obtain ⟨each, rfl⟩ := (flatMapM_eq_ok_iff _ _ _).mp classified
  obtain ⟨paEach, rfl⟩ := (flatMapM_eq_ok_iff _ _ _).mp paClassified
  have actions := reordered.flatMap_right
    fun ev => results (classifyEventAsAction sha256 ev registry)
  have paActions := reordered.flatMap_right
    fun ev => results (classifyPaEventAsAction sha256 ev registry)
  refine ⟨_, ⟨_, exists_flatMapM _ _ fun ev member => each ev (reordered.mem_iff.mp member),
    _, exists_flatMapM _ _ fun ev member => paEach ev (reordered.mem_iff.mp member), rfl⟩, ?_⟩
  exact (actions.map _).append ((paActions.map _).append
    (((actions.flatMap_right _).map _).append ((paActions.flatMap_right _).map _)))

/-! ## From logs to identifiers -/

variable (libs : ExternalLibs) (abis : AbiRegistry)

def logIds (logs : List RawLog) : Py (List String) := do
  let events ← decodedEvents sha256 libs abis logs
  historyIds sha256 registry movements events

def IntegerLogs (logs : List RawLog) : Prop :=
  ∀ events, decodedEvents sha256 libs abis logs = .ok events → ∀ ev ∈ events, IntegerAmounts ev

instance (logs : List RawLog) : Decidable (IntegerLogs sha256 libs abis logs) :=
  match decoded : decodedEvents sha256 libs abis logs with
  | .ok events =>
      decidable_of_iff (∀ ev ∈ events, IntegerAmounts ev)
        ⟨fun all _ same => by
          rw [decoded, Except.ok.injEq] at same
          exact same ▸ all, fun all => all events decoded⟩
  | .error exc => isTrue fun _ same => by
      rw [decoded] at same
      cases same

theorem identity_chain (injective : Function.Injective sha256) (logs : List RawLog)
    (distinct : (logs.map logPosition).Nodup) (decode : AllDecode sha256 libs abis logs)
    (integral : IntegerLogs sha256 libs abis logs) :
    ∃ ids, logIds sha256 registry movements libs abis logs = .ok ids ∧ ids.Nodup ∧
      ∀ logs', Rerun logs logs' → ∀ movements',
        ∃ ids', logIds sha256 registry movements' libs abis logs' = .ok ids' ∧ ids'.Perm ids := by
  obtain ⟨events, each⟩ := decodable_of_allDecode sha256 libs abis logs decode
  have decoded := decodedEvents_of_decodable sha256 libs abis logs events each
  obtain ⟨ids, computed⟩ := historyIds_ok sha256 registry movements events (integral events decoded)
  have distinctEvents := decodedEventId_nodup sha256 libs injective abis logs distinct events each
  refine ⟨ids, (bind_eq_ok_iff _ _ _).mpr ⟨events, decoded, computed⟩,
    historyIds_nodup sha256 registry movements injective events distinctEvents ids computed, ?_⟩
  intro logs' rerun movements'
  obtain ⟨events', each', reordered⟩ := decodable_rerun sha256 libs abis logs logs' rerun events each
  obtain ⟨ids', computed', same⟩ :=
    historyIds_perm sha256 registry movements movements' events events' reordered ids computed
  have decoded' := decodedEvents_of_decodable sha256 libs abis logs' events' each'
  exact ⟨ids', (bind_eq_ok_iff _ _ _).mpr ⟨events', decoded', computed'⟩, same⟩

/-! ### Two stakes of one transaction -/

def stakedAbi : Abi where
  abiVersion := "v1"
  jsonAbi := [{
    type := some "event"
    name := some "Staked"
    anonymous := false
    inputs := [{ name := "staker", type := "address", indexed := true, components := [] },
      { name := "amount", type := "uint256", indexed := false, components := [] }] }]

def stakingPool : String := "0xbc10f2e862ed4502144c7d632a3459f49dfcdb5e"

def stakedLog (logIndex : Int) : RawLog :=
  { chainId := 1
    blockNumber := 100
    blockHash := "0x0a"
    txHash := "0xAB"
    txIndex := 0
    logIndex := logIndex
    address := stakingPool
    topics := ["0x9e71bc8eea02a63969f509818f2dafb9254532904319f9dbda79b67bd34a5f3d",
      "0x000000000000000000000000aaaaaaaaaaaaaaaaaaaaaaaaaaaaaaaaaaaaaaaa"]
    data := "0x0000000000000000000000000000000000000000000000000000000000000007" }

def stakingPhase : Phase :=
  { contractAddress := stakingPool, abiVersion := "v1", fromBlock := 0, toBlock := none }

def stakingAbis : AbiRegistry := ⟨Dict.ofList [(stakingPool, [(stakingPhase, stakedAbi)])]⟩

theorem identity_chain_two_stakes :
    ∃ ids, logIds id (registryOf [(stakingPool, "community_pool")]) (fun _ => []) wordLibs
        stakingAbis [stakedLog 0, stakedLog 1] = .ok ids ∧ ids.Nodup ∧
      ∀ logs', Rerun [stakedLog 0, stakedLog 1] logs' → ∀ movements',
        ∃ ids', logIds id (registryOf [(stakingPool, "community_pool")]) movements' wordLibs
          stakingAbis logs' = .ok ids' ∧ ids'.Perm ids := by
  -- checked together, since each part decodes the two logs
  have inputs : ([stakedLog 0, stakedLog 1].map logPosition).Nodup ∧
      AllDecode id wordLibs stakingAbis [stakedLog 0, stakedLog 1] ∧
      IntegerLogs id wordLibs stakingAbis [stakedLog 0, stakedLog 1] := by
    decide +kernel
  obtain ⟨distinct, decode, integral⟩ := inputs
  exact identity_chain id _ _ wordLibs stakingAbis Function.injective_id _ distinct decode integral

end EconomicLedger.Ledger
