import EconomicLedger.Lib.Fallible
import EconomicLedger.Model.PaymentAbstraction

/-!
# Ledgers of a history

Classification and ledger building over any list of events. Classification raises only where an
amount parameter is not an integer.
-/

namespace EconomicLedger.Ledger
open Model Fallible

variable (sha256 : Digest) (registry : ContractRegistry)

def economicActions (events : List DecodedEvent) : Py (List EconomicAction) :=
  flatMapM (classifyEventAsAction sha256 · registry) events

def paEconomicActions (events : List DecodedEvent) : Py (List PAEconomicAction) :=
  flatMapM (classifyPaEventAsAction sha256 · registry) events

def ledgerEntries (movements : EconomicAction → List TokenMovement) (actions : List EconomicAction) :
    List LedgerEntry :=
  actions.flatMap fun action => buildLedgerEntries sha256 action (movements action)

def paLedgerEntries (actions : List PAEconomicAction) : List PALedgerEntry :=
  actions.flatMap (buildPaLedgerEntries sha256)

/-! ## Integer amounts -/

/-- `v is None or isinstance(v, int)`. -/
def isAmount : Value → Bool
  | .none | .int _ | .bool _ => true
  | _ => false

def amountNames : List String := amountLinkKeys ++ sourceAmountNames ++ outputAmountNames

def IntegerAmounts (ev : DecodedEvent) : Prop :=
  ∀ source ∈ [ev.indexedParams, ev.dataParams], ∀ name ∈ amountNames,
    (source.get? name).all isAmount = true

instance (ev : DecodedEvent) : Decidable (IntegerAmounts ev) :=
  inferInstanceAs (Decidable (∀ source ∈ [ev.indexedParams, ev.dataParams], ∀ name ∈ amountNames,
    (source.get? name).all isAmount = true))

theorem toInt_of_isAmount (value : Value) (real : value ≠ .none) (amount : isAmount value = true) :
    ∃ n, value.toInt = .ok n := by
  cases value with
  | none => exact absurd rfl real
  | int n => exact ⟨n, rfl⟩
  | bool b => exact ⟨_, rfl⟩
  | str s | bytes bs | seq vs => simp [isAmount] at amount

theorem firstPresent_eq_some (lookups : List (Dict String Value × String)) (value : Value)
    (found : firstPresent lookups = some value) :
    value ≠ .none ∧ ∃ lookup ∈ lookups, lookup.1.get? lookup.2 = some value := by
  obtain ⟨lookup, member, here⟩ := List.exists_of_findSome?_eq_some found
  cases present : lookup.1.get? lookup.2 with
  | none => simp [present] at here
  | some own =>
      cases own <;> simp only [present, Option.some.injEq, reduceCtorEq] at here
      all_goals
        subst here
        exact ⟨by simp, lookup, member, present⟩

theorem amount_ok (ev : DecodedEvent) (integral : IntegerAmounts ev)
    (lookups : List (Dict String Value × String))
    (own : ∀ lookup ∈ lookups,
      lookup.1 ∈ [ev.indexedParams, ev.dataParams] ∧ lookup.2 ∈ amountNames) :
    ∃ n, (match firstPresent lookups with
      | some value => value.toInt
      | none => .ok 0) = Except.ok (ε := PyError) n := by
  cases found : firstPresent lookups with
  | none => exact ⟨0, rfl⟩
  | some value =>
      obtain ⟨real, lookup, member, here⟩ := firstPresent_eq_some lookups value found
      obtain ⟨source, name⟩ := own lookup member
      have amount := integral lookup.1 source lookup.2 name
      rw [here, Option.all_some] at amount
      exact toInt_of_isAmount value real amount

theorem mem_sourceMajor (ev : DecodedEvent) (lookup : Dict String Value × String)
    (member : lookup ∈ sourceMajor ev amountLinkKeys) :
    lookup.1 ∈ [ev.indexedParams, ev.dataParams] ∧ lookup.2 ∈ amountNames := by
  obtain ⟨source, isSource, isLookup⟩ := List.mem_flatMap.mp member
  obtain ⟨name, isName, rfl⟩ := List.mem_map.mp isLookup
  exact ⟨isSource, List.mem_append_left _ (List.mem_append_left _ isName)⟩

theorem mem_nameMajor (ev : DecodedEvent) (names : List String) (known : names ⊆ amountNames)
    (lookup : Dict String Value × String) (member : lookup ∈ nameMajor ev names) :
    lookup.1 ∈ [ev.indexedParams, ev.dataParams] ∧ lookup.2 ∈ amountNames := by
  obtain ⟨name, isName, isLookup⟩ := List.mem_flatMap.mp member
  simp only [List.mem_cons, List.not_mem_nil, or_false] at isLookup ⊢
  rcases isLookup with rfl | rfl
  · exact ⟨Or.inl rfl, known isName⟩
  · exact ⟨Or.inr rfl, known isName⟩

theorem sourceAmountNames_subset : sourceAmountNames ⊆ amountNames :=
  fun _ isName => List.mem_append_left _ (List.mem_append_right _ isName)

theorem outputAmountNames_subset : outputAmountNames ⊆ amountNames := List.subset_append_right _ _

theorem extractAmountLink_ok (ev : DecodedEvent) (integral : IntegerAmounts ev) :
    ∃ n, extractAmountLink ev = .ok n := amount_ok ev integral _ (mem_sourceMajor ev)

theorem pullAmount_ok (ev : DecodedEvent) (integral : IntegerAmounts ev) (names : List String)
    (known : names ⊆ amountNames) : ∃ n, pullAmount ev names = .ok n :=
  amount_ok ev integral _ (mem_nameMajor ev names known)

/-! ## Classification -/

def stakingRole (ev : DecodedEvent) : String := orText (registry.role ev.contractAddress) "unknown"

/-- The kind under which the staking layer claims an event, if it does. -/
def stakingKind (ev : DecodedEvent) : Option ActionKind :=
  if stakingRole registry ev = "unknown" then none else eventNameToKind.lookup ev.eventName

/-- The synthetic half of a migration. -/
def v01Action (base : EconomicAction) (ev : DecodedEvent) : EconomicAction :=
  { base with actionId := migratedV01DebitId sha256 ev, poolRole := "staking_pool_v01" }

def actionsOf (ev : DecodedEvent) (kind : ActionKind) (amount : Int) : List EconomicAction :=
  let base := baseAction sha256 ev (stakingRole registry ev) kind amount
  if kind = .migratedFromV01 then [v01Action sha256 base ev, base] else [base]

theorem classifyEventAsAction_eq (ev : DecodedEvent) :
    classifyEventAsAction sha256 ev registry =
      match stakingKind registry ev with
      | none => .ok []
      | some kind => (extractAmountLink ev).map (actionsOf sha256 registry ev kind) := by
  simp only [classifyEventAsAction, stakingKind, stakingRole]
  by_cases unknown : orText (registry.role ev.contractAddress) "unknown" = "unknown"
  · simp only [unknown, if_true]
  · simp only [unknown, if_false]
    cases eventNameToKind.lookup ev.eventName with
    | none => rfl
    | some kind =>
        cases extractAmountLink ev with
        | error exc => rfl
        | ok amount => cases kind <;> rfl

def paRole (ev : DecodedEvent) : String := orText (registry.role ev.contractAddress) ""

def paKind (ev : DecodedEvent) : Option PAActionKind :=
  if Text.startsWith (paRole registry ev) "pa_" then paEventNameToKind.lookup ev.eventName else none

def paActionOf (ev : DecodedEvent) (kind : PAActionKind) (sourceAmount outputAmount : Int) :
    PAEconomicAction :=
  { actionId := computePaActionId sha256 ev kind
    kind := kind
    chainId := ev.chainId
    blockNumber := ev.blockNumber
    txHash := ev.txHash
    logIndex := ev.logIndex
    contractAddress := ev.contractAddress
    contractRole := paRole registry ev
    sourceToken := pullToken ev ["sourceToken", "tokenIn", "token"]
    outputToken := pullToken ev ["outputToken", "tokenOut", "linkToken"]
    sourceAmount := sourceAmount
    outputAmount := if outputAmount = 0 then sourceAmount else outputAmount
    counterparty := pullToken ev ["from", "sender", "to", "recipient", "depositor"]
    sourceEventSignature := ev.eventSignature
    rawLogId := ev.rawLogId
    decodedEventId := ev.decodedEventId }

theorem classifyPaEventAsAction_eq (ev : DecodedEvent) :
    classifyPaEventAsAction sha256 ev registry =
      match paKind registry ev with
      | none => .ok []
      | some kind => do
          let sourceAmount ← pullAmount ev sourceAmountNames
          let outputAmount ← pullAmount ev outputAmountNames
          return [paActionOf sha256 registry ev kind sourceAmount outputAmount] := by
  simp only [classifyPaEventAsAction, paKind, paRole]
  by_cases claimed : Text.startsWith (orText (registry.role ev.contractAddress) "") "pa_" = true
  · simp only [claimed, if_true]
    cases paEventNameToKind.lookup ev.eventName <;> rfl
  · simp only [claimed, if_false, Bool.false_eq_true]

/-! ## Totality -/

theorem classifyEventAsAction_ok (ev : DecodedEvent) (integral : IntegerAmounts ev) :
    ∃ actions, classifyEventAsAction sha256 ev registry = .ok actions := by
  obtain ⟨amount, extracted⟩ := extractAmountLink_ok ev integral
  rw [classifyEventAsAction_eq, extracted]
  cases stakingKind registry ev with
  | none => exact ⟨_, rfl⟩
  | some kind => exact ⟨_, rfl⟩

theorem classifyPaEventAsAction_ok (ev : DecodedEvent) (integral : IntegerAmounts ev) :
    ∃ actions, classifyPaEventAsAction sha256 ev registry = .ok actions := by
  obtain ⟨sourceAmount, pulledSource⟩ := pullAmount_ok ev integral _ sourceAmountNames_subset
  obtain ⟨outputAmount, pulledOutput⟩ := pullAmount_ok ev integral _ outputAmountNames_subset
  rw [classifyPaEventAsAction_eq, pulledSource, pulledOutput]
  cases paKind registry ev with
  | none => exact ⟨_, rfl⟩
  | some kind => exact ⟨_, rfl⟩

theorem economicActions_ok (events : List DecodedEvent)
    (integral : ∀ ev ∈ events, IntegerAmounts ev) :
    ∃ actions, economicActions sha256 registry events = .ok actions :=
  ⟨_, exists_flatMapM _ _ fun ev member =>
    classifyEventAsAction_ok sha256 registry ev (integral ev member)⟩

theorem paEconomicActions_ok (events : List DecodedEvent)
    (integral : ∀ ev ∈ events, IntegerAmounts ev) :
    ∃ actions, paEconomicActions sha256 registry events = .ok actions :=
  ⟨_, exists_flatMapM _ _ fun ev member =>
    classifyPaEventAsAction_ok sha256 registry ev (integral ev member)⟩

/-! ## Small inputs -/

def registryOf (roles : List (String × String)) : ContractRegistry :=
  ⟨Dict.ofList (roles.map fun (address, role) =>
    (address, { contractAddress := address, role := role, deployedBlock := 0, phases := [] }))⟩

def eventAt (contract name : String) (logIndex : Int) (params : List (String × Value)) :
    DecodedEvent :=
  { rawLogId := "raw" ++ toString logIndex
    decodedEventId := "event" ++ toString logIndex
    chainId := 1
    blockNumber := 100
    txHash := "0x01"
    logIndex := logIndex
    contractAddress := contract
    eventName := name
    eventSignature := "0x02"
    indexedParams := Dict.empty
    dataParams := Dict.ofList params }

end EconomicLedger.Ledger
