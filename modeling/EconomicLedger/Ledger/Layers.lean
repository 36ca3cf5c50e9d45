import EconomicLedger.Ledger.DoubleEntry

/-!
# Which protocol layer claims an event

The staking layer takes any role it is given, the Payment Abstraction layer the roles that start
with `pa_`. On a `pa_` role an event is claimed twice exactly when its name is in both name maps.
-/

namespace EconomicLedger.Ledger
open Model Fallible

variable (sha256 : Digest) (registry : ContractRegistry)

def Claimed {α : Type} (classified : Py (List α)) : Prop := results classified ≠ []

/-- No event is classified by both layers, nor booked by both. -/
structure LayersDisjoint (ev : DecodedEvent) : Prop where
  actions : ¬ (Claimed (classifyEventAsAction sha256 ev registry) ∧
    Claimed (classifyPaEventAsAction sha256 ev registry))
  entries : ∀ movements, ¬ (
    ledgerEntries sha256 movements (results (classifyEventAsAction sha256 ev registry)) ≠ [] ∧
    paLedgerEntries sha256 (results (classifyPaEventAsAction sha256 ev registry)) ≠ [])

def sharedNames : List String := ["Withdrawn", "ConfigSet"]

/-- A shared event name on a Payment Abstraction contract, with amounts both layers can read. -/
def DoublyClaimed (ev : DecodedEvent) : Prop :=
  Text.startsWith (orText (registry.role ev.contractAddress) "") "pa_" = true ∧
  ev.eventName ∈ sharedNames ∧
  (extractAmountLink ev).isOk = true ∧
  (pullAmount ev sourceAmountNames).isOk = true ∧
  (pullAmount ev outputAmountNames).isOk = true

theorem isSome_lookup_iff {α : Type} (table : List (String × α)) (name : String) :
    (table.lookup name).isSome ↔ name ∈ table.map Prod.fst := by
  rw [List.lookup_isSome_iff, List.mem_map]
  exact exists_congr fun entry => and_congr_right fun _ => by rw [beq_iff_eq, eq_comm]

theorem mem_sharedNames (name : String) :
    name ∈ sharedNames ↔
      (eventNameToKind.lookup name).isSome ∧ (paEventNameToKind.lookup name).isSome := by
  rw [isSome_lookup_iff, isSome_lookup_iff]
  constructor
  · have shared : ∀ name ∈ sharedNames,
        name ∈ eventNameToKind.map Prod.fst ∧ name ∈ paEventNameToKind.map Prod.fst := by decide
    exact shared name
  · rintro ⟨staking, pa⟩
    have only : ∀ name ∈ eventNameToKind.map Prod.fst,
        name ∈ paEventNameToKind.map Prod.fst → name ∈ sharedNames := by decide
    exact only name staking pa

theorem stakingRole_known (ev : DecodedEvent)
    (pa : Text.startsWith (paRole registry ev) "pa_" = true) :
    stakingRole registry ev ≠ "unknown" := by
  -- neither fallback for an unknown role starts with pa_
  unfold paRole at pa
  unfold stakingRole
  intro unknown
  cases role : registry.role ev.contractAddress with
  | none =>
      rw [role] at pa
      exact absurd pa (by decide)
  | some text =>
      rw [role] at pa unknown
      by_cases blank : text = ""
      · simp only [orText, blank, if_true] at pa
        exact absurd pa (by decide)
      · simp only [orText, blank, if_false] at pa unknown
        rw [unknown] at pa
        exact absurd pa (by decide)

theorem claimed_staking_iff (ev : DecodedEvent) :
    Claimed (classifyEventAsAction sha256 ev registry) ↔
      (stakingKind registry ev).isSome ∧ (extractAmountLink ev).isOk = true := by
  rw [classifyEventAsAction_eq]
  cases stakingKind registry ev with
  | none => simp [Claimed]
  | some kind =>
      cases extractAmountLink ev with
      | error exc => simp [Claimed, Except.map, Except.isOk, Except.toBool, results, Except.toOption]
      | ok amount => cases kind <;> simp [Claimed, Except.map, Except.isOk, Except.toBool, actionsOf]

theorem claimed_pa_iff (ev : DecodedEvent) :
    Claimed (classifyPaEventAsAction sha256 ev registry) ↔
      (paKind registry ev).isSome ∧ (pullAmount ev sourceAmountNames).isOk = true ∧
        (pullAmount ev outputAmountNames).isOk = true := by
  rw [classifyPaEventAsAction_eq]
  cases paKind registry ev with
  | none => simp [Claimed]
  | some kind =>
      cases pullAmount ev sourceAmountNames with
      | error exc =>
          simp [Claimed, bind, Except.bind, Except.isOk, Except.toBool, results, Except.toOption]
      | ok sourceAmount =>
          cases pullAmount ev outputAmountNames with
          | error exc =>
              simp [Claimed, bind, Except.bind, Except.isOk, Except.toBool, results, Except.toOption]
          | ok outputAmount =>
              simp [Claimed, bind, Except.bind, pure, Except.pure, Except.isOk, Except.toBool]

theorem doublyClaimed_iff (ev : DecodedEvent) :
    DoublyClaimed registry ev ↔ Claimed (classifyEventAsAction sha256 ev registry) ∧
      Claimed (classifyPaEventAsAction sha256 ev registry) := by
  rw [claimed_staking_iff, claimed_pa_iff]
  unfold DoublyClaimed
  rw [mem_sharedNames]
  by_cases pa : Text.startsWith (paRole registry ev) "pa_" = true
  · have known := stakingRole_known registry ev pa
    have claimedPa : paKind registry ev = paEventNameToKind.lookup ev.eventName := if_pos pa
    have claimed : stakingKind registry ev = eventNameToKind.lookup ev.eventName := if_neg known
    rw [claimedPa, claimed]
    unfold paRole at pa
    simp only [pa]
    tauto
  · have foreign : paKind registry ev = none := if_neg pa
    unfold paRole at pa
    simp [foreign, pa]

theorem layersDisjoint_iff (ev : DecodedEvent) :
    LayersDisjoint sha256 registry ev ↔ ¬ DoublyClaimed registry ev := by
  rw [doublyClaimed_iff sha256]
  constructor
  · exact LayersDisjoint.actions
  · intro apart
    refine ⟨apart, fun movements ⟨staking, pa⟩ => apart ⟨?_, ?_⟩⟩
    · intro none
      exact staking (by rw [none]; rfl)
    · intro none
      exact pa (by rw [none]; rfl)

/-- A withdrawal from the reserves is booked by both layers. -/
theorem withdrawn_from_reserves :
    ¬ LayersDisjoint id (registryOf [("0xb1", "pa_reserves")])
      (eventAt "0xb1" "Withdrawn" 0 [("amount", .int 5)]) :=
  fun disjoint => disjoint.entries (fun _ => []) (by decide)

end EconomicLedger.Ledger
