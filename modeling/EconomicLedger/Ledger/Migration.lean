import EconomicLedger.Ledger.Accounts

/-!
# Migrations through the clearing account

A migration is two actions that meet at `migration_proxy`. They are told apart by the pool role alone,
so under the role of the v0.1 pool both are booked as the v0.1 half.
-/

namespace EconomicLedger.Ledger
open Model

variable (sha256 : Digest) (registry : ContractRegistry)

def totalAt (direction : Direction) (account : String) (entries : List LedgerEntry) : Int :=
  totalOf direction (entries.filter (·.account = account))

theorem accountNet_eq_totals (account : String) (entries : List LedgerEntry) :
    accountNet account entries = totalAt .credit account entries - totalAt .debit account entries := rfl

theorem totalAt_append (direction : Direction) (account : String) (left right : List LedgerEntry) :
    totalAt direction account (left ++ right) = totalAt direction account left + totalAt direction account right := by
  simp only [totalAt, totalOf, List.filter_append, List.map_append, List.sum_append]

def sideOf (direction : Direction) (debited credited : String) : String :=
  match direction with
  | .debit => debited
  | .credit => credited

@[simp] theorem sideOf_debit (debited credited : String) : sideOf .debit debited credited = debited := rfl

@[simp] theorem sideOf_credit (debited credited : String) : sideOf .credit debited credited = credited := rfl

theorem totalAt_pair (action : EconomicAction) (direction : Direction) (account debited credited : String) :
    totalAt direction account [makeEntry sha256 action 0 debited .debit action.amountLink,
        makeEntry sha256 action 1 credited .credit action.amountLink] =
      if sideOf direction debited credited = account then action.amountLink
      else 0 := by
  cases direction <;> by_cases debit : debited = account <;> by_cases credit : credited = account <;>
    simp [totalAt, totalOf, makeEntry, debit, credit]

theorem totalAt_buildLedgerEntries (action : EconomicAction) (movements : List TokenMovement)
    {debited credited : String} (booked : bookedAccounts action = some (debited, credited))
    (direction : Direction) (account : String) :
    totalAt direction account (buildLedgerEntries sha256 action movements) =
      if sideOf direction debited credited = account then action.amountLink
      else 0 := by
  rw [buildLedgerEntries_eq, booked]
  split
  next nothing =>
    rw [nothing, ite_self]
    rfl
  next => exact totalAt_pair sha256 action direction account debited credited

/-! ## The two halves -/

def migrationNames : List String := ["Migrated", "MigratedFromV01"]

def v01Account (ev : DecodedEvent) : String := "staking_pool_v01:" ++ ev.contractAddress

def poolAccountOf (ev : DecodedEvent) : String := stakingRole registry ev ++ ":" ++ ev.contractAddress

/-- The v0.1 pool gives the amount, the pool of the emitting contract takes it, and nothing stays
between them. -/
structure NetsOut (ev : DecodedEvent) (amount : Int) (entries : List LedgerEntry) : Prop where
  proxy : accountNet "migration_proxy" entries = 0
  debited : totalAt .debit (v01Account ev) entries = amount
  credited : totalAt .credit (poolAccountOf registry ev) entries = amount

theorem ne_proxy (role contract : String) : role ++ ":" ++ contract ≠ "migration_proxy" := by
  intro same
  have colon : ':' ∈ (role ++ ":" ++ contract).toList := by simp
  rw [same] at colon
  exact absurd colon (by decide)

variable (ev : DecodedEvent) (amount : Int) (movements : EconomicAction → List TokenMovement)

theorem bookedAccounts_v01 : bookedAccounts (v01Action sha256
      (baseAction sha256 ev (stakingRole registry ev) .migratedFromV01 amount) ev) =
    some (v01Account ev, "migration_proxy") := rfl

theorem bookedAccounts_base : bookedAccounts (baseAction sha256 ev (stakingRole registry ev)
      .migratedFromV01 amount) =
    if stakingRole registry ev = "staking_pool_v01" then some (v01Account ev, "migration_proxy")
    else some ("migration_proxy", poolAccountOf registry ev) := rfl

theorem totalAt_migration {debited credited : String} (booked : bookedAccounts
      (baseAction sha256 ev (stakingRole registry ev) .migratedFromV01 amount) = some (debited, credited))
    (direction : Direction) (account : String) :
    totalAt direction account
        (ledgerEntries sha256 movements (actionsOf sha256 registry ev .migratedFromV01 amount)) =
      (if sideOf direction (v01Account ev) "migration_proxy" = account
        then amount else 0) +
      if sideOf direction debited credited = account then amount else 0 := by
  let base := baseAction sha256 ev (stakingRole registry ev) .migratedFromV01 amount
  have entries : ledgerEntries sha256 movements (actionsOf sha256 registry ev .migratedFromV01 amount) =
      buildLedgerEntries sha256 (v01Action sha256 base ev) (movements (v01Action sha256 base ev)) ++
        buildLedgerEntries sha256 base (movements base) := by
    rw [ledgerEntries, actionsOf, if_pos rfl, List.flatMap_cons, List.flatMap_singleton]
  rw [entries, totalAt_append,
    totalAt_buildLedgerEntries sha256 _ _ (bookedAccounts_v01 sha256 registry ev amount),
    totalAt_buildLedgerEntries sha256 _ _ booked]
  rfl

theorem netsOut_iff_of_known : NetsOut registry ev amount
      (ledgerEntries sha256 movements (actionsOf sha256 registry ev .migratedFromV01 amount)) ↔
    amount = 0 ∨ stakingRole registry ev ≠ "staking_pool_v01" := by
  have v01 : v01Account ev ≠ "migration_proxy" := ne_proxy "staking_pool_v01" ev.contractAddress
  have pool : poolAccountOf registry ev ≠ "migration_proxy" := ne_proxy _ _
  by_cases old : stakingRole registry ev = "staking_pool_v01"
  · have booked := bookedAccounts_base sha256 registry ev amount
    rw [if_pos old] at booked
    have totals := totalAt_migration sha256 registry ev amount movements booked
    constructor
    · intro nets
      have net := nets.proxy
      rw [accountNet_eq_totals, totals, totals] at net
      simp only [sideOf_debit, sideOf_credit, v01, if_true, if_false] at net
      exact Or.inl (by omega)
    · rintro (rfl | other)
      · constructor
        · rw [accountNet_eq_totals, totals, totals, ite_self, ite_self]
          rfl
        · rw [totals, ite_self]
          rfl
        · rw [totals, ite_self]
          rfl
      · exact absurd old other
  · have booked := bookedAccounts_base sha256 registry ev amount
    rw [if_neg old] at booked
    have totals := totalAt_migration sha256 registry ev amount movements booked
    refine ⟨fun _ => Or.inr old, fun _ => ⟨?_, ?_, ?_⟩⟩
    · rw [accountNet_eq_totals, totals, totals]
      simp [v01, pool]
    · rw [totals]
      simp [v01.symm]
    · rw [totals]
      simp [pool.symm]

/-- A migration nets out exactly where it moves nothing or comes from a contract with a role that is
not that of the v0.1 pool. -/
theorem migration_nets_out_iff (named : ev.eventName ∈ migrationNames)
    (extracted : extractAmountLink ev = .ok amount) :
    (∃ actions, classifyEventAsAction sha256 ev registry = .ok actions ∧
      NetsOut registry ev amount (ledgerEntries sha256 movements actions)) ↔
    amount = 0 ∨ stakingRole registry ev ≠ "unknown" ∧ stakingRole registry ev ≠ "staking_pool_v01" := by
  have kind : eventNameToKind.lookup ev.eventName = some .migratedFromV01 := by
    have table : ∀ name ∈ migrationNames, eventNameToKind.lookup name = some .migratedFromV01 := by decide
    exact table _ named
  rw [classifyEventAsAction_eq, stakingKind, extracted]
  by_cases unknown : stakingRole registry ev = "unknown"
  · rw [if_pos unknown]
    simp only [Except.ok.injEq, exists_eq_left', unknown, ne_eq, not_true_eq_false, false_and, or_false]
    constructor
    · exact fun nets => nets.debited.symm
    · rintro rfl
      exact ⟨rfl, rfl, rfl⟩
  · rw [if_neg unknown, kind]
    have classified (actions : List EconomicAction) :
        (Except.ok amount : Py Int).map (actionsOf sha256 registry ev .migratedFromV01) = .ok actions ↔
          actionsOf sha256 registry ev .migratedFromV01 amount = actions :=
      ⟨Except.ok.inj, congrArg Except.ok⟩
    simp only [classified, exists_eq_left', netsOut_iff_of_known, ne_eq, unknown, not_false_eq_true, true_and]

/-! ### A migration from the v0.1 pool -/

def migrationRegistry : ContractRegistry :=
  registryOf [("0xb0", "community_pool"), ("0xb1", "staking_pool_v01")]

def migrationAt (contract : String) : DecodedEvent := eventAt contract "Migrated" 0 [("amount", .int 50)]

theorem migration_nets_out_community : ∃ actions,
    classifyEventAsAction id (migrationAt "0xb0") migrationRegistry = .ok actions ∧
      NetsOut migrationRegistry (migrationAt "0xb0") 50 (ledgerEntries id (fun _ => []) actions) :=
  (migration_nets_out_iff id migrationRegistry (migrationAt "0xb0") 50 (fun _ => []) (by decide)
    (by decide +kernel)).mpr (Or.inr (by decide +kernel))

/-- Both halves land on the debit side of the v0.1 pool. -/
theorem v01_migration_stays_at_proxy : ∃ actions,
    classifyEventAsAction id (migrationAt "0xb1") migrationRegistry = .ok actions ∧
      (ledgerEntries id (fun _ => []) actions).map (fun e => (e.direction, e.account, e.amountLink)) =
        [(.debit, "staking_pool_v01:0xb1", 50), (.credit, "migration_proxy", 50),
          (.debit, "staking_pool_v01:0xb1", 50), (.credit, "migration_proxy", 50)] ∧
      ¬ NetsOut migrationRegistry (migrationAt "0xb1") 50 (ledgerEntries id (fun _ => []) actions) := by
  refine ⟨actionsOf id migrationRegistry (migrationAt "0xb1") .migratedFromV01 50, by decide +kernel,
    by decide +kernel, fun nets => ?_⟩
  exact absurd nets.proxy (by decide +kernel)

end EconomicLedger.Ledger
