import EconomicLedger.Ledger.DoubleEntry

/-!
# Accounts

What the entries of a ledger add to one account. An action names at most one account it debits and
one it credits.
-/

namespace EconomicLedger.Ledger
open Model

variable (sha256 : Digest)

def accountNet (account : String) (entries : List LedgerEntry) : Int :=
  totalOf .credit (entries.filter (·.account = account)) -
    totalOf .debit (entries.filter (·.account = account))

def poolAccount (action : EconomicAction) : String := action.poolRole ++ ":" ++ action.contractAddress

def walletAccount (wallet : String) : String := "wallet:" ++ wallet

def bookedAccounts (action : EconomicAction) : Option (String × String) :=
  match action.kind with
  | .stake => some (walletAccount (orText action.wallet "unknown"), poolAccount action)
  | .unstakeFinalized => some (poolAccount action, walletAccount (orText action.wallet "unknown"))
  | .rewardClaimed =>
      some (action.poolRole ++ ":rewards", walletAccount (orText action.wallet "unknown"))
  | .rewardAccrued => some ("reward_funder", action.poolRole ++ ":rewards")
  | .slashed => some (poolAccount action, action.poolRole ++ ":forfeiture_sink")
  | .migratedFromV01 =>
      if action.poolRole = "staking_pool_v01" then
        some ("staking_pool_v01:" ++ action.contractAddress, "migration_proxy")
      else some ("migration_proxy", poolAccount action)
  | .unstakeRequested => none
  | .poolConfigChanged => none

def accountEffect (account : String) (action : EconomicAction) : Int :=
  match bookedAccounts action with
  | none => 0
  | some (debited, credited) =>
      (if credited = account then action.amountLink else 0) -
        if debited = account then action.amountLink else 0

theorem accountNet_append (account : String) (left right : List LedgerEntry) :
    accountNet account (left ++ right) = accountNet account left + accountNet account right := by
  simp only [accountNet, totalOf, List.filter_append, List.map_append, List.sum_append]
  omega

theorem accountNet_bookPair (account : String) (make : Int → String → Direction → Int → LedgerEntry)
    (faithful : ∀ i account direction amount, (make i account direction amount).account = account ∧
      (make i account direction amount).direction = direction ∧
      (make i account direction amount).amountLink = amount) (debited credited : String) (amount : Int) :
    accountNet account (bookPair make debited credited amount) =
      (if credited = account then amount else 0) - if debited = account then amount else 0 := by
  by_cases debit : debited = account <;> by_cases credit : credited = account <;>
    simp [accountNet, totalOf, bookPair, faithful, debit, credit]

theorem accountNet_pair (account : String) (action : EconomicAction) (debited credited : String) :
    accountNet account [makeEntry sha256 action 0 debited .debit action.amountLink,
        makeEntry sha256 action 1 credited .credit action.amountLink] =
      (if credited = account then action.amountLink else 0) -
        if debited = account then action.amountLink else 0 :=
  accountNet_bookPair account (makeEntry sha256 action) (fun _ _ _ _ => ⟨rfl, rfl, rfl⟩) debited credited _

theorem buildLedgerEntries_eq (action : EconomicAction) (movements : List TokenMovement) :
    buildLedgerEntries sha256 action movements =
      if action.amountLink = 0 then []
      else
        match bookedAccounts action with
        | none => []
        | some (debited, credited) =>
            [makeEntry sha256 action 0 debited .debit action.amountLink,
              makeEntry sha256 action 1 credited .credit action.amountLink] := by
  unfold buildLedgerEntries bookedAccounts
  cases kind : action.kind with
  | migratedFromV01 =>
      by_cases v01 : action.poolRole = "staking_pool_v01"
      · simp only [v01, if_true]
      · simp only [v01, if_false]
        rfl
  | stake | unstakeRequested | unstakeFinalized | rewardClaimed | rewardAccrued | slashed
  | poolConfigChanged => rfl

theorem accountNet_buildLedgerEntries (account : String) (action : EconomicAction)
    (movements : List TokenMovement) :
    accountNet account (buildLedgerEntries sha256 action movements) = accountEffect account action := by
  rw [buildLedgerEntries_eq, accountEffect]
  by_cases nothing : action.amountLink = 0
  · rw [if_pos nothing, nothing]
    cases bookedAccounts action with
    | none => rfl
    | some booked => simp [accountNet, totalOf]
  · rw [if_neg nothing]
    cases bookedAccounts action with
    | none => rfl
    | some booked => exact accountNet_pair sha256 account action booked.1 booked.2

theorem accountNet_ledgerEntries (account : String) (movements : EconomicAction → List TokenMovement)
    (actions : List EconomicAction) :
    accountNet account (ledgerEntries sha256 movements actions) =
      (actions.map (accountEffect account)).sum := by
  induction actions with
  | nil => rfl
  | cons action rest ih =>
      have first : ledgerEntries sha256 movements (action :: rest) =
          buildLedgerEntries sha256 action (movements action) ++ ledgerEntries sha256 movements rest :=
        List.flatMap_cons
      rw [first, accountNet_append, accountNet_buildLedgerEntries, ih, List.map_cons, List.sum_cons]

/-! ## Wallet accounts -/

/-- No account of the pool's role begins as a wallet account does. -/
def PoolRole (role : String) : Prop := Text.startsWith (role ++ ":") "wallet:" = false

instance (role : String) : Decidable (PoolRole role) :=
  inferInstanceAs (Decidable (Text.startsWith (role ++ ":") "wallet:" = false))

theorem walletAccount_inj (v w : String) : walletAccount v = walletAccount w ↔ v = w := by
  rw [String.ext_iff, String.ext_iff, walletAccount, walletAccount, String.toList_append,
    String.toList_append, List.append_cancel_left_eq]

theorem roleAccount_ne (role suffix w : String) (pool : PoolRole role) :
    role ++ ":" ++ suffix ≠ walletAccount w := by
  intro same
  have lists : role.toList ++ ':' :: suffix.toList = "wallet".toList ++ ':' :: w.toList := by
    have texts := congrArg String.toList same
    simp only [walletAccount, String.toList_append] at texts
    rw [List.append_assoc] at texts
    exact texts
  have begins : Text.startsWith (role ++ ":") "wallet:" = true := by
    have colon : (role ++ ":").toList = role.toList ++ [':'] := String.toList_append
    rw [Text.startsWith, List.isPrefixOf_iff_prefix, colon]
    by_cases inside : ':' ∈ role.toList
    · obtain ⟨first, rest, split, fresh⟩ := List.eq_append_cons_of_mem inside
      rw [split, List.append_assoc, List.cons_append] at lists
      obtain ⟨word, -⟩ := (Text.append_cons_inj fresh (by decide)).mp lists
      rw [split, word]
      exact ⟨rest ++ [':'], by simp⟩
    · obtain ⟨word, -⟩ := (Text.append_cons_inj inside (by decide)).mp lists
      rw [word]
      exact ⟨[], rfl⟩
  rw [pool] at begins
  cases begins

def walletAmount (kind : ActionKind) (amount : Int) : Int :=
  match kind with
  | .stake => -amount
  | .unstakeFinalized | .rewardClaimed => amount
  | _ => 0

theorem orText_unknown (wallet : Option String) (w : String) (nonempty : w ≠ "")
    (known : w ≠ "unknown") : orText wallet "unknown" = w ↔ wallet = some w := by
  cases wallet with
  | none => simp [orText, known.symm]
  | some text =>
      by_cases blank : text = ""
      · simp [orText, blank, known.symm, nonempty.symm]
      · simp [orText, blank]

theorem accountEffect_wallet (w : String) (nonempty : w ≠ "") (known : w ≠ "unknown")
    (action : EconomicAction) (pool : PoolRole action.poolRole) :
    accountEffect (walletAccount w) action =
      if action.wallet = some w then walletAmount action.kind action.amountLink else 0 := by
  have own : walletAccount (orText action.wallet "unknown") = walletAccount w ↔
      action.wallet = some w :=
    (walletAccount_inj _ _).trans (orText_unknown action.wallet w nonempty known)
  have poolOther : poolAccount action ≠ walletAccount w := roleAccount_ne _ _ w pool
  have rewards : action.poolRole ++ ":rewards" ≠ walletAccount w := by
    have other := roleAccount_ne action.poolRole "rewards" w pool
    rwa [String.append_assoc] at other
  have sink : action.poolRole ++ ":forfeiture_sink" ≠ walletAccount w := by
    have other := roleAccount_ne action.poolRole "forfeiture_sink" w pool
    rwa [String.append_assoc] at other
  have funder : "reward_funder" ≠ walletAccount w := by
    intro same
    exact absurd (congrArg (fun s => s.toList.head?) same) (by simp [walletAccount])
  have proxy : "migration_proxy" ≠ walletAccount w := by
    intro same
    exact absurd (congrArg (fun s => s.toList.head?) same) (by simp [walletAccount])
  have v01 : "staking_pool_v01:" ++ action.contractAddress ≠ walletAccount w := by
    intro same
    exact absurd (congrArg (fun s => s.toList.head?) same) (by simp [walletAccount])
  unfold accountEffect bookedAccounts walletAmount
  cases action.kind with
  | stake =>
      simp only [own, poolOther, if_false]
      split_ifs <;> simp
  | unstakeFinalized =>
      simp only [own, poolOther, if_false]
      split_ifs <;> simp
  | rewardClaimed =>
      simp only [own, rewards, if_false]
      split_ifs <;> simp
  | rewardAccrued => simp [funder, rewards]
  | slashed => simp [poolOther, sink]
  | migratedFromV01 =>
      by_cases old : action.poolRole = "staking_pool_v01" <;> simp [old, v01, proxy, poolOther]
  | unstakeRequested => simp
  | poolConfigChanged => simp

end EconomicLedger.Ledger
