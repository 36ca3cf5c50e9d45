import EconomicLedger.Model.Movements

/-!
# Staking v0.2 (`protocols/staking_v02/semantics.py`, `protocols/staking_v02/ledger_builder.py`)
-/

namespace EconomicLedger.Model
open Text

/-! ## Events to actions -/

inductive ActionKind where
  | stake
  | unstakeRequested
  | unstakeFinalized
  | rewardClaimed
  | rewardAccrued
  | slashed
  | migratedFromV01
  | poolConfigChanged
deriving Repr, DecidableEq

def ActionKind.value : ActionKind → String
  | .stake => "stake"
  | .unstakeRequested => "unstake_requested"
  | .unstakeFinalized => "unstake_finalized"
  | .rewardClaimed => "reward_claimed"
  | .rewardAccrued => "reward_accrued"
  | .slashed => "slashed"
  | .migratedFromV01 => "migrated_from_v01"
  | .poolConfigChanged => "pool_config_changed"

def eventNameToKind : List (String × ActionKind) :=
  [("Staked", .stake), ("Stake", .stake),
    ("UnstakeRequested", .unstakeRequested), ("UnbondingPeriodStarted", .unstakeRequested),
    ("Unstaked", .unstakeFinalized), ("UnstakeFinalized", .unstakeFinalized),
    ("Withdrawn", .unstakeFinalized),
    ("RewardClaimed", .rewardClaimed), ("RewardsClaimed", .rewardClaimed),
    ("RewardAdded", .rewardAccrued), ("RewardAccrued", .rewardAccrued),
    ("Slashed", .slashed),
    ("Migrated", .migratedFromV01), ("MigratedFromV01", .migratedFromV01),
    ("PoolConfigChanged", .poolConfigChanged), ("ConfigSet", .poolConfigChanged)]

structure EconomicAction where
  actionId : String
  kind : ActionKind
  chainId : Int
  blockNumber : Int
  txHash : String
  logIndex : Int
  contractAddress : String
  poolRole : String
  wallet : Option String
  amountLink : Int
  sourceEventSignature : String
  rawLogId : String
  decodedEventId : String
deriving Repr, DecidableEq

variable (sha256 : Digest)

def computeActionId (decoded : DecodedEvent) (kind : ActionKind) : String :=
  sha256 (joinBar ["action", decoded.decodedEventId, kind.value])

/-- The id of the synthetic v0.1 half of a migration. -/
def migratedV01DebitId (decoded : DecodedEvent) : String :=
  sha256 (joinBar ["action", decoded.decodedEventId, "migrated_v01_debit"])

def firstPresent (lookups : List (Dict String Value × String)) : Option Value :=
  lookups.findSome? fun (source, key) =>
    match source.get? key with
    | some .none => none
    | found => found

def amountLinkKeys : List String :=
  ["amount", "value", "newPrincipal", "principal", "reward", "slashedAmount", "slashedPrincipal",
    "rewardAmount", "stakedAmount", "withdrawnAmount"]

def walletKeys : List String := ["staker", "wallet", "user", "operator", "account", "from"]

def sourceMajor (decoded : DecodedEvent) (keys : List String) : List (Dict String Value × String) :=
  [decoded.indexedParams, decoded.dataParams].flatMap fun source => keys.map fun key => (source, key)

def extractAmountLink (decoded : DecodedEvent) : Py Int :=
  match firstPresent (sourceMajor decoded amountLinkKeys) with
  | some value => value.toInt
  | none => .ok 0

def extractWallet (decoded : DecodedEvent) : Option String :=
  (firstPresent (sourceMajor decoded walletKeys)).map fun value => lower value.text

/-- `text or fallback`, where `None` and the empty text are false. -/
def orText (text : Option String) (fallback : String) : String :=
  match text with
  | some s => if s = "" then fallback else s
  | none => fallback

def baseAction (decoded : DecodedEvent) (role : String) (kind : ActionKind) (amount : Int) :
    EconomicAction :=
  { actionId := computeActionId sha256 decoded kind
    kind := kind
    chainId := decoded.chainId
    blockNumber := decoded.blockNumber
    txHash := decoded.txHash
    logIndex := decoded.logIndex
    contractAddress := decoded.contractAddress
    poolRole := role
    wallet := extractWallet decoded
    amountLink := amount
    sourceEventSignature := decoded.eventSignature
    rawLogId := decoded.rawLogId
    decodedEventId := decoded.decodedEventId }

/-- A migration yields a synthetic v0.1 action before its base action. -/
def classifyEventAsAction (decoded : DecodedEvent) (registry : ContractRegistry) :
    Py (List EconomicAction) :=
  let role := orText (registry.role decoded.contractAddress) "unknown"
  if role = "unknown" then .ok []
  else
    match eventNameToKind.lookup decoded.eventName with
    | none => .ok []
    | some kind => do
        let amount ← extractAmountLink decoded
        let base := baseAction sha256 decoded role kind amount
        if kind = .migratedFromV01 then
          let v01 := { base with
            actionId := migratedV01DebitId sha256 decoded
            poolRole := "staking_pool_v01" }
          return [v01, base]
        else return [base]

/-! ## Actions to ledger entries -/

inductive Direction where
  | debit
  | credit
deriving Repr, DecidableEq

structure LedgerEntry where
  entryId : String
  actionId : String
  entryIndex : Int
  account : String
  direction : Direction
  amountLink : Int
  chainId : Int
  blockNumber : Int
  txHash : String
deriving Repr, DecidableEq

structure DoubleEntryCheck where
  txHash : String
  isBalanced : Bool
  debitTotal : Int
  creditTotal : Int
  delta : Int
deriving Repr, DecidableEq

def computeLedgerEntryId (actionId : String) (entryIndex : Int) : String :=
  sha256 (joinBar ["ledger_entry", actionId, toString entryIndex])

def makeEntry (action : EconomicAction) (entryIndex : Int) (account : String)
    (direction : Direction) (amount : Int) : LedgerEntry :=
  { entryId := computeLedgerEntryId sha256 action.actionId entryIndex
    actionId := action.actionId
    entryIndex := entryIndex
    account := account
    direction := direction
    amountLink := amount
    chainId := action.chainId
    blockNumber := action.blockNumber
    txHash := action.txHash }

/-- The entries of an action; the movements are accepted and not used. -/
def buildLedgerEntries (action : EconomicAction) (_movements : List TokenMovement) :
    List LedgerEntry :=
  if action.amountLink = 0 then []
  else
    let poolAccount := action.poolRole ++ ":" ++ action.contractAddress
    let walletAccount := "wallet:" ++ orText action.wallet "unknown"
    let amount := action.amountLink
    match action.kind with
    | .stake =>
        [makeEntry sha256 action 0 walletAccount .debit amount,
          makeEntry sha256 action 1 poolAccount .credit amount]
    | .unstakeFinalized =>
        [makeEntry sha256 action 0 poolAccount .debit amount,
          makeEntry sha256 action 1 walletAccount .credit amount]
    | .rewardClaimed =>
        [makeEntry sha256 action 0 (action.poolRole ++ ":rewards") .debit amount,
          makeEntry sha256 action 1 walletAccount .credit amount]
    | .rewardAccrued =>
        [makeEntry sha256 action 0 "reward_funder" .debit amount,
          makeEntry sha256 action 1 (action.poolRole ++ ":rewards") .credit amount]
    | .slashed =>
        [makeEntry sha256 action 0 poolAccount .debit amount,
          makeEntry sha256 action 1 (action.poolRole ++ ":forfeiture_sink") .credit amount]
    | .migratedFromV01 =>
        if action.poolRole = "staking_pool_v01" then
          [makeEntry sha256 action 0 ("staking_pool_v01:" ++ action.contractAddress) .debit amount,
            makeEntry sha256 action 1 "migration_proxy" .credit amount]
        else
          [makeEntry sha256 action 0 "migration_proxy" .debit amount,
            makeEntry sha256 action 1 poolAccount .credit amount]
    | .unstakeRequested => []
    | .poolConfigChanged => []

def totalOf (direction : Direction) (entries : List LedgerEntry) : Int :=
  ((entries.filter (·.direction = direction)).map LedgerEntry.amountLink).sum

def verifyDoubleEntry (entries : List LedgerEntry) : DoubleEntryCheck :=
  match entries with
  | [] => { txHash := "", isBalanced := true, debitTotal := 0, creditTotal := 0, delta := 0 }
  | first :: _ =>
      let debitTotal := totalOf .debit entries
      let creditTotal := totalOf .credit entries
      let delta := debitTotal - creditTotal
      { txHash := first.txHash, isBalanced := delta = 0, debitTotal, creditTotal, delta }

def verifyDoubleEntryPerTx (entries : List LedgerEntry) : List DoubleEntryCheck :=
  (Dict.groupBy LedgerEntry.txHash entries).values.map verifyDoubleEntry

end EconomicLedger.Model
