import EconomicLedger.Lib.Latest
import EconomicLedger.Model.SeedScript

/-!
# Staging models and tests on blocks, events and logs

`models/staging/*.sql` with `macros/is_finalized.sql`, and the tests `assert_block_continuity.sql`,
`assert_no_duplicate_canonical_logs.sql` and `assert_no_orphan_decoded_events.sql`.
-/

namespace EconomicLedger.Model
open Text Relational Rollup

/-! ## Blocks -/

/-- `block_number <= COALESCE(MAX(block_number), 0) - finality_depth`, over all chains. -/
def isFinalized (finalityDepth : Int) (rawBlocks : List BlockRow) (blockNumber : Int) : Bool :=
  blockNumber ≤ (rawBlocks.map BlockRow.blockNumber).max?.getD 0 - finalityDepth

def finalizedBlocks (finalityDepth : Int) (rawBlocks : List BlockRow) : List BlockRow :=
  rawBlocks.filter fun b => isFinalized finalityDepth rawBlocks b.blockNumber

def BlockRow.height (row : BlockRow) : Int × Int := (row.chainId, row.blockNumber)

def BlockRow.block (row : BlockRow) : CanonicalBlock :=
  { chainId := row.chainId
    blockNumber := row.blockNumber
    blockHash := row.blockHash
    parentHash := row.parentHash
    timestamp := row.timestamp
    runPartitionId := row.runPartitionId }

/-- The rows that `ROW_NUMBER() OVER (PARTITION BY chain_id, block_number ORDER BY ingested_at DESC)`
numbers 1. -/
def latestBlocks (rows : List BlockRow) : List BlockRow :=
  Latest.latest BlockRow.height BlockRow.ingestedAt rows

def stgCanonicalBlocks (finalityDepth : Int) (rawBlocks : List BlockRow) : List CanonicalBlock :=
  (latestBlocks (finalizedBlocks finalityDepth rawBlocks)).map BlockRow.block

def stgShadowTipBlocks (finalityDepth : Int) (rawBlocks : List BlockRow) : List CanonicalBlock :=
  (rawBlocks.filter fun b => !isFinalized finalityDepth rawBlocks b.blockNumber).map BlockRow.block

def onEventBlock (de : DecodedEventRow) (cb : CanonicalBlock) : Bool :=
  de.chainId = cb.chainId && de.blockNumber = cb.blockNumber

def stagedEventNames : List String :=
  ["Staked", "UnstakeRequested", "Unstaked", "RewardClaimed", "RewardAdded", "Slashed", "Migrated",
    "PoolConfigChanged"]

/-- Joined to the canonical blocks by height; `block_hash` is not selected. -/
def stgStakingEvents (decodedEvents : List DecodedEventRow) (blocks : List CanonicalBlock) :
    List DecodedEventRow :=
  ((innerJoin onEventBlock decodedEvents blocks).filter fun pair => pair.1.eventName ∈ stagedEventNames).map
    fun pair => { pair.1 with contractAddress := lower pair.1.contractAddress }

def rawLogs (linkTransfers : List RawLogRow) : List RawLogRow :=
  linkTransfers.map fun rl => { rl with address := lower rl.address }

/-! ## Tests -/

structure LogOccurrences where
  chainId : Int
  blockNumber : Int
  txHash : String
  logIndex : Int
  occurrences : Nat
deriving Repr, DecidableEq

def RawLogRow.identity (rl : RawLogRow) : (Int × Int) × String × Int :=
  ((rl.chainId, rl.blockNumber), rl.txHash, rl.logIndex)

def onLogBlock (rl : RawLogRow) (cb : CanonicalBlock) : Bool :=
  cb.chainId = rl.chainId && cb.blockNumber = rl.blockNumber

def logOccurrences (key : (Int × Int) × String × Int) (group : List (RawLogRow × CanonicalBlock)) :
    LogOccurrences :=
  { chainId := key.1.1
    blockNumber := key.1.2
    txHash := key.2.1
    logIndex := key.2.2
    occurrences := group.length }

def assertNoDuplicateCanonicalLogs (rawLogs : List RawLogRow) (blocks : List CanonicalBlock) :
    List LogOccurrences :=
  (groupRows (fun pair => pair.1.identity) logOccurrences (innerJoin onLogBlock rawLogs blocks)).filter
    fun row => 1 < row.occurrences

def onDecodedLog (de : DecodedEventRow) (rl : RawLogRow) : Bool :=
  rl.chainId = de.chainId && rl.blockNumber = de.blockNumber && rl.txHash = de.txHash &&
    rl.logIndex = de.logIndex

def assertNoOrphanDecodedEvents (stagingEvents : List DecodedEventRow) (rawLogs : List RawLogRow) :
    List String :=
  ((leftJoin onDecodedLog stagingEvents rawLogs).filter fun row => row.2.isNone).map
    fun row => row.1.decodedEventId

end EconomicLedger.Model
