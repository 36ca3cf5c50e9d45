import EconomicLedger.Model.Types

/-!
# Reorg detection (`ingestion/reorg_handler.py`)
-/

namespace EconomicLedger.Model
open Text

structure BlockHeader where
  blockNumber : Int
  blockHash : String
  parentHash : String
deriving Repr, DecidableEq

/-- `client.get_block(n, full_txs=False).header`. -/
abbrev BlockClient := Int → Py BlockHeader

/-- The loop at `cur_block`; after a mismatch it goes on with the parent hash of the client's block. -/
def walkBack (client : BlockClient) : Nat → String → Int → Py Int
  | 0, _, depth => .ok depth
  | curBlock + 1, curHash, depth => do
      let block ← client (curBlock + 1 : Nat)
      if lower block.blockHash = lower curHash then return depth
      else walkBack client curBlock block.parentHash (depth + 1)

def findReorgDepth (client : BlockClient) (lastKnownBlockNumber : Int) (lastKnownHash : String) :
    Py Int :=
  walkBack client lastKnownBlockNumber.toNat lastKnownHash 0

end EconomicLedger.Model
