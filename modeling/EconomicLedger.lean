import EconomicLedger.Lib.Text
import EconomicLedger.Lib.Keyed
import EconomicLedger.Lib.Dict
import EconomicLedger.Lib.Latest
import EconomicLedger.Lib.Gaps
import EconomicLedger.Lib.JsonText
import EconomicLedger.Lib.JsonRoundTrip
import EconomicLedger.Lib.JsonLines
import EconomicLedger.Lib.Csv
import EconomicLedger.Lib.Selection
import EconomicLedger.Lib.Combinations
import EconomicLedger.Lib.Relational
import EconomicLedger.Lib.Fallible
import EconomicLedger.Lib.DoubleEntry
import EconomicLedger.Lib.Radix
import EconomicLedger.Lib.Rollup
import EconomicLedger.Lib.Window
import EconomicLedger.Lib.StableSort
import EconomicLedger.Lib.Loop
import EconomicLedger.Lib.Ranges
import EconomicLedger.Lib.HashChain
import EconomicLedger.Lib.Intervals
import EconomicLedger.Lib.Transfers
import EconomicLedger.Lib.Accrual
import EconomicLedger.Lib.Highest
import EconomicLedger.Model.Value
import EconomicLedger.Model.Types
import EconomicLedger.Model.Registry
import EconomicLedger.Model.EventDecoder
import EconomicLedger.Model.Calldata
import EconomicLedger.Model.TraceDecoder
import EconomicLedger.Model.TraceTree
import EconomicLedger.Model.CallTracer
import EconomicLedger.Model.Checkpoint
import EconomicLedger.Model.Movements
import EconomicLedger.Model.BalanceReconciler
import EconomicLedger.Model.Staking
import EconomicLedger.Model.PaymentAbstraction
import EconomicLedger.Model.Matcher
import EconomicLedger.Model.Checks
import EconomicLedger.Model.Marts
import EconomicLedger.Model.Rollups
import EconomicLedger.Model.LogFetcher
import EconomicLedger.Model.ReorgHandler
import EconomicLedger.Model.ContractConfig
import EconomicLedger.Model.DagCheckpoint
import EconomicLedger.Model.JsonFiles
import EconomicLedger.Model.SeedFiles
import EconomicLedger.Model.Extraction
import EconomicLedger.Model.SeedToLocal
import EconomicLedger.Model.SeedScript
import EconomicLedger.Model.Staging
import EconomicLedger.Model.Analytics
import EconomicLedger.Model.Reconciliation
import EconomicLedger.Model.ReservesResolver
import EconomicLedger.Decode.Words
import EconomicLedger.Decode.Logs
import EconomicLedger.Decode.Encoding
import EconomicLedger.Decode.WordEncoding
import EconomicLedger.Decode.Restoration
import EconomicLedger.Decode.EmittedLogs
import EconomicLedger.Decode.Overloads
import EconomicLedger.Decode.Batches
import EconomicLedger.Registry.Phases
import EconomicLedger.Registry.Loading
import EconomicLedger.Ingestion.LogFetching
import EconomicLedger.Ingestion.ForkDepth
import EconomicLedger.Ledger.History
import EconomicLedger.Ledger.DoubleEntry
import EconomicLedger.Ledger.Accounts
import EconomicLedger.Ledger.Layers
import EconomicLedger.Ledger.Identity
import EconomicLedger.Ledger.Checks
import EconomicLedger.Ledger.Reserves
import EconomicLedger.Ledger.Synthesized
import EconomicLedger.Seed.Merge
import EconomicLedger.Seed.Processes
import EconomicLedger.Seed.Run
import EconomicLedger.Staging.CanonicalBlocks
import EconomicLedger.Ledger.PaAmounts
import EconomicLedger.Ledger.Positive
import EconomicLedger.Ledger.Migration
import EconomicLedger.Marts.FlowRows
import EconomicLedger.Marts.Reorgs
import EconomicLedger.Marts.Increments
import EconomicLedger.Marts.WalletLedger
import EconomicLedger.Marts.LedgerMerge
import EconomicLedger.Marts.Verdicts
import EconomicLedger.Marts.PassRate
import EconomicLedger.Marts.FlowStatus
import EconomicLedger.Marts.PoolDays
import EconomicLedger.Marts.ApySums
import EconomicLedger.Matching.Settlement
import EconomicLedger.Matching.Allocation
import EconomicLedger.Matching.OrderIndependence
import EconomicLedger.Matching.Outcome
import EconomicLedger.Matching.EdgeIds
import EconomicLedger.Matching.Coverage
import EconomicLedger.Matching.Expectation
import EconomicLedger.Trace.Addresses
import EconomicLedger.Trace.Frames
import EconomicLedger.Trace.Rebuild
import EconomicLedger.Trace.AncestorSuccess
import EconomicLedger.Trace.RoundTrip
import EconomicLedger.Trace.Ingestion
import EconomicLedger.Trace.Registered
import EconomicLedger.Trace.Malformed
import EconomicLedger.Trace.Faithful
import EconomicLedger.Trace.Paths
import EconomicLedger.Movements.Unify
import EconomicLedger.Movements.Built
import EconomicLedger.Movements.TraceOnly
import EconomicLedger.Movements.Pairing
import EconomicLedger.Movements.Sightings
import EconomicLedger.Movements.Flows
import EconomicLedger.Movements.DoubleCounting
import EconomicLedger.Movements.Accepted
import EconomicLedger.Movements.PoolBalance
import EconomicLedger.Movements.BalanceAlgebra
import EconomicLedger.Movements.RowOrder
import EconomicLedger.Movements.RowTies
import EconomicLedger.Movements.Provenance
import EconomicLedger.Movements.Conservation
import EconomicLedger.Movements.Occurrences
import EconomicLedger.Movements.Tokens
import EconomicLedger.Matching.ChainAgreement
import EconomicLedger.Matching.PaEdges
import EconomicLedger.Marts.PoolDeltas
import EconomicLedger.Checkpoint.Entries
import EconomicLedger.Checkpoint.Reports
import EconomicLedger.Checkpoint.Restarts
import EconomicLedger.Checkpoint.SharedStore
import EconomicLedger.Checkpoint.DagStore
import EconomicLedger.Checkpoint.Cursor
import EconomicLedger.Analytics.Principal
import EconomicLedger.Analytics.Fees
import EconomicLedger.Storage.TextFiles
import EconomicLedger.Extraction.LinkTransfers
import EconomicLedger.Seed.Files
import EconomicLedger.Seed.DbtTests
import EconomicLedger.Extraction.InternalTransfers
import EconomicLedger.Marts.Replay
import EconomicLedger.Seed.Replay
