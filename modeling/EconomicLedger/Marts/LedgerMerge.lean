import EconomicLedger.Ledger.Checks
import Mathlib.Tactic.IntervalCases

/-!
# Incremental runs of the ledger

A run merges the visible rows above the cut, so a row that becomes visible below it is never picked
up. While every row becomes visible above the cut, the table follows the visible rows.
-/

namespace EconomicLedger.Marts
open Model Ledger Relational Rollup

/-! ## Runs -/

def tableAfter (schedule : Nat → LedgerSource) : Nat → List LedgerEntryRow
  | 0 => ledgerEntriesMart none (schedule 0)
  | run + 1 => ledgerEntriesMart (some (tableAfter schedule run)) (schedule (run + 1))

def entriesOf (rows : List LedgerEntryRow) : List LedgerEntry := rows.map LedgerEntryRow.entry

/-- Between two runs visible rows stay, but for their `run_partition_id`, and every new one lies
above the cut of the later run. -/
structure Arrives (this : List LedgerEntryRow) (before after : LedgerSource) : Prop where
  kept : ∀ le ∈ before.visible, le.entry ∈ entriesOf after.visible
  recent : ∀ le ∈ after.visible, le.entry ∉ entriesOf before.visible →
    watermarkOf this - 50 < le.entry.blockNumber

def DistinctEntries (source : LedgerSource) : Prop :=
  ((entriesOf source.visible).map LedgerEntry.entryId).Nodup

theorem merge_step (this : List LedgerEntryRow) (before after : LedgerSource)
    (agrees : (entriesOf this).Perm (entriesOf before.visible)) (known : DistinctEntries before)
    (distinct : DistinctEntries after) (arrives : Arrives this before after) :
    (entriesOf (ledgerEntriesMart (some this) after)).Perm (entriesOf after.visible) := by
  have ids (rows : List LedgerEntryRow) : (rows.map fun le => le.entry.entryId) =
      (entriesOf rows).map LedgerEntry.entryId := by
    rw [entriesOf, List.map_map]
    rfl
  apply mergeOn_converges _ LedgerEntryRow.entry LedgerEntry.entryId (fun _ => rfl) this before.visible
    after.visible _ agrees
  · rw [ids]
    exact known
  · rw [ids]
    exact distinct
  · exact arrives.kept
  · intro le member unknown
    exact decide_eq_true (arrives.recent le member unknown)

theorem tableAfter_perm (schedule : Nat → LedgerSource) (run : Nat)
    (distinct : ∀ i ≤ run, DistinctEntries (schedule i))
    (arrives : ∀ i < run, Arrives (tableAfter schedule i) (schedule i) (schedule (i + 1))) :
    (entriesOf (tableAfter schedule run)).Perm (entriesOf (schedule run).visible) := by
  induction run with
  | zero => exact List.Perm.refl _
  | succ run ih =>
      have agrees := ih (fun i earlier => distinct i (by omega)) fun i earlier => arrives i (by omega)
      exact merge_step _ _ _ agrees (distinct run (by omega)) (distinct (run + 1) (by omega))
        (arrives run (by omega))

/-! ## Double entry -/

def Balanced (entries : List LedgerEntry) : Prop :=
  ∀ group, totalOf .debit (entries.filter (chainTx · = group)) =
    totalOf .credit (entries.filter (chainTx · = group))

theorem totalOf_perm (side : Direction) {entries entries' : List LedgerEntry}
    (reordered : entries.Perm entries') : totalOf side entries = totalOf side entries' :=
  ((reordered.filter _).map _).sum_eq

theorem balanced_perm {entries entries' : List LedgerEntry} (reordered : entries.Perm entries') :
    Balanced entries ↔ Balanced entries' := by
  apply forall_congr'
  intro group
  rw [totalOf_perm .debit (reordered.filter _), totalOf_perm .credit (reordered.filter _)]

theorem visible_eq (source : LedgerSource) :
    source.visible = source.rows.filter fun le => source.blocks.rows.any (onEntryBlock le) := by
  apply innerJoin_left
  intro le _
  apply filter_length_le_one CanonicalBlock.height source.blocks.unique _
    (le.entry.chainId, le.entry.blockNumber)
  intro cb here
  simpa [onEntryBlock, CanonicalBlock.height] using here

def OneBlock (rows : List LedgerEntryRow) : Prop :=
  ∀ le ∈ rows, ∀ le' ∈ rows, chainTx le.entry = chainTx le'.entry →
    le.entry.blockNumber = le'.entry.blockNumber

theorem balanced_visible (source : LedgerSource) (oneBlock : OneBlock source.rows)
    (balanced : Balanced (entriesOf source.rows)) : Balanced (entriesOf source.visible) := by
  intro group
  have here := balanced group
  rw [visible_eq, entriesOf, List.filter_map, List.filter_filter]
  rw [entriesOf, List.filter_map] at here
  by_cases reached : ∃ le ∈ source.rows, chainTx le.entry = group ∧
      source.blocks.rows.any (onEntryBlock le) = true
  · -- one canonical entry of the transaction makes all of them canonical
    obtain ⟨le, member, rfl, canonical⟩ := reached
    have whole : (source.rows.filter fun le' =>
        ((fun e => decide (chainTx e = chainTx le.entry)) ∘ LedgerEntryRow.entry) le' &&
          source.blocks.rows.any (onEntryBlock le')) =
        source.rows.filter ((fun e => decide (chainTx e = chainTx le.entry)) ∘ LedgerEntryRow.entry) := by
      apply List.filter_congr
      intro le' member'
      by_cases same : chainTx le'.entry = chainTx le.entry
      · have chain : le'.entry.chainId = le.entry.chainId := congrArg Prod.fst same
        have block := oneBlock le' member' le member same
        have onBlock : onEntryBlock le' = onEntryBlock le := by
          funext cb
          simp only [onEntryBlock, chain, block]
        rw [onBlock, canonical, Bool.and_true]
      · simp [same]
    rw [whole, here]
  · have none : (source.rows.filter fun le' =>
        ((fun e => decide (chainTx e = group)) ∘ LedgerEntryRow.entry) le' &&
          source.blocks.rows.any (onEntryBlock le')) = [] := by
      rw [List.filter_eq_nil_iff]
      intro le member both
      obtain ⟨own, canonical⟩ := Bool.and_eq_true_iff.mp both
      exact reached ⟨le, member, of_decide_eq_true own, canonical⟩
    rw [none]
    rfl

/-! ## Convergence -/

/-- The table has the entries of the visible rows, and balances where the source does. -/
structure Follows (table : List LedgerEntryRow) (source : LedgerSource) : Prop where
  entries : (entriesOf table).Perm (entriesOf source.visible)
  visible : Balanced (entriesOf source.visible) → Balanced (entriesOf table)
  arrived : OneBlock source.rows → Balanced (entriesOf source.rows) → Balanced (entriesOf table)

theorem ledger_entries_converges (schedule : Nat → LedgerSource) (run : Nat)
    (distinct : ∀ i ≤ run, DistinctEntries (schedule i))
    (arrives : ∀ i < run, Arrives (tableAfter schedule i) (schedule i) (schedule (i + 1))) :
    Follows (tableAfter schedule run) (schedule run) := by
  have entries := tableAfter_perm schedule run distinct arrives
  refine ⟨entries, (balanced_perm entries).mpr, fun oneBlock balanced => ?_⟩
  exact (balanced_perm entries).mpr (balanced_visible (schedule run) oneBlock balanced)

/-! ## A late row -/

def entryRow (entryId : String) (blockNumber : Int) (runPartitionId : String) : LedgerEntryRow :=
  { entry :=
      { entryId := entryId
        actionId := "action"
        entryIndex := 0
        account := "wallet:0xaa"
        direction := .debit
        amountLink := 5
        chainId := 1
        blockNumber := blockNumber
        txHash := "0x01" }
    runPartitionId := runPartitionId }

def blocksAt (heights : List Int) (distinct : heights.Nodup) : CanonicalBlocks where
  rows := heights.map fun blockNumber =>
    { chainId := 1, blockNumber, blockHash := "", parentHash := "", timestamp := 0, runPartitionId := "" }
  unique := by
    rw [List.map_map]
    exact distinct.map fun _ _ same => congrArg Prod.snd same

/-- The second run finds a row 49 blocks below the first. -/
def lateArrival : Nat → LedgerSource
  | 0 => ⟨[entryRow "e1" 100 "run-1"], blocksAt [100] (by decide)⟩
  | _ => ⟨[entryRow "e2" 51 "run-2", entryRow "e1" 100 "run-2"], blocksAt [51, 100] (by decide)⟩

theorem ledger_entries_converges_late : Follows (tableAfter lateArrival 1) (lateArrival 1) := by
  apply ledger_entries_converges
  · intro i early
    unfold DistinctEntries
    interval_cases i <;> decide +kernel
  · intro i first
    obtain rfl : i = 0 := by omega
    exact ⟨by decide +kernel, by decide +kernel⟩

end EconomicLedger.Marts
