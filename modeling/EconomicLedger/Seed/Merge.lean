import EconomicLedger.Ledger.Checks
import EconomicLedger.Ledger.Identity
import EconomicLedger.Model.SeedScript

/-!
# Merged tables

A merge keeps the first row under every key. Over the entries of two ledgers it keeps both entries of
the first action under every action id, so what it keeps is still a list of postings.
-/

namespace EconomicLedger.Seed
open Model Ledger Text Fallible Keyed DoubleEntry

/-! ## Rows under their keys -/

variable {ρ : Type} (key : ρ → String)

def keyed (rows : List ρ) : List ρ := rows.filter (key · ≠ "")

theorem mergeRows_eq (stake pa : List ρ) :
    mergeRows key stake pa = firstByKey key (keyed key (stake ++ pa)) := by
  rw [← Dict.values_keepFirst, Dict.keepFirst, keyed, List.foldl_filter, mergeRows]
  apply congrArg fun step : Dict String ρ → ρ → Dict String ρ => ((stake ++ pa).foldl step Dict.empty).values
  funext seen row
  by_cases named : key row = ""
  · simp [named]
  · by_cases known : key row ∈ seen.keys <;> simp [named, known]

theorem mergeRows_nodup (stake pa : List ρ) : ((mergeRows key stake pa).map key).Nodup := by
  rw [mergeRows_eq]
  exact firstByKey_nodup key _

theorem mem_of_mem_mergeRows {stake pa : List ρ} {row : ρ} (member : row ∈ mergeRows key stake pa) :
    row ∈ stake ++ pa ∧ key row ≠ "" := by
  rw [mergeRows_eq] at member
  have kept := List.mem_filter.mp ((firstByKey_sublist key _).subset member)
  exact ⟨kept.1, of_decide_eq_true kept.2⟩

theorem mem_keys_mergeRows (stake pa : List ρ) (k : String) :
    k ∈ (mergeRows key stake pa).map key ↔ k ≠ "" ∧ k ∈ (stake ++ pa).map key := by
  rw [mergeRows_eq, mem_keys_firstByKey]
  simp only [keyed, List.mem_map, List.mem_filter, decide_eq_true_eq]
  constructor
  · rintro ⟨row, ⟨member, named⟩, rfl⟩
    exact ⟨named, row, member, rfl⟩
  · rintro ⟨named, row, member, rfl⟩
    exact ⟨row, ⟨member, named⟩, rfl⟩

theorem mergeRows_named (stake pa : List ρ) (named : ∀ row ∈ stake ++ pa, key row ≠ "") :
    mergeRows key stake pa = firstByKey key (stake ++ pa) := by
  rw [mergeRows_eq, keyed, List.filter_eq_self.mpr fun row member => decide_eq_true (named row member)]

/-! ## Ledger rows -/

def loweredEntry (le : LedgerEntry) : LedgerEntry := { le with txHash := lower le.txHash }

/-- The chain, the transaction and the block an entry is booked at. -/
def position (le : LedgerEntry) : (Int × String) × Int := (chainTx le, le.blockNumber)

theorem lowered_pair (make : Int → String → Direction → Int → LedgerEntry) (debited credited : String)
    (amount : Int) (here : (Int × String) × Int)
    (own : ∀ i account direction, position (loweredEntry (make i account direction amount)) = here)
    (faithful : ∀ i account, signedAmount (make i account .debit amount) = amount ∧
      signedAmount (make i account .credit amount) = -amount) :
    ∃ posting : Posting signedAmount position,
      posting.entries = (bookPair make debited credited amount).map loweredEntry := by
  refine ⟨⟨_, ?_, ?_⟩, rfl⟩
  · have kept (le : LedgerEntry) : signedAmount (loweredEntry le) = signedAmount le := rfl
    simp [net, kept, faithful]
  · intro e member e' member'
    simp only [List.map_cons, List.map_nil, List.mem_cons, List.not_mem_nil, or_false]
      at member member'
    rcases member with rfl | rfl <;> rcases member' with rfl | rfl <;>
      exact (own _ _ _).trans (own _ _ _).symm

theorem stake_posting (sha256 : Digest) (movements : List TokenMovement) (action : EconomicAction) :
    ∃ posting : Posting signedAmount position,
      posting.entries = (buildLedgerEntries sha256 action movements).map loweredEntry := by
  rcases buildLedgerEntries_cases sha256 action movements with none | ⟨debited, credited, pair⟩
  · exact ⟨⟨[], rfl, by simp⟩, by rw [none]; rfl⟩
  · rw [pair]
    exact lowered_pair _ _ _ _ ((action.chainId, lower action.txHash), action.blockNumber)
      (fun _ _ _ => rfl) fun _ _ => ⟨rfl, rfl⟩

theorem pa_posting (sha256 : Digest) (action : PAEconomicAction) :
    ∃ posting : Posting signedAmount position,
      posting.entries = (buildPaLedgerEntries sha256 action).map loweredEntry := by
  rcases buildPaLedgerEntries_cases sha256 action with none | ⟨debited, credited, amount, pair⟩
  · exact ⟨⟨[], rfl, by simp⟩, by rw [none]; rfl⟩
  · rw [pair]
    exact lowered_pair _ _ _ _ ((action.chainId, lower action.txHash), action.blockNumber)
      (fun _ _ _ => rfl) fun _ _ => ⟨rfl, rfl⟩

theorem net_position {α : Type} (book : α → List LedgerEntry)
    (posted : ∀ a, ∃ posting : Posting signedAmount position, posting.entries = book a) (actions : List α)
    (k : (Int × String) × Int) : net signedAmount ((actions.flatMap book).filter (position · = k)) = 0 := by
  choose posting booked using posted
  have whole : actions.flatMap book = (actions.map posting).flatMap Posting.entries := by
    rw [List.flatMap_map]
    exact List.flatMap_congr fun a _ => (booked a).symm
  rw [whole]
  exact net_group _ k

theorem entries_rows (entries : List LedgerEntry) (runPartitionId : String) :
    (entries.map (ledgerRow · runPartitionId)).map LedgerEntryRow.entry = entries.map loweredEntry := by
  rw [List.map_map]
  rfl

/-- Nothing is out of balance exactly when every transaction nets to nothing. -/
theorem imbalance_eq_none_iff (ledger : List LedgerEntryRow) :
    imbalance ledger = none ↔ ∀ txHash, txNet (ledger.map LedgerEntryRow.entry) txHash = 0 := by
  generalize entriesOf : ledger.map LedgerEntryRow.entry = entries
  have sums : ∀ txHash total,
      (Dict.gather LedgerEntry.txHash addToSums Dict.empty entries).get? txHash = some total ↔
        (∃ e ∈ entries, e.txHash = txHash) ∧
          total = (totalOf .debit (entries.filter (·.txHash = txHash)),
            totalOf .credit (entries.filter (·.txHash = txHash))) := by
    intro txHash total
    rw [Dict.get?_gather, Dict.get?_empty]
    by_cases present : ∃ e ∈ entries, e.txHash = txHash
    · have nonempty : entries.filter (·.txHash = txHash) ≠ [] := by
        obtain ⟨e, member, same⟩ := present
        exact List.ne_nil_of_mem (List.mem_filter.mpr ⟨member, by simpa using same⟩)
      rw [foldl_addToSums _ _ nonempty, Option.some.injEq]
      constructor
      · exact fun same => ⟨present, by simpa using same.symm⟩
      · exact fun both => by simpa using both.2.symm
    · rw [filter_absent entries present]
      simp [present]
  rw [imbalance, entriesOf, List.find?_eq_none]
  have each := net_groups_iff entries LedgerEntry.txHash fun _ => True
  simp only [forall_const] at each
  simp only [txNet]
  rw [← each]
  constructor
  · intro balanced e member
    have found := (sums e.txHash _).mpr ⟨⟨e, member, rfl⟩, rfl⟩
    have here := balanced _ ((Dict.get?_eq_some_iff _ _ _).mp found)
    rw [← totals_eq_iff]
    simpa using here
  · rintro balanced ⟨txHash, total⟩ member
    obtain ⟨⟨e, inside, rfl⟩, rfl⟩ := (sums txHash total).mp ((Dict.get?_eq_some_iff _ _ _).mpr member)
    have here := balanced e inside
    rw [← totals_eq_iff] at here
    simpa using here

/-! ## Entries of two ledgers -/

section Entries
variable {sha256 : Digest} (injective : Function.Injective sha256)
include injective

theorem entryIds_apart {tag : String} (freeTag : BarFree tag) {α : Type} {actionId : α → String}
    {book : α → List LedgerEntry} (identified : IdentifiesEntries sha256 tag actionId book) (a a' : α)
    (differ : actionId a ≠ actionId a') :
    List.Disjoint ((book a).map LedgerEntry.entryId) ((book a').map LedgerEntry.entryId) := by
  intro id here there
  exact differ (taggedBy_inj injective freeTag freeTag (entryId_tagged identified a id here)
    (entryId_tagged identified a' id there)).2

theorem entryIds_single_nodup {tag : String} (freeTag : BarFree tag) {α : Type} {actionId : α → String}
    {book : α → List LedgerEntry} (identified : IdentifiesEntries sha256 tag actionId book) (a : α) :
    ((book a).map LedgerEntry.entryId).Nodup := by
  have one := entryIds_nodup injective freeTag identified [a] (List.nodup_singleton _)
  rwa [List.flatMap_singleton] at one

/-- Actions that all book something: the entries kept are those of the first action under each id. -/
theorem firstByKey_booked {tag : String} (freeTag : BarFree tag) {α : Type} {actionId : α → String}
    {book : α → List LedgerEntry} (identified : IdentifiesEntries sha256 tag actionId book)
    (actions : List α) (booked : ∀ a ∈ actions, book a ≠ []) :
    firstByKey LedgerEntry.entryId (actions.flatMap book) = (firstByKey actionId actions).flatMap book := by
  apply firstByKey_flatMap
  · exact fun a _ => entryIds_single_nodup injective freeTag identified a
  · intro a member a' member' same
    rcases identified a with none | two
    · exact absurd (List.map_eq_nil_iff.mp none) (booked a member)
    · rcases identified a' with none | two'
      · exact absurd (List.map_eq_nil_iff.mp none) (booked a' member')
      · rw [two, two', same]
  · exact fun a _ a' _ differ => entryIds_apart injective freeTag identified a a' differ

end Entries

end EconomicLedger.Seed
