import EconomicLedger.Checkpoint.Entries
import EconomicLedger.Lib.Keyed
import Mathlib.Data.List.Induction

/-!
# What a checkpoint reports

The three queries on a key, and the answers a history of calls asks for: the highest block the key
was advanced to, the hash of the first advance to it, and the ranges marked and not cleared since.
-/

namespace EconomicLedger.Checkpoint
open EconomicLedger.Model

structure Report where
  lastProcessedBlock : Int
  lastProcessedBlockHash : Option String
  pendingReplays : List (Int × Int)
deriving Repr, DecidableEq

def report (state : Checkpoints) (key : CheckpointKey) : Report :=
  { lastProcessedBlock := lastProcessedBlock state key
    lastProcessedBlockHash := lastProcessedBlockHash state key
    pendingReplays := pendingReplays state key }

def reportOf : Option CheckpointState → Report
  | none => ⟨0, none, []⟩
  | some s => ⟨s.lastBlock, s.lastBlockHash, s.pendingReplays⟩

theorem report_eq (state : Checkpoints) (key : CheckpointKey) :
    report state key = reportOf (state.get? key) := by
  unfold report lastProcessedBlock lastProcessedBlockHash pendingReplays
  cases state.get? key <;> rfl

/-! ## The answers of a history -/

def advanceOf (key : CheckpointKey) : CheckpointCall → Option (Int × String)
  | .advance own blockNumber blockHash => if own = key then some (blockNumber, blockHash) else none
  | _ => none

def advances (key : CheckpointKey) (calls : List CheckpointCall) : List (Int × String) :=
  calls.filterMap (advanceOf key)

def highestBlock (key : CheckpointKey) (calls : List CheckpointCall) : Int :=
  ((advances key calls).map Prod.fst).max?.getD 0

def hashOfHighest (key : CheckpointKey) (calls : List CheckpointCall) : Option String :=
  ((advances key calls).find? fun a => a.1 = highestBlock key calls).map Prod.snd

/-- The ranges marked for a key with no later clearing, one for each marking. -/
def uncleared (key : CheckpointKey) : List CheckpointCall → List (Int × Int)
  | [] => []
  | .markReplay own range :: later =>
      if own = key ∧ .clearReplay key range ∉ later then range :: uncleared key later
      else uncleared key later
  | _ :: later => uncleared key later

def historyReport (key : CheckpointKey) (calls : List CheckpointCall) : Report :=
  { lastProcessedBlock := highestBlock key calls
    lastProcessedBlockHash := hashOfHighest key calls
    pendingReplays := Keyed.firstByKey id (uncleared key calls) }

def Positive (calls : List CheckpointCall) : Prop :=
  ∀ key blockNumber blockHash, .advance key blockNumber blockHash ∈ calls → 1 ≤ blockNumber

/-! ## One call -/

def Report.after (r : Report) : CheckpointCall → Report
  | .advance _ blockNumber blockHash =>
      if r.lastProcessedBlock < blockNumber then
        { r with lastProcessedBlock := blockNumber, lastProcessedBlockHash := some blockHash }
      else r
  | .markReplay _ range =>
      if r.pendingReplays.contains range then r
      else { r with pendingReplays := r.pendingReplays ++ [range] }
  | .clearReplay _ range => { r with pendingReplays := r.pendingReplays.filter (· ≠ range) }

theorem reportOf_entryAfter (o : Option CheckpointState) (call : CheckpointCall)
    (positive : Positive [call]) : reportOf (entryAfter o call) = (reportOf o).after call := by
  cases call with
  | advance key blockNumber blockHash =>
      cases o with
      | none =>
          have above : (0 : Int) < blockNumber := positive key blockNumber blockHash (by simp)
          simp [entryAfter, reportOf, Report.after, above]
      | some s => by_cases higher : s.lastBlock < blockNumber <;>
          simp [entryAfter, reportOf, Report.after, higher]
  | markReplay key range =>
      cases o with
      | none => simp [entryAfter, reportOf, Report.after, unadvanced]
      | some s => by_cases pending : range ∈ s.pendingReplays <;>
          simp [entryAfter, reportOf, Report.after, pending]
  | clearReplay key range =>
      cases o with
      | none => simp [entryAfter, reportOf, Report.after]
      | some s => simp [entryAfter, reportOf, Report.after]

theorem max?_concat (blocks : List Int) (b : Int) (nonneg : 0 ≤ b) :
    (blocks ++ [b]).max?.getD 0 = max (blocks.max?.getD 0) b := by
  cases blocks with
  | nil => exact (Int.max_eq_right nonneg).symm
  | cons first rest =>
      rw [List.cons_append, List.max?_cons', List.max?_cons', List.foldl_append]
      rfl

theorem highest_of_ne_nil (as : List (Int × String)) (nonempty : as ≠ []) :
    ∃ a ∈ as, a.1 = (as.map Prod.fst).max?.getD 0 := by
  cases top : (as.map Prod.fst).max? with
  | none => exact absurd (List.map_eq_nil_iff.mp (List.max?_eq_none_iff.mp top)) nonempty
  | some m => exact List.mem_map.mp (List.max?_mem top)

theorem le_highest (as : List (Int × String)) (a : Int × String) (member : a ∈ as) :
    a.1 ≤ (as.map Prod.fst).max?.getD 0 := by
  cases top : (as.map Prod.fst).max? with
  | none =>
      have empty : as = [] := List.map_eq_nil_iff.mp (List.max?_eq_none_iff.mp top)
      exact absurd empty (List.ne_nil_of_mem member)
  | some m => exact (List.max?_eq_some_iff.mp top).2 a.1 (List.mem_map_of_mem member)

theorem advances_concat (key : CheckpointKey) (calls : List CheckpointCall) (call : CheckpointCall) :
    advances key (calls ++ [call]) = advances key calls ++ (advanceOf key call).toList := by
  rw [advances, List.filterMap_append]
  cases found : advanceOf key call <;> simp [advances, found]

theorem highestBlock_advance (key : CheckpointKey) (calls : List CheckpointCall)
    (blockNumber : Int) (blockHash : String) (above : 1 ≤ blockNumber) :
    highestBlock key (calls ++ [.advance key blockNumber blockHash]) =
      max (highestBlock key calls) blockNumber := by
  rw [highestBlock, advances_concat]
  simp only [advanceOf, if_true, Option.toList_some, List.map_append, List.map_cons, List.map_nil]
  exact max?_concat _ blockNumber (by omega)

theorem hashOfHighest_advance (key : CheckpointKey) (calls : List CheckpointCall)
    (blockNumber : Int) (blockHash : String) (above : 1 ≤ blockNumber) :
    hashOfHighest key (calls ++ [.advance key blockNumber blockHash]) =
      if highestBlock key calls < blockNumber then some blockHash else hashOfHighest key calls := by
  rw [hashOfHighest, highestBlock_advance key calls blockNumber blockHash above, advances_concat]
  simp only [advanceOf, if_true, Option.toList_some, List.find?_append]
  split
  next higher =>
    -- No earlier advance reached the new height.
    have fresh : (advances key calls).find? (fun a => a.1 = max (highestBlock key calls) blockNumber) =
        none := by
      rw [List.find?_eq_none]
      intro a member same
      have bound := le_highest (advances key calls) a member
      rw [← highestBlock] at bound
      simp only [decide_eq_true_eq] at same
      omega
    rw [fresh, Int.max_eq_right (by omega)]
    simp
  next lower =>
    have same : max (highestBlock key calls) blockNumber = highestBlock key calls :=
      Int.max_eq_left (by omega)
    rw [same, hashOfHighest]
    -- The height was reached before, so the first advance to it is an earlier one.
    have nonempty : advances key calls ≠ [] := by
      intro none
      have zero : highestBlock key calls = 0 := by rw [highestBlock, none]; rfl
      omega
    obtain ⟨a, member, top⟩ := highest_of_ne_nil (advances key calls) nonempty
    obtain ⟨first, found⟩ : ∃ first,
        (advances key calls).find? (fun a => a.1 = highestBlock key calls) = some first := by
      rw [← Option.isSome_iff_exists, List.find?_isSome]
      exact ⟨a, member, decide_eq_true top⟩
    rw [found]
    rfl

theorem uncleared_concat_advance (key own : CheckpointKey) (calls : List CheckpointCall)
    (blockNumber : Int) (blockHash : String) :
    uncleared key (calls ++ [.advance own blockNumber blockHash]) = uncleared key calls := by
  induction calls with
  | nil => rfl
  | cons first rest ih =>
      cases first with
      | markReplay key' range' =>
          simp only [List.cons_append, uncleared, ih, List.mem_append, List.mem_singleton,
            reduceCtorEq, or_false]
      | advance => simpa only [List.cons_append, uncleared] using ih
      | clearReplay => simpa only [List.cons_append, uncleared] using ih

theorem uncleared_concat_mark (key own : CheckpointKey) (calls : List CheckpointCall)
    (range : Int × Int) :
    uncleared key (calls ++ [.markReplay own range]) =
      uncleared key calls ++ if own = key then [range] else [] := by
  induction calls with
  | nil => by_cases same : own = key <;> simp [uncleared, same]
  | cons call rest ih =>
      cases call with
      | markReplay key' range' =>
          simp only [List.cons_append, uncleared, ih, List.mem_append, List.mem_singleton,
            reduceCtorEq, or_false]
          split <;> rfl
      | advance => simpa only [List.cons_append, uncleared] using ih
      | clearReplay => simpa only [List.cons_append, uncleared] using ih

theorem uncleared_concat_clear (key : CheckpointKey) (calls : List CheckpointCall)
    (range : Int × Int) :
    uncleared key (calls ++ [.clearReplay key range]) =
      (uncleared key calls).filter (· ≠ range) := by
  induction calls with
  | nil => rfl
  | cons call rest ih =>
      cases call with
      | markReplay key' range' =>
          simp only [List.cons_append, uncleared, ih, List.mem_append, List.mem_singleton,
            CheckpointCall.clearReplay.injEq, true_and, not_or]
          by_cases kept : key' = key ∧ .clearReplay key range' ∉ rest
          · rw [if_pos kept]
            by_cases same : range' = range
            · simp [same]
            · simp [kept.1, kept.2, same]
          · have dropped : ¬ (key' = key ∧ .clearReplay key range' ∉ rest ∧ range' ≠ range) :=
              fun h => kept ⟨h.1, h.2.1⟩
            rw [if_neg dropped, if_neg kept]
      | advance => simpa only [List.cons_append, uncleared] using ih
      | clearReplay => simpa only [List.cons_append, uncleared] using ih

theorem uncleared_concat_other (key : CheckpointKey) (calls : List CheckpointCall)
    (call : CheckpointCall) (other : call.key ≠ key) :
    uncleared key (calls ++ [call]) = uncleared key calls := by
  induction calls with
  | nil =>
      cases call with
      | markReplay own range => simp [uncleared, show own ≠ key from other]
      | advance => rfl
      | clearReplay => rfl
  | cons first rest ih =>
      cases first with
      | markReplay key' range' =>
          have notClear : call ≠ .clearReplay key range' := by
            intro same
            exact other (congrArg CheckpointCall.key same)
          simp only [List.cons_append, uncleared, ih, List.mem_append, List.mem_singleton,
            notClear.symm, or_false]
      | advance => simpa only [List.cons_append, uncleared] using ih
      | clearReplay => simpa only [List.cons_append, uncleared] using ih

/-! ## A history -/

theorem advances_other (key : CheckpointKey) (calls : List CheckpointCall) (call : CheckpointCall)
    (other : advanceOf key call = none) : advances key (calls ++ [call]) = advances key calls := by
  rw [advances_concat, other, Option.toList_none, List.append_nil]

theorem historyReport_concat (key : CheckpointKey) (calls : List CheckpointCall)
    (call : CheckpointCall) (positive : Positive [call]) :
    historyReport key (calls ++ [call]) =
      if call.key = key then (historyReport key calls).after call else historyReport key calls := by
  split
  next own =>
    subst own
    cases call with
    | advance key blockNumber blockHash =>
        have above := positive key blockNumber blockHash (by simp)
        change historyReport key _ = (historyReport key calls).after _
        rw [Report.after]
        by_cases higher : highestBlock key calls < blockNumber
        · rw [if_pos (show (historyReport key calls).lastProcessedBlock < blockNumber from higher),
            historyReport, uncleared_concat_advance,
            highestBlock_advance key calls blockNumber blockHash above,
            hashOfHighest_advance key calls blockNumber blockHash above, if_pos higher,
            Int.max_eq_right (by omega)]
          rfl
        · rw [if_neg (show ¬ (historyReport key calls).lastProcessedBlock < blockNumber from higher),
            historyReport, uncleared_concat_advance,
            highestBlock_advance key calls blockNumber blockHash above,
            hashOfHighest_advance key calls blockNumber blockHash above, if_neg higher,
            Int.max_eq_left (by omega)]
          rfl
    | markReplay key range =>
        have blocks := advances_other key calls (.markReplay key range) rfl
        simp only [CheckpointCall.key, historyReport, Report.after, highestBlock, hashOfHighest, blocks,
          uncleared_concat_mark, if_true, Keyed.firstByKey_concat, List.contains_iff_mem,
          Keyed.mem_firstByKey_id, List.map_id, id]
        split <;> rfl
    | clearReplay key range =>
        have blocks := advances_other key calls (.clearReplay key range) rfl
        have pending := Keyed.firstByKey_filter id (fun r => decide (r ≠ range)) (uncleared key calls)
        simp only [CheckpointCall.key, historyReport, Report.after, highestBlock, hashOfHighest, blocks,
          uncleared_concat_clear]
        exact congrArg _ pending
  next other =>
    have blocks : advances key (calls ++ [call]) = advances key calls := by
      apply advances_other
      cases call with
      | advance own blockNumber blockHash => exact if_neg other
      | markReplay => rfl
      | clearReplay => rfl
    rw [historyReport, hashOfHighest, highestBlock, blocks, uncleared_concat_other key calls call other]
    rfl

theorem reportOf_calls (key : CheckpointKey) (calls : List CheckpointCall) (positive : Positive calls) :
    reportOf ((calls.filter (·.key = key)).foldl entryAfter none) = historyReport key calls := by
  induction calls using List.reverseRecOn with
  | nil => rfl
  | append_singleton calls call ih =>
      have earlier : Positive calls := fun key b h member =>
        positive key b h (List.mem_append_left _ member)
      have last : Positive [call] := fun key b h member =>
        positive key b h (List.mem_append_right _ member)
      rw [historyReport_concat key calls call last, List.filter_append]
      by_cases own : call.key = key
      · rw [List.filter_cons_of_pos (by simpa using own), List.filter_nil, List.foldl_append,
          List.foldl_cons, List.foldl_nil, reportOf_entryAfter _ call last, ih earlier, if_pos own]
      · rw [List.filter_cons_of_neg (by simpa using own), List.filter_nil, List.append_nil, ih earlier,
          if_neg own]

end EconomicLedger.Checkpoint
