import EconomicLedger.Checkpoint.Entries

/-!
# Replay bookkeeping and the cursor

Marking a range for replay makes an entry at block 0 without a hash where there is none, and a first
advance to block 0 does not move it.
-/

namespace EconomicLedger.Checkpoint
open EconomicLedger.Model

/-! ## The cursor of one key -/

def cursor (state : Checkpoints) (key : CheckpointKey) : Int × Option String :=
  (lastProcessedBlock state key, lastProcessedBlockHash state key)

def cursorOf : Option CheckpointState → Int × Option String
  | some s => (s.lastBlock, s.lastBlockHash)
  | none => (0, none)

theorem cursor_eq (state : Checkpoints) (key : CheckpointKey) :
    cursor state key = cursorOf (state.get? key) := by
  unfold cursor lastProcessedBlock lastProcessedBlockHash cursorOf
  cases state.get? key <;> rfl

def isAdvance : CheckpointCall → Bool
  | .advance _ _ _ => true
  | _ => false

def movesUp : CheckpointCall → Bool
  | .advance _ blockNumber _ => 0 < blockNumber
  | _ => false

def NonnegBlocks (calls : List CheckpointCall) : Prop :=
  ∀ key blockNumber blockHash, .advance key blockNumber blockHash ∈ calls → 0 ≤ blockNumber

def moveCursor (c : Int × Option String) : CheckpointCall → Int × Option String
  | .advance _ blockNumber blockHash => if c.1 < blockNumber then (blockNumber, some blockHash) else c
  | _ => c

theorem entryAfter_some (s : CheckpointState) (call : CheckpointCall) :
    ∃ s', entryAfter (some s) call = some s' ∧ cursorOf (some s') = moveCursor (cursorOf (some s)) call := by
  cases call with
  | advance key blockNumber blockHash =>
      by_cases higher : s.lastBlock < blockNumber <;> simp [entryAfter, cursorOf, moveCursor, higher]
  | markReplay key range =>
      by_cases known : range ∈ s.pendingReplays <;> simp [entryAfter, cursorOf, moveCursor, known]
  | clearReplay key range => exact ⟨_, rfl, rfl⟩

theorem cursorOf_foldl (s : CheckpointState) (calls : List CheckpointCall) :
    cursorOf (calls.foldl entryAfter (some s)) = calls.foldl moveCursor (cursorOf (some s)) := by
  induction calls generalizing s with
  | nil => rfl
  | cons call rest ih =>
      obtain ⟨s', after, moved⟩ := entryAfter_some s call
      rw [List.foldl_cons, after, ih, moved, List.foldl_cons]

theorem foldl_moveCursor_advances (c : Int × Option String) (calls : List CheckpointCall) :
    (calls.filter isAdvance).foldl moveCursor c = calls.foldl moveCursor c := by
  induction calls generalizing c with
  | nil => rfl
  | cons call rest ih =>
      cases call with
      | advance key blockNumber blockHash => exact ih _
      | markReplay key range => exact ih c
      | clearReplay key range => exact ih c

theorem cursorOf_present (s : CheckpointState) (calls : List CheckpointCall) :
    cursorOf (calls.foldl entryAfter (some s)) =
      cursorOf ((calls.filter isAdvance).foldl entryAfter (some s)) := by
  rw [cursorOf_foldl, cursorOf_foldl, foldl_moveCursor_advances]

/-! ## A key without an entry -/

/-- Cursors at block 0 that differ in the hash meet at the first block above 0. -/
theorem foldl_moveCursor_zero (x y : Option String) (differ : x ≠ y) (calls : List CheckpointCall)
    (nonneg : NonnegBlocks calls) :
    calls.foldl moveCursor (0, x) = calls.foldl moveCursor (0, y) ↔ ∃ call ∈ calls, movesUp call = true := by
  induction calls with
  | nil => simpa using differ
  | cons call rest ih =>
      have later : NonnegBlocks rest := fun key b h member =>
        nonneg key b h (List.mem_cons_of_mem call member)
      rw [List.foldl_cons, List.foldl_cons, List.exists_mem_cons_iff]
      cases call with
      | advance key blockNumber blockHash =>
          by_cases up : 0 < blockNumber
          · simp [moveCursor, movesUp, up]
          · simpa [moveCursor, movesUp, up] using ih later
      | markReplay key range => simpa [moveCursor, movesUp] using ih later
      | clearReplay key range => simpa [moveCursor, movesUp] using ih later

/-- The first call that makes an entry is a `mark_replay`. -/
def markedFirst : List CheckpointCall → Bool
  | [] => false
  | .advance _ _ _ :: _ => false
  | .markReplay _ _ :: _ => true
  | .clearReplay _ _ :: rest => markedFirst rest

theorem cursorOf_advances (advances : List CheckpointCall) (each : ∀ call ∈ advances, isAdvance call = true)
    (nonneg : NonnegBlocks advances) :
    advances.foldl moveCursor (0, none) = cursorOf (advances.foldl entryAfter none) ↔
      advances = [] ∨ ∃ call ∈ advances, movesUp call = true := by
  cases advances with
  | nil => simp [cursorOf]
  | cons first others =>
      have isFirst := each first List.mem_cons_self
      cases first with
      | markReplay key range => cases isFirst
      | clearReplay key range => cases isFirst
      | advance key blockNumber blockHash =>
          have started : cursorOf ((.advance key blockNumber blockHash :: others).foldl entryAfter none) =
              others.foldl moveCursor (blockNumber, some blockHash) := cursorOf_foldl _ _
          have atZero := nonneg key blockNumber blockHash List.mem_cons_self
          have later : NonnegBlocks others := fun key b h member =>
            nonneg key b h (List.mem_cons_of_mem _ member)
          rw [started, List.foldl_cons, List.exists_mem_cons_iff]
          by_cases up : 0 < blockNumber
          · simp [moveCursor, movesUp, up]
          · obtain rfl : blockNumber = 0 := by omega
            have meet := foldl_moveCursor_zero none (some blockHash) (by simp) others later
            simpa [moveCursor, movesUp] using meet

theorem cursorOf_markReplay (key : CheckpointKey) (range : Int × Int) (rest : List CheckpointCall)
    (nonneg : NonnegBlocks rest) :
    cursorOf ((.markReplay key range :: rest).foldl entryAfter none) =
        cursorOf ((rest.filter isAdvance).foldl entryAfter none) ↔
      rest.filter isAdvance = [] ∨ ∃ call ∈ rest.filter isAdvance, movesUp call = true := by
  have placeholder : (.markReplay key range :: rest).foldl entryAfter none =
      rest.foldl entryAfter (some { unadvanced key with pendingReplays := [range] }) := rfl
  rw [placeholder, cursorOf_foldl, ← foldl_moveCursor_advances]
  exact cursorOf_advances _ (fun call member => (List.mem_filter.mp member).2)
    fun key b h member => nonneg key b h (List.mem_filter.mp member).1

theorem cursorOf_absent (calls : List CheckpointCall) (nonneg : NonnegBlocks calls) :
    cursorOf (calls.foldl entryAfter none) = cursorOf ((calls.filter isAdvance).foldl entryAfter none) ↔
      (markedFirst calls = true →
        calls.filter isAdvance = [] ∨ ∃ call ∈ calls.filter isAdvance, movesUp call = true) := by
  induction calls with
  | nil => simp [markedFirst]
  | cons call rest ih =>
      have later : NonnegBlocks rest := fun key b h member =>
        nonneg key b h (List.mem_cons_of_mem call member)
      cases call with
      | advance key blockNumber blockHash =>
          have same := cursorOf_present ⟨key.1, key.2, blockNumber, some blockHash, []⟩ rest
          simp only [markedFirst, Bool.false_eq_true, false_implies, iff_true]
          exact same
      | markReplay key range =>
          have meet := cursorOf_markReplay key range rest later
          simpa [markedFirst, isAdvance] using meet
      | clearReplay key range => exact ih later

/-! ## All keys -/

def callsOn (key : CheckpointKey) (calls : List CheckpointCall) : List CheckpointCall :=
  calls.filter (·.key = key)

/-- Dropping the replay calls leaves every cursor as it is exactly where no key that is marked before its
first advance advances to block 0 only. -/
theorem replay_keeps_cursor_iff (state : Checkpoints) (calls : List CheckpointCall)
    (nonneg : NonnegBlocks calls) :
    (∀ key, cursor (calls.foldl CheckpointCall.apply state) key =
      cursor ((calls.filter isAdvance).foldl CheckpointCall.apply state) key) ↔
    ∀ key, state.get? key = none → markedFirst (callsOn key calls) = true →
      (callsOn key calls).filter isAdvance = [] ∨
        ∃ call ∈ (callsOn key calls).filter isAdvance, movesUp call = true := by
  refine forall_congr' fun key => ?_
  have own : NonnegBlocks (callsOn key calls) := fun key' b h member =>
    nonneg key' b h (List.mem_filter.mp member).1
  rw [cursor_eq, cursor_eq, get?_calls, get?_calls, List.filter_comm]
  cases present : state.get? key with
  | some s => exact iff_of_true (cursorOf_present s (callsOn key calls)) fun absent => by cases absent
  | none => exact (cursorOf_absent (callsOn key calls) own).trans ⟨fun meet _ => meet, fun meet => meet rfl⟩

/-! ## First calls on a key -/

def chainLogs : CheckpointKey := (1, "pa_logs")

theorem replay_keeps_cursor_marked :
    cursor ([.markReplay chainLogs (3, 5), .advance chainLogs 0 "0xa", .advance chainLogs 4 "0xb"].foldl
        CheckpointCall.apply Dict.empty) chainLogs =
      cursor ([.advance chainLogs 0 "0xa", .advance chainLogs 4 "0xb"].foldl
        CheckpointCall.apply Dict.empty) chainLogs := by
  refine (replay_keeps_cursor_iff Dict.empty
    [.markReplay chainLogs (3, 5), .advance chainLogs 0 "0xa", .advance chainLogs 4 "0xb"] ?_).mpr ?_ chainLogs
  · intro key blockNumber blockHash member
    simp only [List.mem_cons, CheckpointCall.advance.injEq, reduceCtorEq, List.not_mem_nil, or_false,
      false_or] at member
    omega
  · intro key _ marked
    refine Or.inr ⟨.advance chainLogs 4 "0xb", ?_, rfl⟩
    by_cases own : chainLogs = key
    · simp [callsOn, CheckpointCall.key, own, isAdvance]
    · simp [callsOn, CheckpointCall.key, own, markedFirst] at marked

/-- A range is marked for replay before the first block is processed, and the hash of block 0 is lost. -/
theorem mark_loses_first_hash :
    NonnegBlocks [.markReplay chainLogs (3, 5), .advance chainLogs 0 "0xa"] ∧
    cursor ([.markReplay chainLogs (3, 5), .advance chainLogs 0 "0xa"].foldl
      CheckpointCall.apply Dict.empty) chainLogs = (0, none) ∧
    cursor (([.markReplay chainLogs (3, 5), .advance chainLogs 0 "0xa"].filter isAdvance).foldl
      CheckpointCall.apply Dict.empty) chainLogs = (0, some "0xa") := by
  refine ⟨fun key blockNumber blockHash member => ?_, by decide +kernel, by decide +kernel⟩
  simp only [List.mem_cons, CheckpointCall.advance.injEq, reduceCtorEq, List.not_mem_nil, or_false,
    false_or] at member
  omega

end EconomicLedger.Checkpoint
