import EconomicLedger.Movements.Pairing

/-!
# Transfers as their evidence shows them

A log and a call both show a transfer at a position of its transaction. What the unification counts
beside the logs is a matter of these sightings alone: movements have one identifier where the
sightings are equal.
-/

namespace EconomicLedger.Movements
open Model Keyed

@[ext] structure Transfer where
  chainId : Int
  blockNumber : Int
  txHash : String
  fromAddr : String
  toAddr : String
  amount : Int
deriving DecidableEq

/-- A transfer at a log index or at a packed trace address. -/
@[ext] structure Sighting extends Transfer where
  position : Int
deriving DecidableEq

def Transfer.bucket (transfer : Transfer) : BucketKey :=
  (transfer.txHash, transfer.fromAddr, transfer.toAddr, transfer.amount)

def inBucket (sightings : List Sighting) (bucket : BucketKey) : List Sighting :=
  sightings.filter (·.bucket = bucket)

def repeated (calls : List Sighting) (s : Sighting) : Bool := 2 ≤ calls.count s

/-- A call of the bucket has the position of a log, or of another call. -/
def collides (logs calls : List Sighting) (bucket : BucketKey) : Bool :=
  (inBucket calls bucket).any fun s => s ∈ logs || repeated calls s

/-- One call for each position without a log, in the buckets where positions collide. -/
def countedAgain (logs calls : List Sighting) : List Sighting :=
  (firstByKey id calls).filter fun s => s ∉ logs && collides logs calls s.bucket

/-! ## Sightings of movements -/

def freshSightings (logs calls : List Sighting) : List Sighting :=
  firstByKey id (calls.filter fun s => s ∉ logs)

def settledSightings (logs calls : List Sighting) (bucket : BucketKey) : Bool :=
  (inBucket logs bucket).length + ((inBucket (freshSightings logs calls) bucket).filter (repeated calls)).length =
    ((inBucket (freshSightings logs calls) bucket).filter (!repeated calls ·)).length

def recountedSightings (logs calls : List Sighting) : List Sighting :=
  (freshSightings logs calls).filter fun s => repeated calls s || !settledSightings logs calls s.bucket

section
variable {α β : Type*} (events : List α) (calls : List β) (logged : α → TokenMovement)
  (called : β → TokenMovement) (seenLog : α → Sighting) (seenCall : β → Sighting)
  (meet : ∀ call ∈ calls, ∀ ev ∈ events,
    (logged ev).movementId = (called call).movementId ↔ seenLog ev = seenCall call)
  (agree : ∀ call ∈ calls, ∀ call' ∈ calls,
    (called call).movementId = (called call').movementId ↔ seenCall call = seenCall call')

def freshCalls : List β :=
  firstByKey seenCall (calls.filter fun call => seenCall call ∉ events.map seenLog)

theorem freshCalls_subset : freshCalls events calls seenLog seenCall ⊆ calls := fun _ member =>
  (List.mem_filter.mp ((firstByKey_sublist _ _).subset member)).1

theorem freshSightings_map : freshSightings (events.map seenLog) (calls.map seenCall) =
    (freshCalls events calls seenLog seenCall).map seenCall := by
  rw [freshSightings, List.filter_map, firstByKey_map]
  rfl

include meet agree in
theorem freshTraces_map : freshTraces (events.map logged) (calls.map called) =
    (freshCalls events calls seenLog seenCall).map called := by
  have fresh : (calls.filter fun call => (called call).movementId ∉ ids (events.map logged)) =
      calls.filter fun call => seenCall call ∉ events.map seenLog := by
    apply List.filter_congr
    intro call member
    apply decide_eq_decide.mpr
    simp only [ids, List.mem_map, exists_exists_and_eq_and]
    exact not_congr (exists_congr fun ev => and_congr_right fun inside => meet call member ev inside)
  rw [freshTraces, List.filter_map, firstByKey_map]
  simp only [Function.comp_def, fresh]
  congr 1
  exact firstByKey_congr _ _ _ fun call member call' member' =>
    agree call (List.mem_filter.mp member).1 call' (List.mem_filter.mp member').1

include agree in
theorem shared_map (call : β) (member : call ∈ calls) :
    shared (calls.map called) (called call) = repeated (calls.map seenCall) (seenCall call) := by
  have same : (calls.filter fun call' => (called call').movementId = (called call).movementId) =
      calls.filter fun call' => seenCall call' = seenCall call :=
    List.filter_congr fun call' member' => decide_eq_decide.mpr (agree call' member' call member)
  have count : (calls.map seenCall).count (seenCall call) =
      (calls.filter fun call' => seenCall call' = seenCall call).length := by
    rw [List.count, List.countP_map, List.countP_eq_length_filter]
    simp [Function.comp_def, beq_eq_decide]
  rw [shared, tracesWith, List.filter_map, List.length_map, repeated, count]
  simp only [Function.comp_def, same]

variable (logBucket : ∀ ev, (logged ev).bucketKey = (seenLog ev).bucket)
  (callBucket : ∀ call, (called call).bucketKey = (seenCall call).bucket)

include meet agree logBucket callBucket in
theorem settled_map (bucket : BucketKey) :
    settled (events.map logged) (calls.map called) bucket =
      settledSightings (events.map seenLog) (calls.map seenCall) bucket := by
  have logSide : (bucketOf (events.map logged) bucket).length =
      (inBucket (events.map seenLog) bucket).length := by
    simp only [bucketOf, inBucket, List.filter_map, List.length_map, Function.comp_def, logBucket]
  have callSide (p : TokenMovement → Bool) (q : Sighting → Bool)
      (same : ∀ call ∈ calls, p (called call) = q (seenCall call)) :
      ((bucketOf ((freshCalls events calls seenLog seenCall).map called) bucket).filter p).length =
        ((inBucket ((freshCalls events calls seenLog seenCall).map seenCall) bucket).filter q).length := by
    simp only [bucketOf, inBucket, List.filter_map, List.length_map, Function.comp_def, callBucket]
    congr 1
    apply List.filter_congr
    intro call member
    exact same call (freshCalls_subset events calls seenLog seenCall (List.mem_filter.mp member).1)
  have isShared : ∀ call ∈ calls, shared (calls.map called) (called call) =
      repeated (calls.map seenCall) (seenCall call) := shared_map calls called seenCall agree
  unfold settled settledSightings
  rw [freshTraces_map events calls logged called seenLog seenCall meet agree, freshSightings_map, logSide,
    callSide (shared (calls.map called)) (repeated (calls.map seenCall)) isShared,
    callSide (!shared (calls.map called) ·) (!repeated (calls.map seenCall) ·) fun call member => by
      rw [isShared call member]]

include meet agree logBucket callBucket in
theorem recounted_map : ∃ again : List β,
    recounted (events.map logged) (calls.map called) = again.map called ∧
      again.map seenCall = recountedSightings (events.map seenLog) (calls.map seenCall) := by
  let again := (freshCalls events calls seenLog seenCall).filter fun call =>
    repeated (calls.map seenCall) (seenCall call) ||
      !settledSightings (events.map seenLog) (calls.map seenCall) (seenCall call).bucket
  refine ⟨again, ?_, ?_⟩
  · rw [recounted, freshTraces_map events calls logged called seenLog seenCall meet agree, List.filter_map]
    congr 1
    apply List.filter_congr
    intro call member
    have inside := freshCalls_subset events calls seenLog seenCall member
    rw [Function.comp_apply, shared_map calls called seenCall agree call inside, callBucket,
      settled_map events calls logged called seenLog seenCall meet agree logBucket callBucket]
  · rw [recountedSightings, freshSightings_map, List.filter_map]
    rfl

end

/-! ## Buckets with as many logs as calls -/

variable {logs calls : List Sighting}

theorem inBucket_fresh (bucket : BucketKey) :
    inBucket (freshSightings logs calls) bucket =
      firstByKey id ((inBucket calls bucket).filter fun s => s ∉ logs) := by
  have commute := firstByKey_filter (id : Sighting → Sighting) (fun s => decide (s.bucket = bucket))
    (calls.filter fun s => s ∉ logs)
  rw [inBucket, inBucket, List.filter_comm]
  exact commute.symm

theorem settledSightings_iff (bucket : BucketKey)
    (even : (inBucket logs bucket).length = (inBucket calls bucket).length) :
    settledSightings logs calls bucket = true ↔ collides logs calls bucket = false := by
  have apart : collides logs calls bucket = false ↔
      ∀ s ∈ inBucket calls bucket, s ∉ logs ∧ repeated calls s = false := by
    simp [collides]
  rw [apart]
  constructor
  · intro isSettled
    -- the single fresh calls are as many as all calls of the bucket
    have single : (((inBucket (freshSightings logs calls) bucket).filter (!repeated calls ·)).Sublist
        (inBucket calls bucket)) := by
      rw [inBucket_fresh]
      exact List.filter_sublist.trans ((firstByKey_sublist _ _).trans List.filter_sublist)
    have many : (inBucket calls bucket).length ≤
        ((inBucket (freshSightings logs calls) bucket).filter (!repeated calls ·)).length := by
      simp only [settledSightings, decide_eq_true_eq] at isSettled
      omega
    have all := single.eq_of_length_le many
    intro s member
    rw [← all, List.mem_filter, inBucket_fresh, mem_firstByKey_id, List.mem_filter] at member
    exact ⟨by simpa using member.1.2, by simpa using member.2⟩
  · intro apart
    have fresh : inBucket (freshSightings logs calls) bucket = inBucket calls bucket := by
      have once : ((inBucket calls bucket).map id).Nodup := by
        rw [List.map_id, List.nodup_iff_count_le_one]
        intro s
        by_cases member : s ∈ inBucket calls bucket
        · have few := (apart s member).2
          have sub := (List.filter_sublist (p := fun s : Sighting => decide (s.bucket = bucket))
            (l := calls)).count_le s
          simp only [repeated, decide_eq_false_iff_not, not_le] at few
          exact sub.trans (by omega)
        · rw [List.count_eq_zero_of_not_mem member]
          exact Nat.zero_le 1
      rw [inBucket_fresh, List.filter_eq_self.mpr fun s member => by simpa using (apart s member).1,
        firstByKey_of_nodup id _ once]
    have noneRepeated : (inBucket calls bucket).filter (repeated calls) = [] :=
      List.filter_eq_nil_iff.mpr fun s member => by simp [(apart s member).2]
    have allSingle : (inBucket calls bucket).filter (!repeated calls ·) = inBucket calls bucket :=
      List.filter_eq_self.mpr fun s member => by simp [(apart s member).2]
    simp [settledSightings, fresh, noneRepeated, allSingle, even]

theorem again_iff (s : Sighting) (member : s ∈ calls)
    (even : (inBucket logs s.bucket).length = (inBucket calls s.bucket).length) :
    (repeated calls s || !settledSightings logs calls s.bucket) = collides logs calls s.bucket := by
  have here : s ∈ inBucket calls s.bucket := List.mem_filter.mpr ⟨member, by simp⟩
  have verdict := settledSightings_iff s.bucket even
  cases collision : collides logs calls s.bucket with
  | false =>
      have single : repeated calls s = false := by
        simp only [collides, List.any_eq_false, Bool.or_eq_true, not_or, Bool.not_eq_true] at collision
        exact (collision s here).2
      rw [verdict.mpr collision, single]
      rfl
  | true =>
      have unsettled : settledSightings logs calls s.bucket = false := by
        cases isSettled : settledSightings logs calls s.bucket with
        | false => rfl
        | true => simp [verdict.mp isSettled] at collision
      rw [unsettled]
      simp

end EconomicLedger.Movements
