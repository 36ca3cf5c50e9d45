import EconomicLedger.Lib.DoubleEntry
import EconomicLedger.Movements.Sightings
import Mathlib.Algebra.Order.BigOperators.Group.List
import Mathlib.Algebra.Order.Group.Int

/-!
# Flows

A balance delta adds up what each movement brings to an address and takes from it, so records beside
the logs leave every balance alone when in every block every address gets as much from them as it
gives.
-/

namespace EconomicLedger.Movements
open Model Text Keyed DoubleEntry

/-! ## Balances -/

def Transfer.effect (target : String) (transfer : Transfer) : Int :=
  (if lower transfer.toAddr = target then transfer.amount else 0) -
    if lower transfer.fromAddr = target then transfer.amount else 0

def Transfer.effectIn (target : String) (fromBlock toBlock : Int) (transfer : Transfer) : Int :=
  if transfer.blockNumber < fromBlock ∨ toBlock < transfer.blockNumber then 0 else transfer.effect target

def transferOf (m : TokenMovement) : Transfer :=
  { chainId := m.chainId
    blockNumber := m.blockNumber
    txHash := m.txHash
    fromAddr := m.fromAddr
    toAddr := m.toAddr
    amount := m.amount }

theorem computeBalanceDelta_eq (movements : List TokenMovement) (address : String) (fromBlock toBlock : Int) :
    computeBalanceDelta movements address fromBlock toBlock =
      (movements.map fun m => (transferOf m).effectIn (lower address) fromBlock toBlock).sum := by
  have step (delta : Int) (m : TokenMovement) : balanceStep (lower address) fromBlock toBlock delta m =
      delta + (transferOf m).effectIn (lower address) fromBlock toBlock := by
    unfold balanceStep Transfer.effectIn Transfer.effect transferOf
    split_ifs <;> simp only [add_zero, sub_zero, zero_sub] <;> ring
  have run (delta : Int) : movements.foldl (balanceStep (lower address) fromBlock toBlock) delta =
      delta + (movements.map fun m => (transferOf m).effectIn (lower address) fromBlock toBlock).sum := by
    induction movements generalizing delta with
    | nil => simp
    | cons m rest ih => rw [List.foldl_cons, ih, step, List.map_cons, List.sum_cons, add_assoc]
  rw [computeBalanceDelta, run, zero_add]

/-! ## Flows -/

def received (address : String) (sightings : List Sighting) : Int :=
  ((sightings.filter fun s => lower s.toAddr = lower address).map (·.amount)).sum

def sent (address : String) (sightings : List Sighting) : Int :=
  ((sightings.filter fun s => lower s.fromAddr = lower address).map (·.amount)).sum

/-- In every block every address gets as much as it gives. -/
def NoNetFlow (sightings : List Sighting) : Prop :=
  ∀ block address, received address (sightings.filter (·.blockNumber = block)) =
    sent address (sightings.filter (·.blockNumber = block))

def accountEntries (sightings : List Sighting) : List (String × Int) :=
  sightings.flatMap fun s => [(lower s.toAddr, s.amount), (lower s.fromAddr, -s.amount)]

theorem net_accountEntries (p : String → Bool) (sightings : List Sighting) :
    net Prod.snd ((accountEntries sightings).filter fun e => p e.1) =
      ((sightings.filter fun s => p (lower s.toAddr)).map (·.amount)).sum -
        ((sightings.filter fun s => p (lower s.fromAddr)).map (·.amount)).sum := by
  induction sightings with
  | nil => rfl
  | cons s rest ih =>
      have first : accountEntries (s :: rest) =
          [(lower s.toAddr, s.amount), (lower s.fromAddr, -s.amount)] ++ accountEntries rest := rfl
      rw [first, List.filter_append, net_append, ih]
      cases credit : p (lower s.toAddr) <;> cases debit : p (lower s.fromAddr) <;>
        simp [net, credit, debit] <;> ring

theorem flow_of_others (account : String) (sightings : List Sighting)
    (others : ∀ address, lower address ≠ lower account →
      received address sightings = sent address sightings) :
    received account sightings = sent account sightings := by
  -- what leaves one account reaches another
  have total : net Prod.snd (accountEntries sightings) = 0 := by
    have all := net_accountEntries (fun _ => true) sightings
    simpa using all
  have flow (address : String) :
      net Prod.snd ((accountEntries sightings).filter fun e => e.1 = lower address) =
        received address sightings - sent address sightings :=
    net_accountEntries (fun k => k = lower address) sightings
  have elsewhere : net Prod.snd ((accountEntries sightings).filter fun e => !decide (e.1 = lower account)) = 0 := by
    apply net_eq_zero_of_each _ Prod.fst
    intro address
    rw [List.filter_filter]
    by_cases inside : lower address = address ∧ lower address ≠ lower account
    · obtain ⟨lowered, differ⟩ := inside
      have same : ((accountEntries sightings).filter fun e =>
          decide (e.1 = address) && !decide (e.1 = lower account)) =
            (accountEntries sightings).filter fun e => e.1 = lower address := by
        apply List.filter_congr
        intro e _
        by_cases here : e.1 = address
        · simp [here, lowered, lowered ▸ differ]
        · simp [here, lowered]
      rw [same, flow, others address differ, sub_self]
    · rw [List.filter_eq_nil_iff.mpr]
      · rfl
      · intro e member here
        obtain ⟨isHere, differ⟩ := Bool.and_eq_true_iff.mp here
        obtain ⟨s, -, isEntry⟩ := List.mem_flatMap.mp member
        have lowered : lower e.1 = e.1 := by
          rcases List.mem_cons.mp isEntry with rfl | later
          · exact lower_lower _
          · rw [List.mem_singleton.mp later]
            exact lower_lower _
        obtain rfl := of_decide_eq_true isHere
        exact inside ⟨lowered, by simpa [lowered] using differ⟩
  have split := (List.filter_append_perm (fun e : String × Int => decide (e.1 = lower account))
    (accountEntries sightings)).map Prod.snd
  have parts := split.sum_eq
  rw [List.map_append, List.sum_append] at parts
  unfold net at total elsewhere flow
  rw [flow account, elsewhere, total, add_zero] at parts
  exact Int.sub_eq_zero.mp parts

theorem net_effect (address : String) (sightings : List Sighting) :
    net (fun s => s.toTransfer.effect (lower address)) sightings =
      received address sightings - sent address sightings := by
  induction sightings with
  | nil => rfl
  | cons s rest ih =>
      simp only [net, received, sent, List.map_cons, List.sum_cons, List.filter_cons, Transfer.effect] at ih ⊢
      rw [ih]
      split_ifs <;> simp_all <;> ring

theorem sum_effectIn (address : String) (fromBlock toBlock : Int) (sightings : List Sighting) :
    (sightings.map fun s => s.toTransfer.effectIn (lower address) fromBlock toBlock).sum =
      net (fun s => s.toTransfer.effect (lower address))
        (sightings.filter fun s => fromBlock ≤ s.blockNumber ∧ s.blockNumber ≤ toBlock) := by
  induction sightings with
  | nil => rfl
  | cons s rest ih =>
      rw [List.map_cons, List.sum_cons, ih, List.filter_cons, Transfer.effectIn]
      by_cases inside : fromBlock ≤ s.blockNumber ∧ s.blockNumber ≤ toBlock
      · have notOutside : ¬ (s.blockNumber < fromBlock ∨ toBlock < s.blockNumber) := by omega
        simp [inside, notOutside, net]
      · have outside : s.blockNumber < fromBlock ∨ toBlock < s.blockNumber := by omega
        simp [inside, outside]

theorem flow_iff (address : String) (sightings : List Sighting) :
    (∀ block, received address (sightings.filter (·.blockNumber = block)) =
      sent address (sightings.filter (·.blockNumber = block))) ↔
    ∀ fromBlock toBlock,
      (sightings.map fun s => s.toTransfer.effectIn (lower address) fromBlock toBlock).sum = 0 := by
  constructor
  · intro noFlow fromBlock toBlock
    rw [sum_effectIn]
    apply net_eq_zero_of_each _ fun s => s.blockNumber
    intro block
    have whole : net (fun s => s.toTransfer.effect (lower address))
        (sightings.filter (·.blockNumber = block)) = 0 := by
      rw [net_effect, noFlow block, sub_self]
    rw [List.filter_comm]
    -- a block is in the range as a whole or not at all
    by_cases inside : fromBlock ≤ block ∧ block ≤ toBlock
    · rw [List.filter_eq_self.mpr, whole]
      intro s member
      have here : s.blockNumber = block := by simpa using (List.mem_filter.mp member).2
      simpa [here] using inside
    · rw [List.filter_eq_nil_iff.mpr]
      · rfl
      · intro s member
        have here : s.blockNumber = block := by simpa using (List.mem_filter.mp member).2
        simpa [here] using inside
  · intro balanced block
    have one := balanced block block
    have same : (sightings.filter fun s => block ≤ s.blockNumber ∧ s.blockNumber ≤ block) =
        sightings.filter (·.blockNumber = block) := by
      apply List.filter_congr
      intro s _
      apply decide_eq_decide.mpr
      omega
    rw [sum_effectIn, same, net_effect] at one
    exact Int.sub_eq_zero.mp one

theorem noNetFlow_iff (sightings : List Sighting) :
    NoNetFlow sightings ↔ ∀ address fromBlock toBlock,
      (sightings.map fun s => s.toTransfer.effectIn (lower address) fromBlock toBlock).sum = 0 :=
  forall_comm.trans (forall_congr' fun address => flow_iff address sightings)

theorem noNetFlow_of_addresses (sightings : List Sighting) (balanced : ∀ address, address ≠ "" →
    ∀ fromBlock toBlock,
      (sightings.map fun s => s.toTransfer.effectIn (lower address) fromBlock toBlock).sum = 0) :
    NoNetFlow sightings := by
  intro block address
  have others (address : String) (nonempty : address ≠ "") :=
    (flow_iff address sightings).mpr (balanced address nonempty) block
  by_cases blank : address = ""
  · apply flow_of_others
    intro other differ
    exact others other fun same => differ (by rw [same, blank])
  · exact others address blank

theorem sum_amounts_nonzero (p : Sighting → Bool) (sightings : List Sighting) :
    (((sightings.filter (·.amount ≠ 0)).filter p).map (·.amount)).sum =
      ((sightings.filter p).map (·.amount)).sum := by
  induction sightings with
  | nil => rfl
  | cons s rest ih =>
      by_cases zero : s.amount = 0
      · cases kept : p s <;> simp_all
      · cases kept : p s <;> simp_all

theorem noNetFlow_nonzero (sightings : List Sighting) :
    NoNetFlow (sightings.filter (·.amount ≠ 0)) ↔ NoNetFlow sightings := by
  have same (block : Int) (q : Sighting → Bool) :
      ((((sightings.filter (·.amount ≠ 0)).filter (·.blockNumber = block)).filter q).map (·.amount)).sum =
        (((sightings.filter (·.blockNumber = block)).filter q).map (·.amount)).sum := by
    rw [List.filter_filter, sum_amounts_nonzero, ← List.filter_filter]
  unfold NoNetFlow received sent
  simp only [same]

/-! ## Flows of recounted calls -/

variable {logs calls : List Sighting}

theorem mem_recountedSightings (s : Sighting) : s ∈ recountedSightings logs calls ↔
    (s ∈ calls ∧ s ∉ logs) ∧ (repeated calls s || !settledSightings logs calls s.bucket) = true := by
  rw [recountedSightings, List.mem_filter, freshSightings, mem_firstByKey_id, List.mem_filter,
    decide_eq_true_eq]

theorem exists_recounted (s : Sighting) (member : s ∈ calls) (noLog : inBucket logs s.bucket = []) :
    ∃ s' ∈ recountedSightings logs calls, s'.bucket = s.bucket := by
  have fresh (s' : Sighting) (same : s'.bucket = s.bucket) : s' ∉ logs := fun inside => by
    have here : s' ∈ inBucket logs s.bucket := List.mem_filter.mpr ⟨inside, by simpa using same⟩
    rw [noLog] at here
    cases here
  by_cases again : (repeated calls s || !settledSightings logs calls s.bucket) = true
  · exact ⟨s, (mem_recountedSightings s).mpr ⟨⟨member, fresh s rfl⟩, again⟩, rfl⟩
  · -- the bucket is settled by repeated calls alone, and these stay
    simp only [Bool.or_eq_true, Bool.not_eq_true', not_or, Bool.not_eq_true, Bool.not_eq_false] at again
    obtain ⟨single, isSettled⟩ := again
    have inFresh : s ∈ (inBucket (freshSightings logs calls) s.bucket).filter (!repeated calls ·) := by
      rw [List.mem_filter, inBucket_fresh, mem_firstByKey_id, List.mem_filter]
      exact ⟨⟨List.mem_filter.mpr ⟨member, by simp⟩, by simpa using fresh s rfl⟩, by simp [single]⟩
    have some := List.length_pos_of_mem inFresh
    simp only [settledSightings, decide_eq_true_eq, noLog, List.length_nil, Nat.zero_add] at isSettled
    rw [← isSettled] at some
    obtain ⟨s', inside⟩ := List.exists_mem_of_length_pos some
    rw [List.mem_filter, inBucket_fresh, mem_firstByKey_id, List.mem_filter] at inside
    obtain ⟨⟨inBucket, absent⟩, twice⟩ := inside
    obtain ⟨member', same⟩ := List.mem_filter.mp inBucket
    refine ⟨s', (mem_recountedSightings s').mpr ⟨⟨member', by simpa using absent⟩, ?_⟩, by simpa using same⟩
    rw [twice, Bool.true_or]

theorem senderless_void (noFlow : NoNetFlow (recountedSightings logs calls))
    (nonneg : ∀ s ∈ calls, 0 ≤ s.amount) (recipients : ∀ s ∈ calls, s.toAddr = "" → s.amount = 0)
    (senders : ∀ s ∈ logs, s.fromAddr ≠ "") (s : Sighting) (member : s ∈ calls)
    (senderless : s.fromAddr = "") : s.amount = 0 := by
  have noLog : inBucket logs s.bucket = [] := by
    rw [inBucket, List.filter_eq_nil_iff]
    intro l inside same
    have sender := congrArg (fun bucket : BucketKey => bucket.2.1) (of_decide_eq_true same)
    exact senders l inside (sender.trans senderless)
  obtain ⟨s', inside, same⟩ := exists_recounted s member noLog
  have sender : s'.fromAddr = "" := (congrArg (fun bucket : BucketKey => bucket.2.1) same).trans senderless
  have amount : s'.amount = s.amount := congrArg (fun bucket : BucketKey => bucket.2.2.2) same
  let here := (recountedSightings logs calls).filter (·.blockNumber = s'.blockNumber)
  have isCall : ∀ r ∈ here, r ∈ calls := fun r member =>
    ((mem_recountedSightings r).mp (List.mem_filter.mp member).1).1.1
  -- what moves without a sender leaves no one, and nothing comes back
  have nothing : received "" here = 0 := by
    apply List.sum_eq_zero
    intro amount member
    obtain ⟨r, inside, rfl⟩ := List.mem_map.mp member
    obtain ⟨inHere, toNoOne⟩ := List.mem_filter.mp inside
    exact recipients r (isCall r inHere) (by simpa using toNoOne)
  have total : sent "" here = 0 := (noFlow s'.blockNumber "").symm.trans nothing
  have isSent : s'.amount ∈ (here.filter fun r => lower r.fromAddr = lower "").map (·.amount) := by
    refine List.mem_map.mpr ⟨s', List.mem_filter.mpr ⟨List.mem_filter.mpr ⟨inside, by simp⟩, ?_⟩, rfl⟩
    simp [sender]
  rw [← amount]
  refine List.all_zero_of_le_zero_le_of_sum_eq_zero (fun amount member => ?_) total isSent
  obtain ⟨r, inside, rfl⟩ := List.mem_map.mp member
  exact nonneg r (isCall r (List.mem_filter.mp inside).1)

theorem collides_eq (bucket : BucketKey) : collides logs calls bucket =
    (inBucket calls bucket).any fun s => s ∈ logs || 2 ≤ (inBucket calls bucket).count s := by
  rw [collides, Bool.eq_iff_iff, List.any_eq_true, List.any_eq_true]
  refine exists_congr fun s => and_congr_right fun member => ?_
  have here : decide (s.bucket = bucket) = true := (List.mem_filter.mp member).2
  have count : (inBucket calls bucket).count s = calls.count s := List.count_filter here
  rw [repeated, count]

theorem freshSightings_filter (p : Sighting → Bool) :
    (freshSightings logs calls).filter p = freshSightings logs (calls.filter p) := by
  rw [freshSightings, freshSightings, List.filter_comm]
  exact (firstByKey_filter id p _).symm

theorem countedAgain_eq : countedAgain logs calls =
    (freshSightings logs calls).filter fun s => collides logs calls s.bucket := by
  have fresh := firstByKey_filter (id : Sighting → Sighting) (fun s => decide (s ∉ logs)) calls
  simp only [id] at fresh
  rw [countedAgain, freshSightings, fresh, List.filter_filter]
  exact List.filter_congr fun s _ => Bool.and_comm _ _

theorem noNetFlow_recounted_iff (senders : List Sighting)
    (same : calls.filter (·.amount ≠ 0) = senders.filter (·.amount ≠ 0))
    (even : ∀ bucket : BucketKey, bucket.2.2.2 ≠ 0 →
      (inBucket logs bucket).length = (inBucket calls bucket).length) :
    NoNetFlow (recountedSightings logs calls) ↔ NoNetFlow (countedAgain logs senders) := by
  -- a bucket of a positive amount looks alike in both lists
  have bucket (l : List Sighting) (s : Sighting) (nonzero : s.amount ≠ 0) :
      inBucket (l.filter (·.amount ≠ 0)) s.bucket = inBucket l s.bucket := by
    rw [inBucket, List.filter_filter]
    apply List.filter_congr
    intro r _
    by_cases here : r.bucket = s.bucket
    · have amount : r.amount = s.amount := congrArg (fun bucket : BucketKey => bucket.2.2.2) here
      simp [here, amount, nonzero]
    · simp [here]
  have collision (s : Sighting) (nonzero : s.amount ≠ 0) :
      collides logs calls s.bucket = collides logs senders s.bucket := by
    rw [collides_eq, collides_eq, ← bucket calls s nonzero, ← bucket senders s nonzero, same]
  have records : (recountedSightings logs calls).filter (·.amount ≠ 0) =
      (countedAgain logs senders).filter (·.amount ≠ 0) := by
    have fresh : (freshSightings logs calls).filter (·.amount ≠ 0) =
        (freshSightings logs senders).filter (·.amount ≠ 0) := by
      rw [freshSightings_filter, freshSightings_filter, same]
    calc (recountedSightings logs calls).filter (·.amount ≠ 0)
        = ((freshSightings logs calls).filter (·.amount ≠ 0)).filter fun s =>
            repeated calls s || !settledSightings logs calls s.bucket := List.filter_comm _ _ _
      _ = ((freshSightings logs calls).filter (·.amount ≠ 0)).filter fun s =>
            collides logs senders s.bucket := by
          apply List.filter_congr
          intro s member
          obtain ⟨isFresh, nonzero⟩ := List.mem_filter.mp member
          have nonzero : s.amount ≠ 0 := by simpa using nonzero
          rw [freshSightings, mem_firstByKey_id] at isFresh
          rw [again_iff s (List.mem_filter.mp isFresh).1 (even s.bucket nonzero), collision s nonzero]
      _ = ((freshSightings logs senders).filter (·.amount ≠ 0)).filter fun s =>
            collides logs senders s.bucket := by rw [fresh]
      _ = (countedAgain logs senders).filter (·.amount ≠ 0) := by
          rw [countedAgain_eq]
          exact List.filter_comm _ _ _
  rw [← noNetFlow_nonzero, records, noNetFlow_nonzero]

end EconomicLedger.Movements
