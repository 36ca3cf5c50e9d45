import EconomicLedger.Movements.Built

/-!
# Movements seen in traces only

Without log movements the unification keeps one record for each identifier, so no call is lost
exactly when no two calls of equal effect have trace addresses that are packed alike.
-/

namespace EconomicLedger.Movements
open Model Text Keyed

/-! ## Distinct trace identifiers -/

section
variable {logs traces : List TokenMovement} (distinct : (ids traces).Nodup)
include distinct

theorem tracesWith_of_nodup (t : TokenMovement) (member : t ∈ traces) :
    tracesWith traces t.movementId = [t] := filter_key TokenMovement.movementId distinct member

theorem freshTraces_of_nodup :
    freshTraces logs traces = traces.filter fun t => t.movementId ∉ ids logs :=
  firstByKey_of_nodup _ _ (distinct.sublist (List.filter_sublist.map _))

theorem traceRecord_of_nodup (t : TokenMovement) (member : t ∈ traces) : traceRecord traces t = t := by
  rw [traceRecord, tracesWith_of_nodup distinct t member]
  rfl

theorem not_shared_of_nodup (t : TokenMovement) (member : t ∈ traces) : shared traces t = false := by
  simp [shared, tracesWith_of_nodup distinct t member]

theorem values_indexById_of_nodup (distinctLogs : (ids logs).Nodup) :
    (indexById logs traces).values =
      logs.map (logRecord traces) ++ traces.filter fun t => t.movementId ∉ ids logs := by
  rw [values_indexById _ _ distinctLogs, freshTraces_of_nodup distinct]
  congr 1
  rw [List.map_congr_left fun t member =>
    traceRecord_of_nodup distinct t (List.mem_filter.mp member).1, List.map_id']

end

/-! ## One record for each call -/

theorem pairBucket_of_no_log (entries : List TokenMovement)
    (none : ∀ m ∈ entries, m.sourcePriority ≠ .log) : pairBucket entries = entries := by
  have noLogs : entries.filter (·.sourcePriority = .log) = [] :=
    List.filter_eq_nil_iff.mpr fun m member => by simpa using none m member
  unfold pairBucket
  rw [if_neg fun paired => paired.1 noLogs]

theorem unifyMovements_nil_perm (traces : List TokenMovement) (distinct : (ids traces).Nodup)
    (fromTraces : ∀ m ∈ traces, m.sourcePriority = .trace) :
    (unifyMovements [] traces).Perm traces := by
  have noLogs : (ids []).Nodup := List.nodup_nil
  have records : (indexById [] traces).values = traces := by
    rw [values_indexById_of_nodup distinct noLogs]
    simp [ids]
  refine (unifyMovements_perm [] traces).trans ?_
  rw [records]
  have each (bucket : BucketKey) : pairBucket (bucketOf traces bucket) = bucketOf traces bucket :=
    pairBucket_of_no_log _ fun m member => by
      rw [fromTraces m (List.mem_filter.mp member).1]
      exact SourcePriority.noConfusion
  simp only [each]
  exact perm_flatMap_filter TokenMovement.bucketKey _ (Dict.keys_nodup _) traces fun m member =>
    (Dict.mem_keys_groupBy _ _ _).mpr (List.mem_map_of_mem member)

theorem nodup_of_length_unifyMovements_nil (traces : List TokenMovement)
    (fromTraces : ∀ m ∈ traces, m.sourcePriority = .trace)
    (whole : (unifyMovements [] traces).length = traces.length) : (ids traces).Nodup := by
  have sources : Sources [] traces := ⟨List.nodup_nil, by simp, fromTraces⟩
  have counted := length_unifyMovements sources
  have kept : (recounted [] traces).length ≤ (freshTraces [] traces).length := List.length_filter_le _ _
  have fresh : freshTraces [] traces = firstByKey TokenMovement.movementId traces := by
    simp [freshTraces, ids]
  have few := (firstByKey_sublist TokenMovement.movementId traces).length_le
  apply (firstByKey_length_eq_iff TokenMovement.movementId traces).mp
  rw [fresh] at kept
  rw [List.length_nil] at counted
  omega

/-! ## Lost calls -/

variable (sha256 : Digest)

def callStem (call : TraceTokenCall) : List String :=
  movementStem call.chainId call.txHash (lower call.fromAddr) (lower call.toAddr) call.amount

/-- One record for each call, with its raw identifier among the evidence and its amount. -/
def OneRecordEach (calls : List TraceTokenCall) (out : List TokenMovement) : Prop :=
  ∃ records, records.Perm out ∧ List.Forall₂ (fun call (record : TokenMovement) =>
    call.rawTraceCallId ∈ record.evidenceIds ∧ record.amount = call.amount) calls records

def DistinctOccurrences (calls : List TraceTokenCall) : Prop :=
  ∀ call ∈ calls, ∀ call' ∈ calls, call.chainId = call'.chainId →
    lower call.txHash = lower call'.txHash → lower call.fromAddr = lower call'.fromAddr →
    lower call.toAddr = lower call'.toAddr → call.amount = call'.amount →
    call.traceAddress ≠ call'.traceAddress →
    traceAddressToIndex call.traceAddress ≠ traceAddressToIndex call'.traceAddress

/-- Two calls that move the same, at addresses whose components agree in their low sixteen bits after
the leading zeros. -/
def Confused (call call' : TraceTokenCall) : Prop :=
  joinBar (callStem call) = joinBar (callStem call') ∧
    Radix.significant (addressDigits call.traceAddress) = Radix.significant (addressDigits call'.traceAddress)

theorem builtTrace_movementId_inj (injective : Function.Injective sha256) (call call' : TraceTokenCall) :
    (builtTrace sha256 call).movementId = (builtTrace sha256 call').movementId ↔ Confused call call' := by
  unfold builtTrace traceMovement
  rw [computeMovementId_inj injective, Confused, ← packed_eq_iff, Int.natCast_inj]
  rfl

theorem ids_builtTrace_nodup_iff (injective : Function.Injective sha256) (calls : List TraceTokenCall) :
    (ids (calls.map (builtTrace sha256))).Nodup ↔ calls.Pairwise fun call call' => ¬ Confused call call' := by
  rw [ids, List.map_map, List.Nodup, List.pairwise_map]
  simp only [Function.comp_apply, ne_eq, builtTrace_movementId_inj sha256 injective]

theorem distinctOccurrences_of_nodup (injective : Function.Injective sha256) (calls : List TraceTokenCall)
    (nonneg : ∀ call ∈ calls, ∀ component ∈ call.traceAddress, 0 ≤ component)
    (distinct : (ids (calls.map (builtTrace sha256))).Nodup) : DistinctOccurrences calls := by
  intro call member call' member' chain tx sender recipient amount differ same
  have index (call : TraceTokenCall) (member : call ∈ calls) :
      traceAddressToIndex call.traceAddress = .ok (packed call.traceAddress) :=
    (traceAddressToIndex_eq_ok_iff _ _).mpr ⟨nonneg call member, rfl⟩
  rw [index call member, index call' member', Except.ok.injEq, packed_eq_iff] at same
  have confused : Confused call call' :=
    ⟨by simp only [callStem, movementStem, chain, tx, sender, recipient, amount], same⟩
  rw [ids, List.map_map] at distinct
  have equal := List.inj_on_of_nodup_map distinct member member'
    ((builtTrace_movementId_inj sha256 injective call call').mpr confused)
  exact differ (congrArg TraceTokenCall.traceAddress equal)

/-- The records of a list of calls, one for each of them when no two are confused. -/
theorem trace_only_iff (injective : Function.Injective sha256) (calls : List TraceTokenCall)
    (nonneg : ∀ call ∈ calls, ∀ component ∈ call.traceAddress, 0 ≤ component) :
    ∃ traces, buildMovementsFromTraceCalls sha256 calls = .ok traces ∧
      ((OneRecordEach calls (unifyMovements [] traces) ∧ DistinctOccurrences calls) ↔
        calls.Pairwise fun call call' => ¬ Confused call call') := by
  refine ⟨calls.map (builtTrace sha256),
    (buildMovementsFromTraceCalls_eq_ok_iff sha256 calls _).mpr ⟨nonneg, rfl⟩, ?_⟩
  have fromTraces := (built_sources sha256 [] calls List.nodup_nil).fromTraces
  rw [← ids_builtTrace_nodup_iff sha256 injective]
  constructor
  · rintro ⟨⟨records, same, each⟩, -⟩
    apply nodup_of_length_unifyMovements_nil _ fromTraces
    rw [← same.length_eq, ← each.length_eq, List.length_map]
  · intro distinct
    refine ⟨⟨calls.map (builtTrace sha256), (unifyMovements_nil_perm _ distinct fromTraces).symm, ?_⟩,
      distinctOccurrences_of_nodup sha256 injective calls nonneg distinct⟩
    rw [List.forall₂_map_right_iff, List.forall₂_same]
    exact fun call _ => ⟨List.mem_singleton.mpr rfl, rfl⟩

/-! ### Siblings, and a leading zero -/

def callAt (traceAddress : List Int) : TraceTokenCall :=
  { rawTraceCallId := computeRawTraceCallId id "0xab" traceAddress
    chainId := 1
    blockNumber := 100
    txHash := "0xab"
    traceAddress := traceAddress
    tokenAddress := "0x51"
    methodName := .transferFrom
    fromAddr := "0xaa"
    toAddr := "0xbb"
    amount := 5 }

theorem trace_only_siblings :
    ∃ traces, buildMovementsFromTraceCalls id [callAt [1], callAt [2]] = .ok traces ∧
      OneRecordEach [callAt [1], callAt [2]] (unifyMovements [] traces) ∧
      DistinctOccurrences [callAt [1], callAt [2]] := by
  obtain ⟨traces, built, each⟩ :=
    trace_only_iff id Function.injective_id [callAt [1], callAt [2]] (by decide)
  refine ⟨traces, built, each.mpr (List.pairwise_pair.mpr fun confused => ?_)⟩
  exact absurd confused.2 (by decide +kernel)

def equalTransfers : List TraceTokenCall := [callAt [1], callAt [0, 1]]

/-- The two transfers have one occurrence index, and one of them is lost. -/
theorem equalTransfers_lost :
    (∀ call ∈ equalTransfers, ∀ component ∈ call.traceAddress, 0 ≤ component) ∧
      (equalTransfers.map fun call => (call.txHash, call.traceAddress)).Nodup ∧
      traceAddressToIndex [1] = traceAddressToIndex [0, 1] ∧
      ∃ traces, buildMovementsFromTraceCalls id equalTransfers = .ok traces ∧
        ¬ OneRecordEach equalTransfers (unifyMovements [] traces) := by
  refine ⟨by decide, by decide, by decide, equalTransfers.map (builtTrace id), by rfl, ?_⟩
  rintro ⟨records, same, each⟩
  have one : (unifyMovements [] (equalTransfers.map (builtTrace id))).length = 1 := by decide +kernel
  rw [← same.length_eq, ← each.length_eq] at one
  exact absurd one (by decide)

end EconomicLedger.Movements
