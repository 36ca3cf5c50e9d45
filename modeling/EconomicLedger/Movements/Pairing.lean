import EconomicLedger.Movements.TraceOnly

/-!
# Buckets with as many logs as traces

Every log movement takes the evidence of one trace movement exactly when phase one meets each bucket
whole or not at all. If it merges a part of a bucket, the log records outnumber the traces that are
left, and these stay.
-/

namespace EconomicLedger.Movements
open Model Keyed Fallible

structure EvenSources (logs traces : List TokenMovement) : Prop extends Sources logs traces where
  distinctTraces : (ids traces).Nodup
  even : ∀ bucket, (bucketOf logs bucket).length = (bucketOf traces bucket).length
  logEvidence : ∀ l ∈ logs, ∃ rawLogId, l.evidenceIds = [rawLogId]
  traceEvidence : ∀ t ∈ traces, ∃ rawTraceCallId, t.evidenceIds = [rawTraceCallId] ∧
    rawTraceCallId ≠ "" ∧ ∀ l ∈ logs, rawTraceCallId ∉ l.evidenceIds

/-- The record of a log movement and the trace movement whose evidence it takes. -/
structure MergedFrom (pair : TokenMovement × TokenMovement) (record : TokenMovement) : Prop where
  sourcePriority : record.sourcePriority = .log
  movementId : record.movementId = pair.1.movementId
  evidence : ∃ rawLogId rawTraceCallId, pair.1.evidenceIds = [rawLogId] ∧
    pair.2.evidenceIds = [rawTraceCallId] ∧ record.evidenceIds = [rawLogId, rawTraceCallId]

/-- Log and trace movements are paired off, and there is one record for each pair. -/
def OneToOne (logs traces out : List TokenMovement) : Prop :=
  ∃ pairs : List (TokenMovement × TokenMovement), (pairs.map Prod.fst).Perm logs ∧
    (pairs.map Prod.snd).Perm traces ∧ ∃ records, records.Perm out ∧ List.Forall₂ MergedFrom pairs records

/-- In every bucket, all movements have the identifier of one from the other source, or none has. -/
def AllOrNone (logs traces : List TokenMovement) : Prop :=
  ∀ bucket,
    ((∀ l ∈ bucketOf logs bucket, l.movementId ∈ ids traces) ∧
      ∀ t ∈ bucketOf traces bucket, t.movementId ∈ ids logs) ∨
    ((∀ l ∈ bucketOf logs bucket, l.movementId ∉ ids traces) ∧
      ∀ t ∈ bucketOf traces bucket, t.movementId ∉ ids logs)

variable {logs traces : List TokenMovement}

theorem mem_bucketOf (movements : List TokenMovement) (bucket : BucketKey) (m : TokenMovement) :
    m ∈ bucketOf movements bucket ↔ m ∈ movements ∧ m.bucketKey = bucket := by
  simp [bucketOf]

theorem mem_ids (movements : List TokenMovement) (m : TokenMovement) (member : m ∈ movements) :
    m.movementId ∈ ids movements := List.mem_map_of_mem member

theorem bucketKeys_perm (sources : EvenSources logs traces) :
    (logs.map TokenMovement.bucketKey).Perm (traces.map TokenMovement.bucketKey) := by
  rw [List.perm_iff_count]
  intro bucket
  have even := sources.even bucket
  rw [bucketOf, bucketOf, ← List.countP_eq_length_filter, ← List.countP_eq_length_filter] at even
  rw [List.count, List.countP_map, List.countP_map]
  simpa [Function.comp_def, beq_eq_decide] using even

theorem even_of_bucketKeys (same : logs.map TokenMovement.bucketKey = traces.map TokenMovement.bucketKey)
    (bucket : BucketKey) : (bucketOf logs bucket).length = (bucketOf traces bucket).length := by
  have count (movements : List TokenMovement) : (bucketOf movements bucket).length =
      ((movements.map TokenMovement.bucketKey).filter (· = bucket)).length := by
    rw [List.filter_map, List.length_map]
    rfl
  rw [count, count, same]

/-! ## Logs and traces with one identifier -/

def partner (traces : List TokenMovement) (l : TokenMovement) : TokenMovement :=
  (tracesWith traces l.movementId).headD l

theorem partner_eq (sources : EvenSources logs traces) (l t : TokenMovement) (member : t ∈ traces)
    (same : t.movementId = l.movementId) : partner traces l = t := by
  rw [partner, ← same, tracesWith_of_nodup sources.distinctTraces t member]
  rfl

theorem logRecord_matched (sources : EvenSources logs traces) (l : TokenMovement)
    (isMatched : l.movementId ∈ ids traces) :
    partner traces l ∈ traces ∧ logRecord traces l = absorb l (partner traces l) := by
  obtain ⟨t, member, same⟩ := List.mem_map.mp isMatched
  rw [partner_eq sources l t member same, logRecord, ← same,
    tracesWith_of_nodup sources.distinctTraces t member]
  exact ⟨member, rfl⟩

theorem logRecord_unmatched (l : TokenMovement) (unmatched : l.movementId ∉ ids traces) :
    logRecord traces l = l := by
  have none : tracesWith traces l.movementId = [] := by
    refine List.filter_eq_nil_iff.mpr fun t member same => unmatched ?_
    exact List.mem_map.mpr ⟨t, member, by simpa using same⟩
  rw [logRecord, none]
  rfl

theorem absorb_mergedFrom (sources : EvenSources logs traces) (l t : TokenMovement) (inLogs : l ∈ logs)
    (inTraces : t ∈ traces) : MergedFrom (l, t) (absorb l t) where
  sourcePriority := rfl
  movementId := rfl
  evidence := by
    obtain ⟨rawLogId, logEvidence⟩ := sources.logEvidence l inLogs
    obtain ⟨rawTraceCallId, traceEvidence, nonempty, foreign⟩ := sources.traceEvidence t inTraces
    refine ⟨rawLogId, rawTraceCallId, logEvidence, traceEvidence, ?_⟩
    have fresh := foreign l inLogs
    rw [logEvidence] at fresh
    simp only [absorb, mergeEvidence, logEvidence, traceEvidence, List.foldl_cons, List.foldl_nil]
    rw [if_pos ⟨nonempty, fresh⟩]
    rfl

/-! ## The records of a bucket -/

theorem bucketOf_values_of_nodup (sources : EvenSources logs traces) (bucket : BucketKey) :
    bucketOf (indexById logs traces).values bucket =
      (bucketOf logs bucket).map (logRecord traces) ++
        (bucketOf traces bucket).filter fun t => t.movementId ∉ ids logs := by
  rw [values_indexById_of_nodup sources.distinctTraces sources.distinct, bucketOf_append,
    bucketOf_map (logRecord traces) fun m => absorbAll_bucketKey m _]
  congr 1
  exact List.filter_comm _ _ traces

theorem pairBucket_matched (sources : EvenSources logs traces) (bucket : BucketKey)
    (allMatched : ∀ t ∈ bucketOf traces bucket, t.movementId ∈ ids logs) :
    pairBucket (bucketOf (indexById logs traces).values bucket) =
      (bucketOf logs bucket).map (logRecord traces) := by
  have noFresh : ((bucketOf traces bucket).filter fun t => t.movementId ∉ ids logs) = [] :=
    List.filter_eq_nil_iff.mpr fun t member => by simpa using allMatched t member
  rw [bucketOf_values_of_nodup sources, noFresh, List.append_nil]
  have noTraces : ((bucketOf logs bucket).map (logRecord traces)).filter (·.sourcePriority = .trace) = [] := by
    rw [List.filter_eq_nil_iff]
    intro m member
    obtain ⟨l, inside, rfl⟩ := List.mem_map.mp member
    simp [logRecord_sourcePriority sources.toSources l (List.mem_filter.mp inside).1]
  unfold pairBucket
  rw [if_neg fun paired => paired.2.1 noTraces]

theorem pairBucket_unmatched (sources : EvenSources logs traces) (bucket : BucketKey)
    (logsUnmatched : ∀ l ∈ bucketOf logs bucket, l.movementId ∉ ids traces)
    (tracesUnmatched : ∀ t ∈ bucketOf traces bucket, t.movementId ∉ ids logs) :
    pairBucket (bucketOf (indexById logs traces).values bucket) =
      List.zipWith absorb (bucketOf logs bucket) (bucketOf traces bucket) := by
  have records : bucketOf (indexById logs traces).values bucket =
      bucketOf logs bucket ++ bucketOf traces bucket := by
    rw [bucketOf_values_of_nodup sources, List.filter_eq_self.mpr fun t member => by
      simpa using tracesUnmatched t member, List.map_congr_left fun l member =>
      logRecord_unmatched l (logsUnmatched l member), List.map_id']
  have isLog : ∀ l ∈ bucketOf logs bucket, l.sourcePriority = .log := fun l member =>
    sources.fromLogs l (List.mem_filter.mp member).1
  have isTrace : ∀ t ∈ bucketOf traces bucket, t.sourcePriority = .trace := fun t member =>
    sources.fromTraces t (List.mem_filter.mp member).1
  rw [records, pairBucket_append _ _ isLog isTrace, if_pos (sources.even bucket)]

/-! ## Pairing off whole buckets -/

def pairsOf (logs traces : List TokenMovement) (bucket : BucketKey) : List (TokenMovement × TokenMovement) :=
  if ∀ t ∈ bucketOf traces bucket, t.movementId ∈ ids logs then
    (bucketOf logs bucket).map fun l => (l, partner traces l)
  else List.zip (bucketOf logs bucket) (bucketOf traces bucket)

theorem pairsOf_fst (sources : EvenSources logs traces) (bucket : BucketKey) :
    (pairsOf logs traces bucket).map Prod.fst = bucketOf logs bucket := by
  unfold pairsOf
  split_ifs
  · rw [List.map_map]
    exact List.map_id' _
  · exact List.map_fst_zip (sources.even bucket).le

theorem unmatched_of_not_allMatched (whole : AllOrNone logs traces) (bucket : BucketKey)
    (some : ¬ ∀ t ∈ bucketOf traces bucket, t.movementId ∈ ids logs) :
    (∀ l ∈ bucketOf logs bucket, l.movementId ∉ ids traces) ∧
      ∀ t ∈ bucketOf traces bucket, t.movementId ∉ ids logs := by
  rcases whole bucket with ⟨-, tracesMatched⟩ | unmatched
  · exact absurd tracesMatched some
  · exact unmatched

section
variable (sources : EvenSources logs traces) (whole : AllOrNone logs traces)
include sources whole

theorem matched_of_allMatched (bucket : BucketKey)
    (allMatched : ∀ t ∈ bucketOf traces bucket, t.movementId ∈ ids logs) :
    ∀ l ∈ bucketOf logs bucket, l.movementId ∈ ids traces := by
  intro l member
  rcases whole bucket with ⟨logsMatched, -⟩ | ⟨-, tracesUnmatched⟩
  · exact logsMatched l member
  · -- then the bucket has no traces, hence no logs
    have empty : bucketOf traces bucket = [] :=
      List.eq_nil_iff_forall_not_mem.mpr fun t inside => tracesUnmatched t inside (allMatched t inside)
    have even := sources.even bucket
    rw [empty, List.length_nil] at even
    rw [List.length_eq_zero_iff.mp even] at member
    cases member

theorem pairBucket_eq (bucket : BucketKey) :
    pairBucket (bucketOf (indexById logs traces).values bucket) =
      (pairsOf logs traces bucket).map fun pair => absorb pair.1 pair.2 := by
  unfold pairsOf
  split_ifs with allMatched
  · rw [pairBucket_matched sources bucket allMatched, List.map_map]
    apply List.map_congr_left
    intro l member
    exact (logRecord_matched sources l
      (matched_of_allMatched sources whole bucket allMatched l member)).2
  · obtain ⟨logsUnmatched, tracesUnmatched⟩ := unmatched_of_not_allMatched whole bucket allMatched
    rw [pairBucket_unmatched sources bucket logsUnmatched tracesUnmatched, List.map_zip_eq_zipWith]
    rfl

theorem mem_pairsOf (bucket : BucketKey) (pair : TokenMovement × TokenMovement)
    (member : pair ∈ pairsOf logs traces bucket) : pair.1 ∈ logs ∧ pair.2 ∈ traces := by
  unfold pairsOf at member
  split_ifs at member with allMatched
  · obtain ⟨l, inside, rfl⟩ := List.mem_map.mp member
    have isMatched := matched_of_allMatched sources whole bucket allMatched l inside
    exact ⟨(List.mem_filter.mp inside).1, (logRecord_matched sources l isMatched).1⟩
  · obtain ⟨left, right⟩ := List.of_mem_zip member
    exact ⟨(List.mem_filter.mp left).1, (List.mem_filter.mp right).1⟩

theorem exists_pair (t : TokenMovement) (member : t ∈ traces) :
    ∃ l ∈ logs, (l, t) ∈ pairsOf logs traces l.bucketKey := by
  by_cases allMatched : ∀ t' ∈ bucketOf traces t.bucketKey, t'.movementId ∈ ids logs
  · obtain ⟨l, inLogs, same⟩ := List.mem_map.mp
      (allMatched t ((mem_bucketOf _ _ _).mpr ⟨member, rfl⟩))
    refine ⟨l, inLogs, ?_⟩
    have isMatched : l.movementId ∈ ids traces := same ▸ mem_ids traces t member
    have here : l ∈ bucketOf logs l.bucketKey := (mem_bucketOf _ _ _).mpr ⟨inLogs, rfl⟩
    have wholeBucket : ∀ t' ∈ bucketOf traces l.bucketKey, t'.movementId ∈ ids logs := by
      by_contra some
      exact (unmatched_of_not_allMatched whole _ some).1 l here isMatched
    rw [pairsOf, if_pos wholeBucket]
    exact List.mem_map.mpr ⟨l, here, by rw [partner_eq sources l t member same.symm]⟩
  · have paired : t ∈ (List.zip (bucketOf logs t.bucketKey) (bucketOf traces t.bucketKey)).map Prod.snd := by
      rw [List.map_snd_zip (sources.even t.bucketKey).ge]
      exact (mem_bucketOf _ _ _).mpr ⟨member, rfl⟩
    obtain ⟨⟨l, t⟩, inside, rfl⟩ := List.mem_map.mp paired
    obtain ⟨inLogs, bucket⟩ := (mem_bucketOf _ _ _).mp (List.of_mem_zip inside).1
    refine ⟨l, inLogs, ?_⟩
    rw [bucket, pairsOf, if_neg allMatched]
    exact inside

theorem oneToOne_of_allOrNone : OneToOne logs traces (unifyMovements logs traces) := by
  let keys := (Dict.groupBy TokenMovement.bucketKey (indexById logs traces).values).keys
  let pairs := keys.flatMap (pairsOf logs traces)
  have logKeys : ∀ l ∈ logs, l.bucketKey ∈ keys := by
    intro l member
    rw [Dict.mem_keys_groupBy, values_indexById_of_nodup sources.distinctTraces sources.distinct,
      List.map_append, List.mem_append, List.map_map]
    exact Or.inl (List.mem_map.mpr ⟨l, member, absorbAll_bucketKey l _⟩)
  have firsts : (pairs.map Prod.fst).Perm logs := by
    simp only [pairs, List.map_flatMap, pairsOf_fst sources]
    exact perm_flatMap_filter TokenMovement.bucketKey keys (Dict.keys_nodup _) logs logKeys
  have seconds : (pairs.map Prod.snd).Perm traces := by
    have covered : traces ⊆ pairs.map Prod.snd := by
      intro t member
      obtain ⟨l, inLogs, paired⟩ := exists_pair sources whole t member
      exact List.mem_map.mpr ⟨(l, t), List.mem_flatMap.mpr ⟨_, logKeys l inLogs, paired⟩, rfl⟩
    have nodup : traces.Nodup := List.Nodup.of_map _ sources.distinctTraces
    have equal : (pairs.map Prod.snd).length = traces.length := by
      rw [List.length_map, ← List.length_map (f := Prod.fst), firsts.length_eq]
      simpa using (bucketKeys_perm sources).length_eq
    exact ((List.subperm_of_subset nodup covered).perm_of_length_le equal.le).symm
  refine ⟨pairs, firsts, seconds, pairs.map fun pair => absorb pair.1 pair.2, ?_, ?_⟩
  · refine List.Perm.symm ((unifyMovements_perm logs traces).trans ?_)
    simp only [pairs, pairBucket_eq sources whole, List.map_flatMap]
    exact List.Perm.refl _
  · rw [List.forall₂_map_right_iff, List.forall₂_same]
    intro pair member
    obtain ⟨bucket, -, paired⟩ := List.mem_flatMap.mp member
    obtain ⟨inLogs, inTraces⟩ := mem_pairsOf sources whole bucket pair paired
    exact absorb_mergedFrom sources pair.1 pair.2 inLogs inTraces

end

/-! ## Whole buckets are necessary -/

def Merges (logs traces : List TokenMovement) (bucket : BucketKey) : Bool :=
  (bucketOf traces bucket).any fun t => t.movementId ∈ ids logs

theorem matched_length (sources : EvenSources logs traces) :
    (logs.filter fun l => l.movementId ∈ ids traces).length =
      (traces.filter fun t => t.movementId ∈ ids logs).length := by
  have same : (ids (logs.filter fun l => l.movementId ∈ ids traces)).Perm
      (ids (traces.filter fun t => t.movementId ∈ ids logs)) := by
    have shared (ms ms' : List TokenMovement) (movementId : String) :
        movementId ∈ ids (ms.filter fun m => m.movementId ∈ ids ms') ↔
          movementId ∈ ids ms ∧ movementId ∈ ids ms' := by
      simp only [ids, List.mem_map, List.mem_filter, decide_eq_true_eq]
      constructor
      · rintro ⟨m, ⟨member, isMatched⟩, rfl⟩
        exact ⟨⟨m, member, rfl⟩, isMatched⟩
      · rintro ⟨⟨m, member, rfl⟩, isMatched⟩
        exact ⟨m, ⟨member, isMatched⟩, rfl⟩
    have distinct : (ids (logs.filter fun l => l.movementId ∈ ids traces)).Nodup :=
      sources.distinct.sublist (List.filter_sublist.map _)
    have distinct' : (ids (traces.filter fun t => t.movementId ∈ ids logs)).Nodup :=
      sources.distinctTraces.sublist (List.filter_sublist.map _)
    rw [List.perm_ext_iff_of_nodup distinct distinct']
    intro movementId
    rw [shared, shared, and_comm]
  simpa [ids] using same.length_eq

section
variable (sources : EvenSources logs traces) (result : OneToOne logs traces (unifyMovements logs traces))
include sources result

theorem recounted_eq_nil : recounted logs traces = [] := by
  obtain ⟨pairs, firsts, -, records, same, each⟩ := result
  have counted := length_unifyMovements sources.toSources
  rw [← same.length_eq, ← each.length_eq, ← List.length_map (f := Prod.fst), firsts.length_eq] at counted
  exact List.length_eq_zero_iff.mp (by omega)

theorem unmatched_of_unmatched (t t' : TokenMovement) (member : t ∈ traces) (member' : t' ∈ traces)
    (same : t'.bucketKey = t.bucketKey) (unmatched : t.movementId ∉ ids logs) :
    t'.movementId ∉ ids logs := by
  have fresh : freshTraces logs traces = traces.filter fun t => t.movementId ∉ ids logs :=
    freshTraces_of_nodup sources.distinctTraces
  have unshared : ∀ u ∈ freshTraces logs traces, shared traces u = false := fun u inside =>
    not_shared_of_nodup sources.distinctTraces u (freshTraces_sublist.subset inside)
  have inFresh : t ∈ freshTraces logs traces := by
    rw [fresh, List.mem_filter]
    exact ⟨member, by simpa using unmatched⟩
  have isSettled : settled logs traces t.bucketKey = true := by
    have kept := List.filter_eq_nil_iff.mp (recounted_eq_nil sources result) t inFresh
    simpa [unshared t inFresh] using kept
  have noneShared : (bucketOf (freshTraces logs traces) t.bucketKey).filter (shared traces) = [] := by
    rw [List.filter_eq_nil_iff]
    intro u inside
    simp [unshared u (List.mem_filter.mp inside).1]
  have allUnshared : (bucketOf (freshTraces logs traces) t.bucketKey).filter (!shared traces ·) =
      bucketOf (freshTraces logs traces) t.bucketKey := by
    rw [List.filter_eq_self]
    intro u inside
    simp [unshared u (List.mem_filter.mp inside).1]
  -- the bucket has as many fresh traces as logs, hence as traces
  have count : (bucketOf traces t.bucketKey).length =
      ((bucketOf traces t.bucketKey).filter fun t => t.movementId ∉ ids logs).length := by
    rw [settled, noneShared, allUnshared, fresh, decide_eq_true_eq, List.length_nil, Nat.add_zero,
      sources.even] at isSettled
    rw [isSettled, bucketOf, List.filter_comm]
    rfl
  have all := List.filter_sublist.eq_of_length count.symm
  have inside : t' ∈ (bucketOf traces t.bucketKey).filter fun t => t.movementId ∉ ids logs := by
    rw [all]
    exact (mem_bucketOf _ _ _).mpr ⟨member', same⟩
  simpa using (List.mem_filter.mp inside).2

theorem merges_iff (t : TokenMovement) (member : t ∈ traces) :
    Merges logs traces t.bucketKey = true ↔ t.movementId ∈ ids logs := by
  rw [Merges, List.any_eq_true]
  constructor
  · rintro ⟨t', inside, isMatched⟩
    obtain ⟨member', same⟩ := (mem_bucketOf _ _ _).mp inside
    by_contra unmatched
    exact unmatched_of_unmatched sources result t t' member member' same unmatched (by simpa using isMatched)
  · intro isMatched
    exact ⟨t, (mem_bucketOf _ _ _).mpr ⟨member, rfl⟩, by simpa using isMatched⟩

theorem matched_of_merges (l : TokenMovement) (member : l ∈ logs)
    (merges : Merges logs traces l.bucketKey = true) : l.movementId ∈ ids traces := by
  -- else the record of the log would lack the evidence of a trace
  by_contra unmatched
  have allMatched : ∀ t ∈ bucketOf traces l.bucketKey, t.movementId ∈ ids logs := by
    intro t inside
    obtain ⟨inTraces, same⟩ := (mem_bucketOf _ _ _).mp inside
    exact (merges_iff sources result t inTraces).mp (same ▸ merges)
  have isRecord : l ∈ unifyMovements logs traces := by
    rw [(unifyMovements_perm logs traces).mem_iff, List.mem_flatMap]
    refine ⟨l.bucketKey, ?_, ?_⟩
    · rw [Dict.mem_keys_groupBy, values_indexById_of_nodup sources.distinctTraces sources.distinct,
        List.map_append, List.mem_append, List.map_map]
      exact Or.inl (List.mem_map.mpr ⟨l, member, absorbAll_bucketKey l _⟩)
    · rw [pairBucket_matched sources l.bucketKey allMatched]
      exact List.mem_map.mpr ⟨l, (mem_bucketOf _ _ _).mpr ⟨member, rfl⟩, logRecord_unmatched l unmatched⟩
  obtain ⟨pairs, -, -, records, same, each⟩ := result
  obtain ⟨pair, -, merged⟩ := exists_of_forall₂_right each l (same.mem_iff.mpr isRecord)
  obtain ⟨rawLogId, rawTraceCallId, -, -, two⟩ := merged.evidence
  obtain ⟨rawLogId', one⟩ := sources.logEvidence l member
  simp [one] at two

theorem merges_of_matched (l : TokenMovement) (member : l ∈ logs) (isMatched : l.movementId ∈ ids traces) :
    Merges logs traces l.bucketKey = true := by
  have tracesIn : (traces.filter fun t => Merges logs traces t.bucketKey) =
      traces.filter fun t => t.movementId ∈ ids logs := by
    apply List.filter_congr
    intro t inside
    rw [Bool.eq_iff_iff, merges_iff sources result t inside, decide_eq_true_eq]
  have logsIn : (logs.filter fun l => Merges logs traces l.bucketKey) =
      (logs.filter fun l => l.movementId ∈ ids traces).filter fun l => Merges logs traces l.bucketKey := by
    rw [List.filter_filter]
    apply List.filter_congr
    intro l inside
    cases merges : Merges logs traces l.bucketKey with
    | false => rfl
    | true => simp [matched_of_merges sources result l inside merges]
  -- merging buckets have no fewer logs than there are merged traces, so no merged log is elsewhere
  have even : (logs.filter fun l => Merges logs traces l.bucketKey).length =
      (traces.filter fun t => Merges logs traces t.bucketKey).length := by
    have same := ((bucketKeys_perm sources).filter (Merges logs traces)).length_eq
    rwa [List.filter_map, List.length_map, List.filter_map, List.length_map] at same
  rw [tracesIn, ← matched_length sources, logsIn] at even
  have all := List.filter_sublist.eq_of_length even
  have inside : l ∈ logs.filter fun l => l.movementId ∈ ids traces :=
    List.mem_filter.mpr ⟨member, by simpa using isMatched⟩
  rw [← all] at inside
  exact (List.mem_filter.mp inside).2

theorem allOrNone_of_oneToOne : AllOrNone logs traces := by
  intro bucket
  cases merges : Merges logs traces bucket with
  | true =>
      refine Or.inl ⟨fun l inside => ?_, fun t inside => ?_⟩
      · obtain ⟨member, rfl⟩ := (mem_bucketOf _ _ _).mp inside
        exact matched_of_merges sources result l member merges
      · obtain ⟨member, rfl⟩ := (mem_bucketOf _ _ _).mp inside
        exact (merges_iff sources result t member).mp merges
  | false =>
      refine Or.inr ⟨fun l inside isMatched => ?_, fun t inside isMatched => ?_⟩
      · obtain ⟨member, rfl⟩ := (mem_bucketOf _ _ _).mp inside
        exact Bool.false_ne_true (merges.symm.trans (merges_of_matched sources result l member isMatched))
      · obtain ⟨member, rfl⟩ := (mem_bucketOf _ _ _).mp inside
        exact Bool.false_ne_true (merges.symm.trans ((merges_iff sources result t member).mpr isMatched))

end

/-! ## Built movements -/

variable {sha256 : Digest}

theorem rawIds_apart (injective : Function.Injective sha256) (log : RawLog) (txHash : String)
    (traceAddress : List Int) :
    computeRawLogId sha256 log ≠ computeRawTraceCallId sha256 txHash traceAddress := by
  intro same
  have keys := injective same
  rw [Text.joinBar_cons_inj (by decide) (by decide) (by simp) (by simp)] at keys
  exact absurd keys.1 (by decide)

/-- Where every bucket has as many log movements as trace movements, they are merged one to one
exactly when phase one merges no proper part of a bucket. -/
theorem unifyMovements_oneToOne_iff (events : List DecodedEvent) (calls : List TraceTokenCall)
    (builtLogs : buildMovementsFromTransferLogs sha256 events = .ok logs)
    (builtTraces : buildMovementsFromTraceCalls sha256 calls = .ok traces)
    (distinctLogs : (ids logs).Nodup) (distinctTraces : (ids traces).Nodup)
    (even : ∀ bucket, (bucketOf logs bucket).length = (bucketOf traces bucket).length)
    (rawIds : ∀ call ∈ calls, call.rawTraceCallId ≠ "" ∧
      ∀ ev ∈ events, ev.rawLogId ≠ call.rawTraceCallId) :
    OneToOne logs traces (unifyMovements logs traces) ↔ AllOrNone logs traces := by
  obtain ⟨-, rfl⟩ := (buildMovementsFromTransferLogs_eq_ok_iff sha256 events logs).mp builtLogs
  obtain ⟨-, rfl⟩ := (buildMovementsFromTraceCalls_eq_ok_iff sha256 calls traces).mp builtTraces
  have sources : EvenSources ((events.filter (·.isTransfer)).map (builtLog sha256))
      (calls.map (builtTrace sha256)) :=
    { built_sources sha256 _ calls distinctLogs with
      distinctTraces := distinctTraces
      even := even
      logEvidence := fun l member => by
        obtain ⟨ev, -, rfl⟩ := List.mem_map.mp member
        exact ⟨_, rfl⟩
      traceEvidence := fun t member => by
        obtain ⟨call, inside, rfl⟩ := List.mem_map.mp member
        obtain ⟨nonempty, foreign⟩ := rawIds call inside
        refine ⟨_, rfl, nonempty, fun l inLogs => ?_⟩
        obtain ⟨ev, inEvents, rfl⟩ := List.mem_map.mp inLogs
        exact fun shared => foreign ev (List.mem_filter.mp inEvents).1 (List.mem_singleton.mp shared).symm }
  exact ⟨allOrNone_of_oneToOne sources, oneToOne_of_allOrNone sources⟩

/-! ### A log index that is also a trace address -/

def rawLogAt (logIndex : Int) : RawLog :=
  { chainId := 1
    blockNumber := 100
    blockHash := "0x0b"
    txHash := "0xab"
    txIndex := 0
    logIndex := logIndex
    address := "0x51"
    topics := []
    data := "0x" }

def transferLogAt (logIndex : Int) : DecodedEvent :=
  { rawLogId := computeRawLogId id (rawLogAt logIndex)
    decodedEventId := "event" ++ toString logIndex
    chainId := 1
    blockNumber := 100
    txHash := "0xab"
    logIndex := logIndex
    contractAddress := "0x51"
    eventName := "Transfer"
    eventSignature := erc20TransferTopic0
    indexedParams := Dict.ofList [("from", .str "0xaa"), ("to", .str "0xbb")]
    dataParams := Dict.ofList [("value", .int 5)] }

def transferLogs (indices : List Int) : List TokenMovement :=
  (indices.map transferLogAt).map (builtLog id)

def transferTraces (addresses : List (List Int)) : List TokenMovement :=
  (addresses.map callAt).map (builtTrace id)

theorem build_transferLogs (indices : List Int) :
    buildMovementsFromTransferLogs id (indices.map transferLogAt) = .ok (transferLogs indices) := by
  have isTransfer (i : Int) : (transferLogAt i).isTransfer = true := by
    simp [DecodedEvent.isTransfer, transferLogAt]
  have all : (indices.map transferLogAt).filter (·.isTransfer) = indices.map transferLogAt := by
    simp [List.filter_map, Function.comp_def, isTransfer]
  rw [buildMovementsFromTransferLogs_eq_ok_iff, all]
  refine ⟨fun ev member => ?_, rfl⟩
  obtain ⟨i, -, rfl⟩ := List.mem_map.mp member
  exact ⟨5, rfl⟩

theorem build_transferTraces (addresses : List (List Int))
    (nonneg : ∀ address ∈ addresses, ∀ component ∈ address, 0 ≤ component) :
    buildMovementsFromTraceCalls id (addresses.map callAt) = .ok (transferTraces addresses) := by
  rw [buildMovementsFromTraceCalls_eq_ok_iff]
  refine ⟨fun call member => ?_, rfl⟩
  obtain ⟨address, inside, rfl⟩ := List.mem_map.mp member
  exact nonneg address inside

theorem rawIds_transfers (indices : List Int) (addresses : List (List Int)) :
    ∀ call ∈ addresses.map callAt, call.rawTraceCallId ≠ "" ∧
      ∀ ev ∈ indices.map transferLogAt, ev.rawLogId ≠ call.rawTraceCallId := by
  intro call member
  obtain ⟨address, -, rfl⟩ := List.mem_map.mp member
  refine ⟨fun blank => ?_, fun ev inEvents => ?_⟩
  · have text := congrArg String.toList blank
    unfold callAt computeRawTraceCallId at text
    rw [id, Text.toList_joinBar_cons (by simp)] at text
    simp at text
  · obtain ⟨i, -, rfl⟩ := List.mem_map.mp inEvents
    exact rawIds_apart Function.injective_id (rawLogAt i) "0xab" address

theorem foreign_apart :
    (∀ l ∈ transferLogs [7, 8], l.movementId ∉ ids (transferTraces [[1], [2]])) ∧
      ∀ t ∈ transferTraces [[1], [2]], t.movementId ∉ ids (transferLogs [7, 8]) := by
  decide +kernel

theorem unifyMovements_oneToOne_apart :
    OneToOne (transferLogs [7, 8]) (transferTraces [[1], [2]])
      (unifyMovements (transferLogs [7, 8]) (transferTraces [[1], [2]])) := by
  refine (unifyMovements_oneToOne_iff ([7, 8].map transferLogAt) ([[1], [2]].map callAt)
    (build_transferLogs [7, 8]) (build_transferTraces [[1], [2]] (by decide)) (by decide) (by decide)
    (even_of_bucketKeys (by decide +kernel)) (rawIds_transfers [7, 8] [[1], [2]])).mpr ?_
  intro bucket
  right
  constructor
  · intro l member
    exact foreign_apart.1 l ((mem_bucketOf _ _ _).mp member).1
  · intro t member
    exact foreign_apart.2 t ((mem_bucketOf _ _ _).mp member).1

/-- One log index is the packed address of a call, so phase one merges these two and leaves one trace
beside two log records: three records come out of two transfers. -/
theorem coincidence_not_oneToOne :
    (∃ events calls, buildMovementsFromTransferLogs id events = .ok (transferLogs [0, 1]) ∧
      buildMovementsFromTraceCalls id calls = .ok (transferTraces [[1], [2]]) ∧
      ∀ call ∈ calls, call.rawTraceCallId ≠ "" ∧ ∀ ev ∈ events, ev.rawLogId ≠ call.rawTraceCallId) ∧
    (ids (transferLogs [0, 1])).Nodup ∧ (ids (transferTraces [[1], [2]])).Nodup ∧
    (∀ bucket, (bucketOf (transferLogs [0, 1]) bucket).length =
      (bucketOf (transferTraces [[1], [2]]) bucket).length) ∧
    ¬ OneToOne (transferLogs [0, 1]) (transferTraces [[1], [2]])
      (unifyMovements (transferLogs [0, 1]) (transferTraces [[1], [2]])) := by
  refine ⟨⟨[0, 1].map transferLogAt, [[1], [2]].map callAt, build_transferLogs [0, 1],
    build_transferTraces [[1], [2]] (by decide), rawIds_transfers [0, 1] [[1], [2]]⟩, by decide,
    by decide, even_of_bucketKeys (by decide +kernel), ?_⟩
  rintro ⟨pairs, firsts, -, records, same, each⟩
  have three : (unifyMovements (transferLogs [0, 1]) (transferTraces [[1], [2]])).length = 3 := by
    decide +kernel
  rw [← same.length_eq, ← each.length_eq, ← List.length_map (f := Prod.fst), firsts.length_eq] at three
  exact absurd three (by decide)

end EconomicLedger.Movements
