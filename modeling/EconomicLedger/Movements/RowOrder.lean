import EconomicLedger.Lib.StableSort
import EconomicLedger.Movements.Pairing
import Mathlib.Data.Finset.Dedup
import Mathlib.Data.List.Flatten

/-!
# The order of the rows

Within a bucket log and trace records are paired in the order they are read, and records of one sort
key come out in the order of their buckets. So the order of the rows shows unless the traces of a
bucket bring the same evidence and every tie is between a bucket with logs and one without.
-/

namespace EconomicLedger.Movements
open Model Keyed StableSort

/-! ## What a row of the output says -/

structure OutputRecord where
  movementId : String
  fromAddr : String
  toAddr : String
  amount : Int
  sourcePriority : SourcePriority
  evidence : Finset String

def outputRecord (m : TokenMovement) : OutputRecord :=
  { movementId := m.movementId
    fromAddr := m.fromAddr
    toAddr := m.toAddr
    amount := m.amount
    sourcePriority := m.sourcePriority
    evidence := m.evidenceIds.toFinset }

def OrderIndependent (logs traces : List TokenMovement) : Prop :=
  ∀ logs' traces', logs'.Perm logs → traces'.Perm traces →
    (unifyMovements logs' traces').map outputRecord = (unifyMovements logs traces).map outputRecord

structure DistinctSources (logs traces : List TokenMovement) : Prop extends Sources logs traces where
  distinctTraces : (ids traces).Nodup

def unmatched (logs traces : List TokenMovement) : List TokenMovement :=
  traces.filter fun t => t.movementId ∉ ids logs

def PairedOff (logs traces : List TokenMovement) (bucket : BucketKey) : Prop :=
  (bucketOf logs bucket).length = (bucketOf (unmatched logs traces) bucket).length

def HasLog (logs : List TokenMovement) (bucket : BucketKey) : Prop := ∃ l ∈ logs, l.bucketKey = bucket

def Unpaired (logs traces : List TokenMovement) (t : TokenMovement) : Prop :=
  t ∈ unmatched logs traces ∧ ¬ PairedOff logs traces t.bucketKey

/-- What the record of a log movement has for evidence after phase one. -/
def Known (traces : List TokenMovement) (l : TokenMovement) (ev : String) : Prop :=
  ev ∈ l.evidenceIds ∨ ∃ t ∈ traces, t.movementId = l.movementId ∧ ev ∈ t.evidenceIds ∧ ev ≠ ""

def place (m : TokenMovement) : Int × String × String := (m.blockNumber, m.txHash, m.fromAddr)

structure OrderFree (logs traces : List TokenMovement) : Prop where
  evidence : ∀ l ∈ logs, PairedOff logs traces l.bucketKey →
    ∀ t ∈ unmatched logs traces, t.bucketKey = l.bucketKey →
      ∀ t' ∈ unmatched logs traces, t'.bucketKey = l.bucketKey →
        ∀ ev, (Known traces l ev ∨ ev ∈ t.evidenceIds ∧ ev ≠ "") ↔
          (Known traces l ev ∨ ev ∈ t'.evidenceIds ∧ ev ≠ "")
  logTies : ∀ l ∈ logs, ∀ l' ∈ logs, l ≠ l' → place l ≠ place l'
  traceTies : ∀ t t', Unpaired logs traces t → Unpaired logs traces t' → t ≠ t' →
    place t = place t' → (HasLog logs t.bucketKey ↔ ¬ HasLog logs t'.bucketKey)

/-! ## Records -/

theorem sortKey_eq_iff (m n : TokenMovement) :
    m.sortKey = n.sortKey ↔ place m = place n ∧ m.sourcePriority = n.sourcePriority := by
  have rank : m.sourcePriority.rank = n.sourcePriority.rank ↔ m.sourcePriority = n.sourcePriority := by
    cases m.sourcePriority <;> cases n.sourcePriority <;> decide
  simp only [TokenMovement.sortKey, place, toLex_inj, Prod.mk.injEq, String.toList_inj, rank]
  tauto

theorem sortKey_absorb (l t : TokenMovement) (isLog : l.sourcePriority = .log) :
    (absorb l t).sortKey = l.sortKey :=
  (sortKey_eq_iff _ _).mpr ⟨rfl, isLog.symm⟩

/-! ## Buckets -/

variable (logs traces : List TokenMovement)

def indexedRecords : List TokenMovement := logs.map (logRecord traces) ++ unmatched logs traces

def bucketKeys : List BucketKey := (Dict.groupBy TokenMovement.bucketKey (indexedRecords logs traces)).keys

/-- The records in the order of their buckets. -/
def groupedRecords : List TokenMovement :=
  (bucketKeys logs traces).flatMap fun bucket => bucketOf (indexedRecords logs traces) bucket

def pairedRecords : List TokenMovement :=
  (bucketKeys logs traces).flatMap fun bucket => pairBucket (bucketOf (indexedRecords logs traces) bucket)

variable {logs traces}

theorem mem_logRecord_evidence (l : TokenMovement) (ev : String) :
    ev ∈ (logRecord traces l).evidenceIds ↔ Known traces l ev := by
  rw [logRecord, mem_absorbAll_evidence]
  simp only [Known, tracesWith, List.mem_filter, decide_eq_true_eq, and_assoc]

theorem bucketOf_indexedRecords (bucket : BucketKey) : bucketOf (indexedRecords logs traces) bucket =
    (bucketOf logs bucket).map (logRecord traces) ++ bucketOf (unmatched logs traces) bucket := by
  rw [indexedRecords, bucketOf_append, bucketOf_map (logRecord traces) fun m => absorbAll_bucketKey m _]

theorem ids_indexedRecords : ids (indexedRecords logs traces) = ids logs ++ ids (unmatched logs traces) := by
  have own : TokenMovement.movementId ∘ logRecord traces = TokenMovement.movementId :=
    funext fun l => absorbAll_movementId l _
  rw [indexedRecords, ids, List.map_append, List.map_map, own]
  rfl

theorem ids_pairBucket_sublist (entries : List TokenMovement) :
    (ids (pairBucket entries)).Sublist (ids entries) := by
  simp only [pairBucket]
  split_ifs with paired
  · rw [ids, map_zipWith_left absorb _ TokenMovement.movementId _ _ (fun _ _ _ _ => rfl) paired.2.2]
    exact List.filter_sublist.map _
  · exact List.Sublist.refl _

theorem mem_zipWith_absorb (ls ts : List TokenMovement) (m : TokenMovement)
    (member : m ∈ List.zipWith absorb ls ts) : ∃ l ∈ ls, ∃ t ∈ ts, m = absorb l t := by
  rw [← List.map_uncurry_zip_eq_zipWith] at member
  obtain ⟨⟨l, t⟩, inside, rfl⟩ := List.mem_map.mp member
  exact ⟨l, (List.of_mem_zip inside).1, t, (List.of_mem_zip inside).2, rfl⟩

theorem hasLog_iff (bucket : BucketKey) :
    HasLog logs bucket ↔ bucket ∈ logs.map TokenMovement.bucketKey := List.mem_map.symm

/-- The buckets that have a log come first. -/
theorem bucketKeys_eq : bucketKeys logs traces =
    (firstByKey TokenMovement.bucketKey logs).map TokenMovement.bucketKey ++
      (firstByKey TokenMovement.bucketKey
        (unseen TokenMovement.bucketKey logs (unmatched logs traces))).map TokenMovement.bucketKey := by
  have own : (fun l => (logRecord traces l).bucketKey) = TokenMovement.bucketKey :=
    funext fun l => absorbAll_bucketKey l _
  have keys : (logs.map (logRecord traces)).map TokenMovement.bucketKey =
      logs.map TokenMovement.bucketKey := by
    rw [List.map_map]
    exact congrArg (logs.map ·) own
  have logSide : (firstByKey TokenMovement.bucketKey (logs.map (logRecord traces))).map
      TokenMovement.bucketKey = (firstByKey TokenMovement.bucketKey logs).map TokenMovement.bucketKey := by
    rw [firstByKey_map, own, List.map_map]
    exact congrArg ((firstByKey TokenMovement.bucketKey logs).map ·) own
  rw [bucketKeys, Dict.groupBy, Dict.keys_gather, indexedRecords]
  simp only [Dict.keys_empty, List.nil_append, List.not_mem_nil, not_false_eq_true, decide_true,
    List.filter_true]
  rw [firstByKey_append, unseen, keys, List.map_append, logSide, unseen]

theorem hasLog_bucketKeys :
    (bucketKeys logs traces).Pairwise fun k k' => HasLog logs k' → HasLog logs k := by
  rw [bucketKeys_eq, List.pairwise_append]
  have first (k : BucketKey)
      (member : k ∈ (firstByKey TokenMovement.bucketKey logs).map TokenMovement.bucketKey) : HasLog logs k :=
    (hasLog_iff k).mpr ((mem_keys_firstByKey _ _ _).mp member)
  refine ⟨?_, ?_, fun k member _ _ _ => first k member⟩
  · exact List.pairwise_of_forall_mem_list fun k member _ _ _ => first k member
  · refine List.pairwise_of_forall_mem_list fun _ _ k' member has => ?_
    obtain ⟨t, inside, rfl⟩ := List.mem_map.mp ((mem_keys_firstByKey _ _ _).mp member)
    exact absurd ((hasLog_iff _).mp has) ((mem_unseen _ _ _ _).mp inside).2

theorem bucketKey_of_mem_pairBucket (bucket : BucketKey) (m : TokenMovement)
    (member : m ∈ pairBucket (bucketOf (indexedRecords logs traces) bucket)) : m.bucketKey = bucket := by
  simp only [pairBucket] at member
  split_ifs at member
  · obtain ⟨l, here, t, -, rfl⟩ := mem_zipWith_absorb _ _ _ member
    exact ((mem_bucketOf _ _ _).mp (List.mem_filter.mp here).1).2
  · exact ((mem_bucketOf _ _ _).mp member).2

theorem hasLog_pairedRecords : (pairedRecords logs traces).Pairwise
    fun m n => HasLog logs n.bucketKey → HasLog logs m.bucketKey := by
  rw [pairedRecords, List.pairwise_flatMap]
  refine ⟨fun bucket _ => List.pairwise_of_forall_mem_list fun m here n there => ?_,
    hasLog_bucketKeys.imp fun order m here n there => ?_⟩
  · rw [bucketKey_of_mem_pairBucket _ _ here, bucketKey_of_mem_pairBucket _ _ there]
    exact id
  · rw [bucketKey_of_mem_pairBucket _ _ here, bucketKey_of_mem_pairBucket _ _ there]
    exact order

section
variable (sources : DistinctSources logs traces)
include sources

theorem values_eq_indexedRecords : (indexById logs traces).values = indexedRecords logs traces :=
  values_indexById_of_nodup sources.distinctTraces sources.distinct

theorem unifyMovements_eq : unifyMovements logs traces =
    (pairedRecords logs traces).insertionSort (·.sortKey ≤ ·.sortKey) := by
  simp only [unifyMovements, values_eq_indexedRecords sources, Dict.values_groupBy, List.flatMap_map]
  rfl

theorem pairBucket_indexedRecords (bucket : BucketKey) :
    pairBucket (bucketOf (indexedRecords logs traces) bucket) =
      if (bucketOf logs bucket).length = (bucketOf (unmatched logs traces) bucket).length then
        List.zipWith absorb ((bucketOf logs bucket).map (logRecord traces))
          (bucketOf (unmatched logs traces) bucket)
      else (bucketOf logs bucket).map (logRecord traces) ++ bucketOf (unmatched logs traces) bucket := by
  rw [bucketOf_indexedRecords, pairBucket_append, List.length_map]
  · intro m member
    obtain ⟨l, inside, rfl⟩ := List.mem_map.mp member
    exact logRecord_sourcePriority sources.toSources l (List.mem_filter.mp inside).1
  · intro t member
    exact sources.fromTraces t (List.mem_filter.mp (List.mem_filter.mp member).1).1

theorem pairBucket_paired (bucket : BucketKey) (paired : PairedOff logs traces bucket) :
    pairBucket (bucketOf (indexedRecords logs traces) bucket) =
      List.zipWith absorb ((bucketOf logs bucket).map (logRecord traces))
        (bucketOf (unmatched logs traces) bucket) :=
  (pairBucket_indexedRecords sources bucket).trans (if_pos paired)

theorem pairBucket_unpaired (bucket : BucketKey) (unpaired : ¬ PairedOff logs traces bucket) :
    pairBucket (bucketOf (indexedRecords logs traces) bucket) =
      (bucketOf logs bucket).map (logRecord traces) ++ bucketOf (unmatched logs traces) bucket :=
  (pairBucket_indexedRecords sources bucket).trans (if_neg unpaired)

theorem ids_indexedRecords_nodup : (ids (indexedRecords logs traces)).Nodup := by
  rw [ids_indexedRecords, List.nodup_append']
  refine ⟨sources.distinct, sources.distinctTraces.sublist (List.filter_sublist.map _), ?_⟩
  intro movementId inLogs inTraces
  obtain ⟨t, member, rfl⟩ := List.mem_map.mp inTraces
  simpa [inLogs] using (List.mem_filter.mp member).2

theorem ids_pairedRecords_nodup : (ids (pairedRecords logs traces)).Nodup := by
  have grouped : (ids (groupedRecords logs traces)).Nodup := by
    refine ((perm_flatMap_filter TokenMovement.bucketKey _ (Dict.keys_nodup _) _
      fun m member => ?_).map _).nodup_iff.mpr (ids_indexedRecords_nodup sources)
    exact (Dict.mem_keys_groupBy _ _ _).mpr (List.mem_map_of_mem member)
  refine grouped.sublist ?_
  rw [ids, ids, pairedRecords, groupedRecords, List.map_flatMap, List.map_flatMap]
  exact List.Sublist.flatMap_right _ fun bucket _ => ids_pairBucket_sublist _

theorem sortKey_logRecord (l : TokenMovement) (member : l ∈ logs) :
    (logRecord traces l).sortKey = l.sortKey := by
  refine (sortKey_eq_iff _ _).mpr ⟨absorbAll_frame place (fun _ _ => rfl) l _, ?_⟩
  rw [logRecord_sourcePriority sources.toSources l member, sources.fromLogs l member]

/-- Every row comes from a log or is a trace movement that was not paired off. -/
theorem pairedRecords_cases (m : TokenMovement) (member : m ∈ pairedRecords logs traces) :
    (∃ l ∈ logs, m.movementId = l.movementId ∧ m.sortKey = l.sortKey ∧ m.bucketKey = l.bucketKey) ∨
      Unpaired logs traces m := by
  obtain ⟨bucket, -, inside⟩ := List.mem_flatMap.mp member
  rw [pairBucket_indexedRecords sources] at inside
  split_ifs at inside with paired
  · obtain ⟨record, left, t, -, rfl⟩ := mem_zipWith_absorb _ _ _ inside
    obtain ⟨l, here, rfl⟩ := List.mem_map.mp left
    obtain ⟨inLogs, -⟩ := (mem_bucketOf _ _ _).mp here
    refine Or.inl ⟨l, inLogs, absorbAll_movementId l _, ?_, absorbAll_bucketKey l _⟩
    rw [sortKey_absorb _ _ (logRecord_sourcePriority sources.toSources l inLogs),
      sortKey_logRecord sources l inLogs]
  · rcases List.mem_append.mp inside with left | right
    · obtain ⟨l, here, rfl⟩ := List.mem_map.mp left
      obtain ⟨inLogs, -⟩ := (mem_bucketOf _ _ _).mp here
      exact Or.inl ⟨l, inLogs, absorbAll_movementId l _, sortKey_logRecord sources l inLogs,
        absorbAll_bucketKey l _⟩
    · obtain ⟨here, rfl⟩ := (mem_bucketOf _ _ _).mp right
      exact Or.inr ⟨here, paired⟩

theorem logs_eq_of_id {l l' : TokenMovement} (member : l ∈ logs) (member' : l' ∈ logs)
    (same : l.movementId = l'.movementId) : l = l' :=
  List.inj_on_of_nodup_map sources.distinct member member' same

theorem ties_pairedRecords (free : OrderFree logs traces) : (pairedRecords logs traces).Pairwise
    fun m n => m.sortKey = n.sortKey → HasLog logs m.bucketKey ∧ ¬ HasLog logs n.bucketKey := by
  have distinct := List.pairwise_map.mp (ids_pairedRecords_nodup sources)
  refine (distinct.and hasLog_pairedRecords).imp_of_mem fun {m n} here there related same => ?_
  obtain ⟨differ, order⟩ := related
  obtain ⟨samePlace, sameSource⟩ := (sortKey_eq_iff m n).mp same
  rcases pairedRecords_cases sources m here with ⟨l, inLogs, idOf, keyOf, -⟩ | left
  · rcases pairedRecords_cases sources n there with ⟨l', inLogs', idOf', keyOf', -⟩ | right
    · -- two logs of one place
      have distinctLogs : l ≠ l' := fun equal => differ (by rw [idOf, idOf', equal])
      rw [keyOf, keyOf'] at same
      exact absurd ((sortKey_eq_iff _ _).mp same).1 (free.logTies l inLogs l' inLogs' distinctLogs)
    · have fromTrace := sources.fromTraces n (List.mem_filter.mp right.1).1
      rw [keyOf] at same
      have fromLog := ((sortKey_eq_iff _ _).mp same).2
      rw [sources.fromLogs l inLogs, fromTrace] at fromLog
      cases fromLog
  · rcases pairedRecords_cases sources n there with ⟨l', inLogs', idOf', keyOf', -⟩ | right
    · have fromTrace := sources.fromTraces m (List.mem_filter.mp left.1).1
      rw [keyOf'] at same
      have fromLog := ((sortKey_eq_iff _ _).mp same).2
      rw [sources.fromLogs l' inLogs', fromTrace] at fromLog
      cases fromLog
    · -- of two unpaired traces exactly one is beside a log, and its bucket comes first
      have oneSide := free.traceTies m n left right (fun equal => differ (by rw [equal])) samePlace
      by_cases beside : HasLog logs n.bucketKey
      · exact absurd beside (oneSide.mp (order beside))
      · exact ⟨oneSide.mpr beside, beside⟩

end

/-! ## Permuted inputs -/

section
variable {logs' traces' : List TokenMovement} (sameLogs : logs'.Perm logs) (sameTraces : traces'.Perm traces)
include sameLogs

theorem hasLog_perm (bucket : BucketKey) : HasLog logs' bucket ↔ HasLog logs bucket := by
  simp only [HasLog, sameLogs.mem_iff]

include sameTraces

omit sameLogs in
theorem known_perm (l : TokenMovement) (ev : String) : Known traces' l ev ↔ Known traces l ev := by
  simp only [Known, sameTraces.mem_iff]

theorem unmatched_perm : (unmatched logs' traces').Perm (unmatched logs traces) := by
  have known (t : TokenMovement) : t.movementId ∈ ids logs' ↔ t.movementId ∈ ids logs :=
    (sameLogs.map TokenMovement.movementId).mem_iff
  simp only [unmatched, known]
  exact sameTraces.filter _

theorem pairedOff_perm (bucket : BucketKey) : PairedOff logs' traces' bucket ↔ PairedOff logs traces bucket := by
  rw [PairedOff, PairedOff, bucketOf, bucketOf, bucketOf, bucketOf, (sameLogs.filter _).length_eq,
    ((unmatched_perm sameLogs sameTraces).filter _).length_eq]

theorem unpaired_perm (t : TokenMovement) : Unpaired logs' traces' t ↔ Unpaired logs traces t := by
  rw [Unpaired, Unpaired, (unmatched_perm sameLogs sameTraces).mem_iff, pairedOff_perm sameLogs sameTraces]

theorem DistinctSources.perm (sources : DistinctSources logs traces) : DistinctSources logs' traces' where
  distinct := (sameLogs.map _).nodup_iff.mpr sources.distinct
  distinctTraces := (sameTraces.map _).nodup_iff.mpr sources.distinctTraces
  fromLogs m member := sources.fromLogs m (sameLogs.mem_iff.mp member)
  fromTraces m member := sources.fromTraces m (sameTraces.mem_iff.mp member)

theorem OrderFree.perm (free : OrderFree logs traces) : OrderFree logs' traces' where
  evidence := by
    simpa only [sameLogs.mem_iff, pairedOff_perm sameLogs sameTraces, known_perm sameTraces,
      (unmatched_perm sameLogs sameTraces).mem_iff] using free.evidence
  logTies := by simpa only [sameLogs.mem_iff] using free.logTies
  traceTies := by
    simpa only [unpaired_perm sameLogs sameTraces, hasLog_perm sameLogs] using free.traceTies

theorem bucketKeys_row_perm : (bucketKeys logs' traces').Perm (bucketKeys logs traces) := by
  have known (l : TokenMovement) (records : List TokenMovement) :
      (logRecord records l).bucketKey = l.bucketKey := absorbAll_bucketKey l _
  refine (List.perm_ext_iff_of_nodup (Dict.keys_nodup _) (Dict.keys_nodup _)).mpr fun bucket => ?_
  rw [Dict.mem_keys_groupBy, Dict.mem_keys_groupBy]
  simp only [indexedRecords, List.map_append, List.map_map, List.mem_append, List.mem_map,
    Function.comp_apply, known, sameLogs.mem_iff, (unmatched_perm sameLogs sameTraces).mem_iff]

end

/-! ## What does not depend on the order -/

/-- A row without its evidence, and its evidence. -/
def content (m : TokenMovement) : TokenMovement × Finset String :=
  ({ m with evidenceIds := [], isCanonical := true }, m.evidenceIds.toFinset)

theorem content_eq (m n : TokenMovement) (same : (content m).1 = (content n).1)
    (evidence : ∀ ev, ev ∈ m.evidenceIds ↔ ev ∈ n.evidenceIds) : content m = content n := by
  refine Prod.ext same (Finset.ext fun ev => ?_)
  rw [content, content, List.mem_toFinset, List.mem_toFinset, evidence]

theorem content_absorb_fst (l t : TokenMovement) (isLog : l.sourcePriority = .log) :
    (content (absorb l t)).1 = (content l).1 := by
  simp only [content, absorb, isLog]

theorem content_absorbAll_fst (l : TokenMovement) (others : List TokenMovement)
    (isLog : l.sourcePriority = .log) : (content (absorbAll l others)).1 = (content l).1 := by
  induction others generalizing l with
  | nil => rfl
  | cons t rest ih => exact (ih (absorb l t) rfl).trans (content_absorb_fst l t isLog)

section
variable {logs' traces' : List TokenMovement} (sameLogs : logs'.Perm logs) (sameTraces : traces'.Perm traces)
variable (sources : DistinctSources logs traces)
include sameTraces sources

theorem content_logRecord (l : TokenMovement) (member : l ∈ logs) :
    content (logRecord traces' l) = content (logRecord traces l) := by
  have isLog := sources.fromLogs l member
  refine content_eq _ _ ?_ fun ev => ?_
  · rw [logRecord, logRecord, content_absorbAll_fst l _ isLog, content_absorbAll_fst l _ isLog]
  · rw [mem_logRecord_evidence, mem_logRecord_evidence, known_perm sameTraces]

theorem content_paired (free : OrderFree logs traces) (l t t' : TokenMovement) (member : l ∈ logs)
    (paired : PairedOff logs traces l.bucketKey)
    (here : t ∈ bucketOf (unmatched logs traces) l.bucketKey)
    (here' : t' ∈ bucketOf (unmatched logs traces) l.bucketKey) :
    content (absorb (logRecord traces' l) t) = content (absorb (logRecord traces l) t') := by
  have isLog (records : List TokenMovement) : (logRecord records l).sourcePriority = .log := by
    rw [logRecord, absorbAll_sourcePriority, sources.fromLogs l member, ite_self]
  obtain ⟨inside, same⟩ := (mem_bucketOf _ _ _).mp here
  obtain ⟨inside', same'⟩ := (mem_bucketOf _ _ _).mp here'
  refine content_eq _ _ ?_ fun ev => ?_
  · rw [content_absorb_fst _ _ (isLog _), content_absorb_fst _ _ (isLog _),
      congrArg Prod.fst (content_logRecord sameTraces sources l member)]
  · rw [absorb, absorb, mem_mergeEvidence, mem_mergeEvidence, mem_logRecord_evidence,
      mem_logRecord_evidence, known_perm sameTraces]
    exact free.evidence l member paired t inside same t' inside' same' ev

include sameLogs

theorem content_pairBucket_perm (free : OrderFree logs traces) (bucket : BucketKey) :
    ((pairBucket (bucketOf (indexedRecords logs' traces') bucket)).map content).Perm
      ((pairBucket (bucketOf (indexedRecords logs traces) bucket)).map content) := by
  have logsPerm : (bucketOf logs' bucket).Perm (bucketOf logs bucket) := sameLogs.filter _
  have tracesPerm : (bucketOf (unmatched logs' traces') bucket).Perm
      (bucketOf (unmatched logs traces) bucket) := (unmatched_perm sameLogs sameTraces).filter _
  rw [pairBucket_indexedRecords sources,
    pairBucket_indexedRecords (sources.perm sameLogs sameTraces), logsPerm.length_eq,
    tracesPerm.length_eq]
  split_ifs with paired
  · cases first : bucketOf (unmatched logs traces) bucket with
    | nil =>
        rw [first] at tracesPerm
        rw [tracesPerm.eq_nil, List.zipWith_nil_right, List.zipWith_nil_right]
    | cons t rest =>
        -- whichever trace a log meets, its row says what it would with the first one
        have settled (records : List TokenMovement) (same : records.Perm traces) (l u : TokenMovement)
            (inLogs : l ∈ bucketOf logs bucket) (inTraces : u ∈ bucketOf (unmatched logs traces) bucket) :
            content (absorb (logRecord records l) u) = content (absorb (logRecord traces l) t) := by
          obtain ⟨member, rfl⟩ := (mem_bucketOf _ _ _).mp inLogs
          exact content_paired same sources free l u t member paired inTraces
            (first ▸ List.mem_cons_self)
        rw [← first, List.zipWith_map_left, List.zipWith_map_left,
          map_zipWith_left _ content (fun l => content (absorb (logRecord traces l) t)) _ _
            (fun l inLogs u inTraces => settled traces' sameTraces l u (logsPerm.mem_iff.mp inLogs)
              (tracesPerm.mem_iff.mp inTraces))
            (by rw [logsPerm.length_eq, tracesPerm.length_eq, paired]),
          map_zipWith_left _ content (fun l => content (absorb (logRecord traces l) t)) _ _
            (fun l inLogs u inTraces => settled traces (List.Perm.refl _) l u inLogs inTraces) paired]
        exact logsPerm.map _
  · have logSide : ((bucketOf logs' bucket).map (logRecord traces')).map content =
        ((bucketOf logs' bucket).map (logRecord traces)).map content := by
      rw [List.map_map, List.map_map]
      refine List.map_congr_left fun l inside => content_logRecord sameTraces sources l ?_
      exact ((mem_bucketOf _ _ _).mp (logsPerm.mem_iff.mp inside)).1
    rw [List.map_append, List.map_append, logSide]
    exact ((logsPerm.map _).map _).append (tracesPerm.map _)

theorem content_pairedRecords_perm (free : OrderFree logs traces) :
    ((pairedRecords logs' traces').map content).Perm ((pairedRecords logs traces).map content) := by
  rw [pairedRecords, pairedRecords, List.map_flatMap, List.map_flatMap]
  exact (bucketKeys_row_perm sameLogs sameTraces).flatMap fun bucket _ =>
    content_pairBucket_perm sameLogs sameTraces sources free bucket

theorem content_unifyMovements (free : OrderFree logs traces) :
    (unifyMovements logs' traces').map content = (unifyMovements logs traces).map content := by
  have sorted (ls ts : List TokenMovement) (sameLogs : ls.Perm logs) (sameTraces : ts.Perm traces) :
      ((unifyMovements ls ts).map content).Pairwise
        (Before (fun c => c.1.sortKey) fun c d =>
          HasLog logs c.1.bucketKey ∧ ¬ HasLog logs d.1.bucketKey) := by
    have ties := ties_pairedRecords (sources.perm sameLogs sameTraces) (free.perm sameLogs sameTraces)
    simp only [hasLog_perm sameLogs] at ties
    rw [unifyMovements_eq (sources.perm sameLogs sameTraces), List.pairwise_map]
    exact pairwise_insertionSort _ ties
  refine eq_of_before (fun _ _ one other => one.2 other.1) _ _ ?_ (sorted _ _ sameLogs sameTraces)
    (sorted _ _ (List.Perm.refl _) (List.Perm.refl _))
  rw [unifyMovements_eq sources, unifyMovements_eq (sources.perm sameLogs sameTraces)]
  exact (((List.perm_insertionSort _ _).map content).trans
    (content_pairedRecords_perm sameLogs sameTraces sources free)).trans
    ((List.perm_insertionSort _ _).map content).symm

end

theorem orderIndependent_of_orderFree (sources : DistinctSources logs traces)
    (free : OrderFree logs traces) : OrderIndependent logs traces := by
  intro logs' traces' sameLogs sameTraces
  have whole := congrArg (List.map fun c : TokenMovement × Finset String =>
    OutputRecord.mk c.1.movementId c.1.fromAddr c.1.toAddr c.1.amount c.1.sourcePriority c.2)
    (content_unifyMovements sameLogs sameTraces sources free)
  rw [List.map_map, List.map_map] at whole
  exact whole

end EconomicLedger.Movements
