import EconomicLedger.Movements.RowOrder
import Mathlib.Data.List.Pairwise

/-!
# Ties between rows

Where two rows tie, one order of the inputs puts the first of them before the other, and another
order the other way round.
-/

namespace EconomicLedger.Movements
open Model Keyed StableSort

/-- A row with identifier `x` comes before any with `y`, and they tie. -/
def Leads (x y : String) (rows : List TokenMovement) : Prop :=
  ∃ earlier m later, rows = earlier ++ m :: later ∧ m.movementId = x ∧ y ∉ ids earlier ∧
    ∀ n ∈ later, n.movementId = y → n.sortKey = m.sortKey

theorem Leads.mem {x y : String} {rows : List TokenMovement} (leads : Leads x y rows) : x ∈ ids rows := by
  obtain ⟨earlier, m, later, rfl, rfl, -⟩ := leads
  exact mem_ids _ m (by simp)

theorem Leads.sorted {x y : String} {rows : List TokenMovement} (leads : Leads x y rows)
    (distinct : (ids rows).Nodup) :
    (ids (rows.insertionSort (·.sortKey ≤ ·.sortKey))).Pairwise fun a b => ¬ (a = y ∧ b = x) := by
  obtain ⟨earlier, m, later, rfl, rfl, absent, tie⟩ := leads
  have once := List.inj_on_of_nodup_map distinct
  rw [ids, List.map_append] at distinct
  obtain ⟨-, inner, -⟩ := List.nodup_append'.mp distinct
  have alone : ∀ n ∈ later, n.movementId ≠ m.movementId := fun n inside same =>
    (List.nodup_cons.mp inner).1 (same ▸ mem_ids later n inside)
  have order : (earlier ++ m :: later).Pairwise fun a b =>
      ¬ (a.movementId = y ∧ b.movementId = m.movementId) := by
    rw [List.pairwise_append, List.pairwise_cons]
    refine ⟨List.pairwise_of_forall_mem_list ?_, ⟨?_, List.pairwise_of_forall_mem_list ?_⟩, ?_⟩
    · exact fun a inside _ _ both => absent (both.1 ▸ mem_ids earlier a inside)
    · exact fun b inside both => alone b inside both.2
    · exact fun _ _ b inside both => alone b inside both.2
    · exact fun a inside _ _ both => absent (both.1 ▸ mem_ids earlier a inside)
  rw [ids, List.pairwise_map]
  have sorted := pairwise_insertionSort _ (order.imp fun {a b} apart (_ : a.sortKey = b.sortKey) => apart)
  refine sorted.imp_of_mem fun {a b} here there precedes both => ?_
  rw [List.mem_insertionSort] at here there
  have last : b = m := once there (by simp) both.2
  have tied : a.sortKey = m.sortKey := by
    rcases List.mem_append.mp here with left | right
    · exact absurd (both.1 ▸ mem_ids earlier a left) absent
    · rcases List.mem_cons.mp right with rfl | right
      · rfl
      · exact tie a right both.1
  rcases precedes with less | ⟨-, apart⟩
  · rw [tied, last] at less
    exact lt_irrefl _ less
  · exact apart both

variable {logs traces : List TokenMovement}

theorem ids_unifyMovements (independent : OrderIndependent logs traces) {logs' traces' : List TokenMovement}
    (sameLogs : logs'.Perm logs) (sameTraces : traces'.Perm traces) :
    ids (unifyMovements logs' traces') = ids (unifyMovements logs traces) := by
  have whole := congrArg (List.map OutputRecord.movementId) (independent _ _ sameLogs sameTraces)
  rw [List.map_map, List.map_map] at whole
  exact whole

section
variable (sources : DistinctSources logs traces)
include sources

theorem ids_unifyMovements_perm :
    (ids (unifyMovements logs traces)).Perm (ids (pairedRecords logs traces)) := by
  rw [unifyMovements_eq sources]
  exact (List.perm_insertionSort _ _).map _

theorem not_tied (independent : OrderIndependent logs traces) {x y : String} (differ : x ≠ y)
    (one : ∃ logs' traces', logs'.Perm logs ∧ traces'.Perm traces ∧
      Leads x y (pairedRecords logs' traces'))
    (other : ∃ logs' traces', logs'.Perm logs ∧ traces'.Perm traces ∧
      Leads y x (pairedRecords logs' traces')) : False := by
  have order (x y : String) (leads : ∃ logs' traces', logs'.Perm logs ∧ traces'.Perm traces ∧
      Leads x y (pairedRecords logs' traces')) : x ∈ ids (unifyMovements logs traces) ∧
        (ids (unifyMovements logs traces)).Pairwise fun a b => ¬ (a = y ∧ b = x) := by
    obtain ⟨logs', traces', sameLogs, sameTraces, leads⟩ := leads
    have sources' := sources.perm sameLogs sameTraces
    have sorted := leads.sorted (ids_pairedRecords_nodup sources')
    rw [← unifyMovements_eq sources', ids_unifyMovements independent sameLogs sameTraces] at sorted
    refine ⟨?_, sorted⟩
    rw [← ids_unifyMovements independent sameLogs sameTraces]
    exact (ids_unifyMovements_perm sources').mem_iff.mpr leads.mem
  obtain ⟨memberX, pairwiseX⟩ := order x y one
  obtain ⟨memberY, pairwiseY⟩ := order y x other
  have both := pairwiseX.and pairwiseY
  have : Std.Symm fun a b : String => ¬ (a = y ∧ b = x) ∧ ¬ (a = x ∧ b = y) :=
    ⟨fun a b apart => ⟨fun h => apart.2 ⟨h.2, h.1⟩, fun h => apart.1 ⟨h.2, h.1⟩⟩⟩
  exact (both.forall memberX memberY differ).2 ⟨rfl, rfl⟩

theorem sortKey_row_log (m l : TokenMovement) (row : m ∈ pairedRecords logs traces) (member : l ∈ logs)
    (same : m.movementId = l.movementId) : m.sortKey = l.sortKey := by
  rcases pairedRecords_cases sources m row with ⟨l', inLogs, idOf, keyOf, -⟩ | unpaired
  · rw [keyOf, logs_eq_of_id sources inLogs member (idOf.symm.trans same)]
  · have known : m.movementId ∈ ids logs := same ▸ mem_ids logs l member
    simpa [known] using (List.mem_filter.mp unpaired.1).2

theorem row_trace (m t : TokenMovement) (row : m ∈ pairedRecords logs traces)
    (member : t ∈ unmatched logs traces) (same : m.movementId = t.movementId) : m = t := by
  obtain ⟨inTraces, foreign⟩ := List.mem_filter.mp member
  rcases pairedRecords_cases sources m row with ⟨l, inLogs, idOf, -⟩ | unpaired
  · have known : t.movementId ∈ ids logs := same ▸ idOf ▸ mem_ids logs l inLogs
    simp [known] at foreign
  · exact List.inj_on_of_nodup_map sources.distinctTraces (List.mem_filter.mp unpaired.1).1 inTraces same

end

/-! ## Putting a movement first -/

theorem bucketKeys_front (traces : List TokenMovement) (l : TokenMovement) (rest : List TokenMovement) :
    ∃ ks, bucketKeys (l :: rest) traces = l.bucketKey :: ks := by
  rw [bucketKeys_eq, firstByKey, List.map_cons, List.cons_append]
  exact ⟨_, rfl⟩

theorem unmatched_front (t : TokenMovement) (rest : List TokenMovement) (foreign : t.movementId ∉ ids logs) :
    unmatched logs (t :: rest) = t :: unmatched logs rest :=
  List.filter_cons_of_pos (by simpa using foreign)

theorem bucketKeys_front_trace (t : TokenMovement) (rest : List TokenMovement)
    (foreign : t.movementId ∉ ids logs) (lone : ¬ HasLog logs t.bucketKey) :
    ∃ ks, bucketKeys logs (t :: rest) =
      (firstByKey TokenMovement.bucketKey logs).map TokenMovement.bucketKey ++ t.bucketKey :: ks := by
  have new : t.bucketKey ∉ logs.map TokenMovement.bucketKey := fun known => lone ((hasLog_iff _).mpr known)
  rw [bucketKeys_eq, unmatched_front t rest foreign, unseen,
    List.filter_cons_of_pos (by simpa using new), firstByKey, List.map_cons]
  exact ⟨_, rfl⟩

theorem bucketOf_front (m : TokenMovement) (rest : List TokenMovement) :
    bucketOf (m :: rest) m.bucketKey = m :: bucketOf rest m.bucketKey :=
  List.filter_cons_of_pos (by simp)

section
variable (sources : DistinctSources logs traces)
include sources

theorem leads_of_split (t t' : TokenMovement) (rest : List TokenMovement)
    (front : unmatched logs traces = t :: rest) (unpaired : ¬ PairedOff logs traces t.bucketKey)
    (before after : List BucketKey) (split : bucketKeys logs traces = before ++ t.bucketKey :: after)
    (member' : t' ∈ unmatched logs traces) (elsewhere : t'.bucketKey ∉ before)
    (tied : place t = place t') : Leads t.movementId t'.movementId (pairedRecords logs traces) := by
  have rows : pairedRecords logs traces = _ := congrArg (List.flatMap fun bucket =>
    pairBucket (bucketOf (indexedRecords logs traces) bucket)) split
  rw [List.flatMap_append, List.flatMap_cons, pairBucket_unpaired sources _ unpaired, front,
    bucketOf_front, List.append_assoc, ← List.append_assoc, List.cons_append] at rows
  have inTraces (u : TokenMovement) (member : u ∈ unmatched logs traces) : u ∈ traces :=
    (List.mem_filter.mp member).1
  refine ⟨_, t, _, rows, rfl, fun early => ?_, fun n late same => ?_⟩
  · obtain ⟨m, inside, same⟩ := List.mem_map.mp early
    rcases List.mem_append.mp inside with left | right
    · have row : m ∈ pairedRecords logs traces := rows ▸ List.mem_append_left _ inside
      obtain ⟨bucket, listed, here⟩ := List.mem_flatMap.mp left
      have own := bucketKey_of_mem_pairBucket bucket m here
      rw [row_trace sources m t' row member' same] at own
      exact elsewhere (own ▸ listed)
    · obtain ⟨l, inLogs, rfl⟩ := List.mem_map.mp right
      have known : t'.movementId ∈ ids logs := by
        rw [← same, logRecord, absorbAll_movementId]
        exact mem_ids logs l ((mem_bucketOf _ _ _).mp inLogs).1
      simpa [known] using (List.mem_filter.mp member').2
  · have row : n ∈ pairedRecords logs traces :=
      rows ▸ List.mem_append_right _ (List.mem_cons_of_mem _ late)
    rw [row_trace sources n t' row member' same]
    refine (sortKey_eq_iff _ _).mpr ⟨tied.symm, ?_⟩
    rw [sources.fromTraces t' (inTraces t' member'),
      sources.fromTraces t (inTraces t (front ▸ List.mem_cons_self))]

theorem leads_trace (t t' : TokenMovement) (unpaired : Unpaired logs traces t)
    (member' : t' ∈ unmatched logs traces) (tied : place t = place t')
    (beside : HasLog logs t.bucketKey ↔ HasLog logs t'.bucketKey) :
    ∃ logs' traces', logs'.Perm logs ∧ traces'.Perm traces ∧
      Leads t.movementId t'.movementId (pairedRecords logs' traces') := by
  obtain ⟨inTraces, foreign⟩ := List.mem_filter.mp unpaired.1
  have foreign : t.movementId ∉ ids logs := by simpa using foreign
  have sameTraces : (t :: traces.erase t).Perm traces := (List.perm_cons_erase inTraces).symm
  have whole (logs' : List TokenMovement) (sameLogs : logs'.Perm logs) (before after : List BucketKey)
      (split : bucketKeys logs' (t :: traces.erase t) = before ++ t.bucketKey :: after)
      (elsewhere : t'.bucketKey ∉ before) : Leads t.movementId t'.movementId
        (pairedRecords logs' (t :: traces.erase t)) := by
    have foreign : t.movementId ∉ ids logs' := fun known =>
      foreign ((sameLogs.map TokenMovement.movementId).mem_iff.mp known)
    exact leads_of_split (sources.perm sameLogs sameTraces) t t' _ (unmatched_front t _ foreign)
      (fun paired => unpaired.2 ((pairedOff_perm sameLogs sameTraces _).mp paired)) before after split
      ((unmatched_perm sameLogs sameTraces).mem_iff.mpr member') elsewhere tied
  by_cases has : HasLog logs t.bucketKey
  · obtain ⟨l, inLogs, same⟩ := has
    have sameLogs : (l :: logs.erase l).Perm logs := (List.perm_cons_erase inLogs).symm
    obtain ⟨after, split⟩ := bucketKeys_front (t :: traces.erase t) l (logs.erase l)
    exact ⟨_, _, sameLogs, sameTraces,
      whole _ sameLogs [] after (same ▸ split) List.not_mem_nil⟩
  · obtain ⟨after, split⟩ := bucketKeys_front_trace t (traces.erase t) foreign has
    refine ⟨logs, _, List.Perm.refl _, sameTraces,
      whole logs (List.Perm.refl _) _ after split fun listed => has (beside.mpr ?_)⟩
    exact (hasLog_iff _).mpr ((mem_keys_firstByKey _ _ _).mp listed)

theorem leads_log (l l' : TokenMovement) (member : l ∈ logs) (member' : l' ∈ logs)
    (tied : place l = place l') :
    ∃ logs' traces', logs'.Perm logs ∧ traces'.Perm traces ∧
      Leads l.movementId l'.movementId (pairedRecords logs' traces') := by
  have sameLogs : (l :: logs.erase l).Perm logs := (List.perm_cons_erase member).symm
  have sources' := sources.perm sameLogs (List.Perm.refl traces)
  refine ⟨_, traces, sameLogs, List.Perm.refl _, ?_⟩
  obtain ⟨ks, split⟩ := bucketKeys_front traces l (logs.erase l)
  obtain ⟨m, later, rows, same⟩ : ∃ m later,
      pairedRecords (l :: logs.erase l) traces = m :: later ∧ m.movementId = l.movementId := by
    rw [pairedRecords, split, List.flatMap_cons]
    by_cases paired : PairedOff (l :: logs.erase l) traces l.bucketKey
    · rw [pairBucket_paired sources' _ paired]
      rw [PairedOff, bucketOf_front] at paired
      rw [bucketOf_front]
      cases taken : bucketOf (unmatched (l :: logs.erase l) traces) l.bucketKey with
      | nil => simp [taken] at paired
      | cons t rest => exact ⟨_, _, rfl, absorbAll_movementId l _⟩
    · rw [pairBucket_unpaired sources' _ paired, bucketOf_front]
      exact ⟨_, _, rfl, absorbAll_movementId l _⟩
  have row (n : TokenMovement) (inside : n ∈ m :: later) :
      n ∈ pairedRecords (l :: logs.erase l) traces := rows ▸ inside
  refine ⟨[], m, later, rows, same, List.not_mem_nil, fun n inside same' => ?_⟩
  rw [sortKey_row_log sources' n l' (row n (List.mem_cons_of_mem _ inside)) (sameLogs.mem_iff.mpr member')
    same', sortKey_row_log sources' m l (row m List.mem_cons_self) List.mem_cons_self same]
  refine (sortKey_eq_iff _ _).mpr ⟨tied.symm, ?_⟩
  rw [sources.fromLogs l member, sources.fromLogs l' member']

theorem paired_row (l t : TokenMovement) (member : l ∈ logs) (paired : PairedOff logs traces l.bucketKey)
    (inTraces : t ∈ unmatched logs traces) (same : t.bucketKey = l.bucketKey) :
    ∃ logs' traces', logs'.Perm logs ∧ traces'.Perm traces ∧
      absorb (logRecord traces' l) t ∈ pairedRecords logs' traces' := by
  obtain ⟨listed, foreign⟩ := List.mem_filter.mp inTraces
  have sameLogs : (l :: logs.erase l).Perm logs := (List.perm_cons_erase member).symm
  have sameTraces : (t :: traces.erase t).Perm traces := (List.perm_cons_erase listed).symm
  have sources' := sources.perm sameLogs sameTraces
  have foreign : t.movementId ∉ ids (l :: logs.erase l) := fun known => by
    have known := (sameLogs.map TokenMovement.movementId).mem_iff.mp known
    simp [ids, known] at foreign
  refine ⟨_, _, sameLogs, sameTraces, ?_⟩
  obtain ⟨ks, split⟩ := bucketKeys_front (t :: traces.erase t) l (logs.erase l)
  rw [pairedRecords, split, List.flatMap_cons,
    pairBucket_paired sources' _ ((pairedOff_perm sameLogs sameTraces _).mpr paired), bucketOf_front,
    unmatched_front t _ foreign, ← same, bucketOf_front, List.map_cons, List.zipWith_cons_cons]
  exact List.mem_append_left _ List.mem_cons_self

end

/-! ## What independence of the order takes -/

section
variable (sources : DistinctSources logs traces) (independent : OrderIndependent logs traces)
include sources independent

theorem evidence_of_orderIndependent (l t t' : TokenMovement) (member : l ∈ logs)
    (paired : PairedOff logs traces l.bucketKey) (inTraces : t ∈ unmatched logs traces)
    (same : t.bucketKey = l.bucketKey) (inTraces' : t' ∈ unmatched logs traces)
    (same' : t'.bucketKey = l.bucketKey) (ev : String) :
    (Known traces l ev ∨ ev ∈ t.evidenceIds ∧ ev ≠ "") ↔
      (Known traces l ev ∨ ev ∈ t'.evidenceIds ∧ ev ≠ "") := by
  have listed (u : TokenMovement) (inTraces : u ∈ unmatched logs traces) (same : u.bucketKey = l.bucketKey) :
      ∃ row ∈ (unifyMovements logs traces).map outputRecord, row.movementId = l.movementId ∧
        ∀ ev, ev ∈ row.evidence ↔ Known traces l ev ∨ ev ∈ u.evidenceIds ∧ ev ≠ "" := by
    obtain ⟨logs', traces', sameLogs, sameTraces, row⟩ := paired_row sources l u member paired inTraces same
    refine ⟨outputRecord (absorb (logRecord traces' l) u), ?_, absorbAll_movementId l _, fun ev => ?_⟩
    · rw [← independent _ _ sameLogs sameTraces, unifyMovements_eq (sources.perm sameLogs sameTraces)]
      exact List.mem_map_of_mem ((List.mem_insertionSort _).mpr row)
    · rw [outputRecord, List.mem_toFinset, absorb, mem_mergeEvidence, mem_logRecord_evidence,
        known_perm sameTraces]
  have distinct : (((unifyMovements logs traces).map outputRecord).map OutputRecord.movementId).Nodup := by
    rw [List.map_map]
    exact (ids_unifyMovements_perm sources).nodup_iff.mpr (ids_pairedRecords_nodup sources)
  obtain ⟨row, here, idOf, evidence⟩ := listed t inTraces same
  obtain ⟨row', here', idOf', evidence'⟩ := listed t' inTraces' same'
  have equal := List.inj_on_of_nodup_map distinct here here' (idOf.trans idOf'.symm)
  rw [← evidence, ← evidence', equal]

theorem orderFree_of_orderIndependent : OrderFree logs traces where
  evidence l member paired t inTraces same t' inTraces' same' :=
    evidence_of_orderIndependent sources independent l t t' member paired inTraces same inTraces' same'
  logTies l member l' member' differ tied := by
    have apart : l.movementId ≠ l'.movementId := fun same => differ (logs_eq_of_id sources member member' same)
    exact not_tied sources independent apart (leads_log sources l l' member member' tied)
      (leads_log sources l' l member' member tied.symm)
  traceTies t t' unpaired unpaired' differ tied := by
    have inTraces (u : TokenMovement) (unpaired : Unpaired logs traces u) : u ∈ traces :=
      (List.mem_filter.mp unpaired.1).1
    have apart : t.movementId ≠ t'.movementId := fun same =>
      differ (List.inj_on_of_nodup_map sources.distinctTraces (inTraces t unpaired) (inTraces t' unpaired') same)
    by_contra alike
    have beside : HasLog logs t.bucketKey ↔ HasLog logs t'.bucketKey := by tauto
    exact not_tied sources independent apart (leads_trace sources t t' unpaired unpaired'.1 tied beside)
      (leads_trace sources t' t unpaired' unpaired.1 tied.symm beside.symm)

end

/-- The rows do not depend on the order of the inputs exactly when no order can show: the traces of
a bucket that is paired off bring the same evidence, no two logs have one sender in a transaction,
and of two traces that do, when they are not paired off, exactly one moves what a log moves. -/
theorem unify_orderIndependent_iff (sources : DistinctSources logs traces) :
    OrderIndependent logs traces ↔ OrderFree logs traces :=
  ⟨orderFree_of_orderIndependent sources, orderIndependent_of_orderFree sources⟩

theorem distinct_transfers (indices : List Int) (addresses : List (List Int))
    (distinct : (ids (transferLogs indices)).Nodup) (distinctTraces : (ids (transferTraces addresses)).Nodup) :
    DistinctSources (transferLogs indices) (transferTraces addresses) :=
  { built_sources id (indices.map transferLogAt) (addresses.map callAt) distinct with distinctTraces }

theorem orderFree_pair : OrderFree (transferLogs [7]) (transferTraces [[1]]) where
  evidence := by
    intro l _ _ t inside _ t' inside' _ ev
    rw [List.mem_singleton.mp (List.mem_filter.mp inside).1,
      List.mem_singleton.mp (List.mem_filter.mp inside').1]
  logTies := by
    intro l member l' member' apart
    exact absurd ((List.mem_singleton.mp member).trans (List.mem_singleton.mp member').symm) apart
  traceTies := by
    intro t t' unpaired unpaired' apart
    exact absurd ((List.mem_singleton.mp (List.mem_filter.mp unpaired.1).1).trans
      (List.mem_singleton.mp (List.mem_filter.mp unpaired'.1).1).symm) apart

theorem unify_orderIndependent_pair : OrderIndependent (transferLogs [7]) (transferTraces [[1]]) :=
  (unify_orderIndependent_iff (distinct_transfers [7] [[1]] (by decide) (by decide))).mpr orderFree_pair

/-- Two equal transfers, each seen by both sources, come out in the order in which their logs are read. -/
theorem equal_transfers_reorder :
    DistinctSources (transferLogs [7, 8]) (transferTraces [[1], [2]]) ∧
      ¬ OrderIndependent (transferLogs [7, 8]) (transferTraces [[1], [2]]) := by
  refine ⟨distinct_transfers [7, 8] [[1], [2]] (by decide) (by decide), fun independent => ?_⟩
  have swapped : (transferLogs [8, 7]).Perm (transferLogs [7, 8]) := List.Perm.swap _ _ _
  have same := ids_unifyMovements independent swapped (List.Perm.refl _)
  exact absurd same (by decide +kernel)

end EconomicLedger.Movements
