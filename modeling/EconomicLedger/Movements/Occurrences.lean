import EconomicLedger.Movements.Provenance

/-!
# Occurrences that merge

A record that took the evidence of a trace movement in phase one counts as a log record in phase two,
and takes that of another one if its bucket is then paired off.
-/

namespace EconomicLedger.Movements
open Model Text Keyed Fallible

def AtMostOne (inputs out : List TokenMovement) : Prop :=
  ∀ record ∈ out, ∀ m ∈ inputs, ∀ m' ∈ inputs, SharesEvidence record m → SharesEvidence record m' → m = m'

/-- No record has evidence of two inputs of one source, and no bucket has fewer records than inputs of
one source. -/
structure OneEach (logs traces out : List TokenMovement) : Prop where
  oneLog : AtMostOne logs out
  oneTrace : AtMostOne traces out
  logCount : ∀ bucket, (bucketOf logs bucket).length ≤ (bucketOf out bucket).length
  traceCount : ∀ bucket, (bucketOf traces bucket).length ≤ (bucketOf out bucket).length

def matched (logs traces : List TokenMovement) : List TokenMovement :=
  traces.filter fun t => t.movementId ∈ ids logs

/-- Inputs of one source share no evidence, a bucket that is paired off has no part in phase one, and no
bucket has more traces with the identifier of a log than it has logs. -/
structure Separate (logs traces : List TokenMovement) : Prop where
  logEvidence : ∀ l ∈ logs, ∀ l' ∈ logs, SharesEvidence l l' → l = l'
  traceEvidence : ∀ t ∈ traces, ∀ t' ∈ traces, SharesEvidence t t' → t = t'
  pairedLogs : ∀ l ∈ logs, PairedOff logs traces l.bucketKey → l.movementId ∉ ids traces
  pairedTraces : ∀ t ∈ traces, PairedOff logs traces t.bucketKey → t.movementId ∉ ids logs
  matchedCount : ∀ bucket, (bucketOf (matched logs traces) bucket).length ≤ (bucketOf logs bucket).length

variable {logs traces : List TokenMovement}

/-! ## Groups of distinct identifiers -/

section
variable (sources : DistinctSources logs traces)
include sources

theorem freshTraces_eq : freshTraces logs traces = unmatched logs traces :=
  freshTraces_of_nodup sources.distinctTraces

theorem not_shared (t : TokenMovement) (member : t ∈ unmatched logs traces) : shared traces t = false :=
  not_shared_of_nodup sources.distinctTraces t (List.mem_filter.mp member).1

theorem logSide_eq (bucket : BucketKey) : logSide logs traces bucket = bucketOf logs bucket := by
  have none : (bucketOf (unmatched logs traces) bucket).filter (shared traces) = [] :=
    List.filter_eq_nil_iff.mpr fun t member => by simp [not_shared sources t (List.mem_filter.mp member).1]
  rw [logSide, freshTraces_eq sources, none, List.append_nil]

theorem traceSide_eq (bucket : BucketKey) :
    traceSide logs traces bucket = bucketOf (unmatched logs traces) bucket := by
  rw [traceSide, freshTraces_eq sources]
  exact List.filter_eq_self.mpr fun t member => by simp [not_shared sources t (List.mem_filter.mp member).1]

theorem settled_iff_pairedOff (bucket : BucketKey) :
    settled logs traces bucket = true ↔ PairedOff logs traces bucket := by
  rw [settled_iff, logSide_eq sources, traceSide_eq sources, PairedOff]

theorem groupOf_unmatched (t : TokenMovement) (member : t ∈ unmatched logs traces) :
    groupOf traces t = ⟨t, []⟩ := by
  rw [groupOf_fresh sources.toSources t (freshTraces_eq sources ▸ member),
    tracesWith_of_nodup sources.distinctTraces t (List.mem_filter.mp member).1]
  rfl

theorem group_cases (g : Group) (inGroups : g ∈ groups logs traces) :
    (∃ l ∈ logs, ¬ PairedOff logs traces l.bucketKey ∧ g = ⟨l, tracesWith traces l.movementId⟩) ∨
    (∃ t ∈ unmatched logs traces, g = ⟨t, []⟩) ∨
    ∃ l ∈ logs, PairedOff logs traces l.bucketKey ∧
      ∃ t ∈ unmatched logs traces, g = ⟨l, tracesWith traces l.movementId ++ [t]⟩ := by
  rcases (mem_groups sources.toSources g).mp inGroups with ⟨m, first, odd, rfl⟩ | ⟨bucket, even, pair, paired, rfl⟩
  · rcases List.mem_append.mp first with inLogs | fresh
    · refine Or.inl ⟨m, inLogs, fun paired => ?_, groupOf_log sources.toSources m inLogs⟩
      rw [(settled_iff_pairedOff sources _).mpr paired] at odd
      cases odd
    · rw [freshTraces_eq sources] at fresh
      exact Or.inr (Or.inl ⟨m, fresh, groupOf_unmatched sources m fresh⟩)
  · rw [logSide_eq sources, traceSide_eq sources] at paired
    obtain ⟨left, right⟩ := List.of_mem_zip paired
    obtain ⟨inLogs, here⟩ := (mem_bucketOf _ _ _).mp left
    obtain ⟨fresh, -⟩ := (mem_bucketOf _ _ _).mp right
    refine Or.inr (Or.inr ⟨pair.1, inLogs, ?_, pair.2, fresh, ?_⟩)
    · rw [here]
      exact (settled_iff_pairedOff sources _).mp even
    · rw [groupOf_log sources.toSources _ inLogs, groupOf_unmatched sources _ fresh]
      rfl

/-! ## Records of a bucket -/

omit sources in
theorem length_bucketOf (movements : List TokenMovement) (bucket : BucketKey) :
    ((bucketOf movements bucket).length : Int) =
      (movements.map fun m => if m.bucketKey = bucket then 1 else 0).sum := by
  induction movements with
  | nil => rfl
  | cons m rest ih =>
      rw [List.map_cons, List.sum_cons, ← ih, bucketOf, List.filter_cons]
      by_cases here : m.bucketKey = bucket
      · simp only [here, decide_true, if_true, List.length_cons, bucketOf]
        omega
      · simp [here, bucketOf]

theorem length_bucketOf_unifyMovements (bucket : BucketKey) :
    (bucketOf (unifyMovements logs traces) bucket).length = (bucketOf logs bucket).length +
      if settled logs traces bucket then 0 else (bucketOf (unmatched logs traces) bucket).length := by
  have again : bucketOf (recounted logs traces) bucket =
      if settled logs traces bucket then [] else bucketOf (unmatched logs traces) bucket := by
    rw [recounted, bucketOf, List.filter_filter, freshTraces_eq sources]
    cases even : settled logs traces bucket with
    | true =>
        refine List.filter_eq_nil_iff.mpr fun t member => ?_
        by_cases here : t.bucketKey = bucket
        · simp [here, even, not_shared sources t member]
        · simp [here]
    | false =>
        refine List.filter_congr fun t _ => ?_
        by_cases here : t.bucketKey = bucket
        · simp [here, even]
        · simp [here]
  have counted := sum_unifyMovements sources.toSources
    (fun m => if m.bucketKey = bucket then 1 else 0) fun _ _ => rfl
  rw [← length_bucketOf, ← length_bucketOf, ← length_bucketOf, again, apply_ite List.length,
    List.length_nil] at counted
  exact_mod_cast counted

variable (logs) in
omit sources in
theorem length_bucketOf_traces (bucket : BucketKey) : (bucketOf traces bucket).length =
    (bucketOf (matched logs traces) bucket).length + (bucketOf (unmatched logs traces) bucket).length := by
  have split := (List.filter_append_perm (fun t => decide (t.movementId ∈ ids logs)) traces).filter
    (·.bucketKey = bucket)
  rw [List.filter_append] at split
  rw [bucketOf, ← split.length_eq, List.length_append, bucketOf, bucketOf, matched, unmatched]
  simp only [decide_not]

theorem traceCount_iff (bucket : BucketKey) :
    (bucketOf traces bucket).length ≤ (bucketOf (unifyMovements logs traces) bucket).length ↔
      (PairedOff logs traces bucket → bucketOf (matched logs traces) bucket = []) ∧
        (bucketOf (matched logs traces) bucket).length ≤ (bucketOf logs bucket).length := by
  rw [length_bucketOf_unifyMovements sources, length_bucketOf_traces logs,
    ← List.length_eq_zero_iff]
  by_cases paired : PairedOff logs traces bucket
  · have equal := paired
    rw [PairedOff] at equal
    rw [if_pos ((settled_iff_pairedOff sources bucket).mpr paired)]
    simp only [paired, true_implies]
    omega
  · rw [if_neg fun even => paired ((settled_iff_pairedOff sources bucket).mp even)]
    simp only [paired, false_implies, true_and]
    omega

end

/-! ## One of each source -/

theorem SharesEvidence.symm {m n : TokenMovement} (shares : SharesEvidence m n) : SharesEvidence n m := by
  obtain ⟨ev, visible, left, right⟩ := shares
  exact ⟨ev, visible, right, left⟩

theorem exists_record (sources : Sources logs traces) (m : TokenMovement) (input : m ∈ logs ++ traces) :
    ∃ record ∈ unifyMovements logs traces, ∀ n, SharesEvidence m n → SharesEvidence record n := by
  obtain ⟨g, inGroups, member⟩ := List.mem_flatMap.mp ((members_groups sources).mem_iff.mpr input)
  refine ⟨g.record, (unifyMovements_groups sources).mem_iff.mpr (List.mem_map_of_mem inGroups),
    fun n shares => ?_⟩
  exact (sharesEvidence_record g n).mpr ⟨m, member, shares⟩

theorem evidence_of_atMostOne (sources : Sources logs traces) (inputs : List TokenMovement)
    (within : inputs ⊆ logs ++ traces) (one : AtMostOne inputs (unifyMovements logs traces)) :
    ∀ m ∈ inputs, ∀ m' ∈ inputs, SharesEvidence m m' → m = m' := by
  intro m member m' member' shares
  obtain ⟨record, inside, carries⟩ := exists_record sources m (within member)
  refine one record inside m member m' member' (carries m ?_) (carries m' shares)
  obtain ⟨ev, visible, own, -⟩ := shares
  exact ⟨ev, visible, own, own⟩

section
variable (sources : DistinctSources logs traces)
  (apart : ∀ l ∈ logs, ∀ t ∈ traces, ¬ SharesEvidence l t)
include sources apart

theorem logs_of_group (g : Group) (inGroups : g ∈ groups logs traces)
    (logEvidence : ∀ l ∈ logs, ∀ l' ∈ logs, SharesEvidence l l' → l = l') (l : TokenMovement)
    (member : l ∈ logs) (shares : SharesEvidence g.record l) : l = g.kept := by
  obtain ⟨n, inside, common⟩ := (sharesEvidence_record g l).mp shares
  have notTrace : n ∉ traces := fun inTraces => apart l member n inTraces common.symm
  have isKept : n = g.kept := by
    rcases List.mem_cons.mp inside with first | absorbed
    · exact first
    · exfalso
      rcases group_cases sources g inGroups with ⟨l', -, -, rfl⟩ | ⟨t, -, rfl⟩ | ⟨l', -, -, t, fresh, rfl⟩
      · exact notTrace (List.mem_filter.mp absorbed).1
      · cases absorbed
      · rcases List.mem_append.mp absorbed with early | late
        · exact notTrace (List.mem_filter.mp early).1
        · exact notTrace (List.mem_singleton.mp late ▸ (List.mem_filter.mp fresh).1)
  have inLogs : n ∈ logs := by
    have input := (members_groups sources.toSources).subset (List.mem_flatMap.mpr ⟨g, inGroups, inside⟩)
    exact (List.mem_append.mp input).resolve_right notTrace
  rw [logEvidence l member n inLogs common.symm, isKept]

theorem traces_of_group (g : Group) (inGroups : g ∈ groups logs traces)
    (traceEvidence : ∀ t ∈ traces, ∀ t' ∈ traces, SharesEvidence t t' → t = t') (t : TokenMovement)
    (member : t ∈ traces) (shares : SharesEvidence g.record t) : t ∈ g.members := by
  obtain ⟨n, inside, common⟩ := (sharesEvidence_record g t).mp shares
  have input := (members_groups sources.toSources).subset (List.mem_flatMap.mpr ⟨g, inGroups, inside⟩)
  rcases List.mem_append.mp input with inLogs | inTraces
  · exact absurd common (apart n inLogs t member)
  · exact traceEvidence n inTraces t member common ▸ inside

omit apart in
theorem group_oneTrace (pairedLogs : ∀ l ∈ logs, PairedOff logs traces l.bucketKey → l.movementId ∉ ids traces)
    (g : Group) (inGroups : g ∈ groups logs traces) (t t' : TokenMovement) (member : t ∈ traces)
    (member' : t' ∈ traces) (inside : t ∈ g.members) (inside' : t' ∈ g.members) : t = t' := by
  have notLog (l u : TokenMovement) (inLogs : l ∈ logs) (inTraces : u ∈ traces) : u ≠ l := by
    rintro rfl
    have priority := sources.fromLogs u inLogs
    rw [sources.fromTraces u inTraces] at priority
    cases priority
  rcases group_cases sources g inGroups with ⟨l, inLogs, -, rfl⟩ | ⟨u, -, rfl⟩ | ⟨l, inLogs, paired, u, -, rfl⟩
  · -- only the trace with the identifier of the log
    have own (u : TokenMovement) (inTraces : u ∈ traces)
        (absorbed : u ∈ l :: tracesWith traces l.movementId) : u.movementId = l.movementId := by
      have late := (List.mem_cons.mp absorbed).resolve_left (notLog l u inLogs inTraces)
      simpa using (List.mem_filter.mp late).2
    exact List.inj_on_of_nodup_map sources.distinctTraces member member'
      ((own t member inside).trans (own t' member' inside').symm)
  · rw [List.mem_singleton.mp inside, List.mem_singleton.mp inside']
  · -- only the trace it is paired off with
    have none : tracesWith traces l.movementId = [] := by
      refine List.filter_eq_nil_iff.mpr fun u inTraces same => ?_
      exact pairedLogs l inLogs paired (List.mem_map.mpr ⟨u, inTraces, by simpa using same⟩)
    simp only [Group.members, none, List.nil_append] at inside inside'
    have late := (List.mem_cons.mp inside).resolve_left (notLog l t inLogs member)
    have late' := (List.mem_cons.mp inside').resolve_left (notLog l t' inLogs member')
    rw [List.mem_singleton.mp late, List.mem_singleton.mp late']

theorem oneEach_of_separate (separate : Separate logs traces) :
    OneEach logs traces (unifyMovements logs traces) where
  oneLog := by
    intro record inside l member l' member' shares shares'
    obtain ⟨g, inGroups, rfl⟩ := List.mem_map.mp
      ((unifyMovements_groups sources.toSources).subset inside)
    rw [logs_of_group sources apart g inGroups separate.logEvidence l member shares,
      logs_of_group sources apart g inGroups separate.logEvidence l' member' shares']
  oneTrace := by
    intro record inside t member t' member' shares shares'
    obtain ⟨g, inGroups, rfl⟩ := List.mem_map.mp
      ((unifyMovements_groups sources.toSources).subset inside)
    exact group_oneTrace sources separate.pairedLogs g inGroups t t' member member'
      (traces_of_group sources apart g inGroups separate.traceEvidence t member shares)
      (traces_of_group sources apart g inGroups separate.traceEvidence t' member' shares')
  logCount := fun bucket => by
    rw [length_bucketOf_unifyMovements sources]
    exact Nat.le_add_right _ _
  traceCount := fun bucket => by
    refine (traceCount_iff sources bucket).mpr ⟨fun paired => ?_, separate.matchedCount bucket⟩
    refine List.filter_eq_nil_iff.mpr fun t inside here => ?_
    obtain ⟨inTraces, known⟩ := List.mem_filter.mp inside
    have key : t.bucketKey = bucket := by simpa using here
    exact separate.pairedTraces t inTraces (key ▸ paired) (by simpa using known)

omit apart in
theorem separate_of_oneEach (carries : ∀ t ∈ traces, SharesEvidence t t)
    (each : OneEach logs traces (unifyMovements logs traces)) : Separate logs traces where
  logEvidence := evidence_of_atMostOne sources.toSources logs (List.subset_append_left _ _) each.oneLog
  traceEvidence := evidence_of_atMostOne sources.toSources traces (List.subset_append_right _ _) each.oneTrace
  pairedLogs := by
    intro l member paired known
    obtain ⟨t, inTraces, same⟩ := List.mem_map.mp known
    obtain ⟨g, inGroups, isKept⟩ := exists_group_log sources.toSources l member
    rcases group_cases sources g inGroups with ⟨l', -, unpaired, rfl⟩ | ⟨u, fresh, rfl⟩ | ⟨l', -, -, u, fresh, rfl⟩
    · obtain rfl : l' = l := isKept
      exact absurd paired unpaired
    · -- a trace is no log
      have priority := sources.fromLogs l member
      rw [← isKept, sources.fromTraces u (List.mem_filter.mp fresh).1] at priority
      cases priority
    · obtain rfl : l' = l := isKept
      have inside := (unifyMovements_groups sources.toSources).mem_iff.mpr (List.mem_map_of_mem inGroups)
      have early : t ∈ tracesWith traces l'.movementId := List.mem_filter.mpr ⟨inTraces, by simpa using same⟩
      have carriesBoth (n : TokenMovement) (inTraces : n ∈ traces)
          (absorbed : n ∈ tracesWith traces l'.movementId ++ [u]) :=
        (sharesEvidence_record ⟨l', tracesWith traces l'.movementId ++ [u]⟩ n).mpr
          ⟨n, List.mem_cons_of_mem _ absorbed, carries n inTraces⟩
      obtain ⟨inTraces', foreign⟩ := List.mem_filter.mp fresh
      have equal := each.oneTrace _ inside t inTraces u inTraces'
        (carriesBoth t inTraces (List.mem_append_left _ early))
        (carriesBoth u inTraces' (List.mem_append_right _ List.mem_cons_self))
      rw [← equal, same] at foreign
      simp [mem_ids logs l' member] at foreign
  pairedTraces := by
    intro t member paired known
    have none := ((traceCount_iff sources t.bucketKey).mp (each.traceCount t.bucketKey)).1 paired
    have inside : t ∈ bucketOf (matched logs traces) t.bucketKey :=
      (mem_bucketOf _ _ _).mpr ⟨List.mem_filter.mpr ⟨member, by simpa using known⟩, rfl⟩
    rw [none] at inside
    cases inside
  matchedCount := fun bucket => ((traceCount_iff sources bucket).mp (each.traceCount bucket)).2

end

/-- Where equal identifiers mean equal buckets, the condition is about the logs of paired buckets alone. -/
theorem separate_of_alike (sources : DistinctSources logs traces)
    (alike : ∀ l ∈ logs, ∀ t ∈ traces, t.movementId = l.movementId → t.bucketKey = l.bucketKey)
    (logEvidence : ∀ l ∈ logs, ∀ l' ∈ logs, SharesEvidence l l' → l = l')
    (traceEvidence : ∀ t ∈ traces, ∀ t' ∈ traces, SharesEvidence t t' → t = t')
    (pairedLogs : ∀ l ∈ logs, PairedOff logs traces l.bucketKey → l.movementId ∉ ids traces) :
    Separate logs traces where
  logEvidence := logEvidence
  traceEvidence := traceEvidence
  pairedLogs := pairedLogs
  pairedTraces := by
    intro t member paired known
    obtain ⟨l, inLogs, same⟩ := List.mem_map.mp known
    rw [alike l inLogs t member same.symm] at paired
    exact pairedLogs l inLogs paired (List.mem_map.mpr ⟨t, member, same.symm⟩)
  matchedCount := by
    intro bucket
    have distinct : (ids (bucketOf (matched logs traces) bucket)).Nodup :=
      sources.distinctTraces.sublist ((List.filter_sublist.trans List.filter_sublist).map _)
    have within : ids (bucketOf (matched logs traces) bucket) ⊆ ids (bucketOf logs bucket) := by
      intro movementId inside
      obtain ⟨t, here, rfl⟩ := List.mem_map.mp inside
      obtain ⟨isMatched, key⟩ := (mem_bucketOf _ _ _).mp here
      obtain ⟨inTraces, known⟩ := List.mem_filter.mp isMatched
      obtain ⟨l, inLogs, same⟩ := List.mem_map.mp (of_decide_eq_true known)
      refine List.mem_map.mpr ⟨l, (mem_bucketOf _ _ _).mpr ⟨inLogs, ?_⟩, same⟩
      rw [← alike l inLogs t inTraces same.symm, key]
    simpa only [ids, List.length_map] using (List.subperm_of_subset distinct within).length_le

/-! ## Built movements -/

variable {sha256 : Digest}

/-- One record for each occurrence of a source, exactly when phase two pairs off no bucket that phase one
has merged a part of. -/
theorem occurrences_separate_iff (events : List DecodedEvent) (calls : List TraceTokenCall)
    (builtLogs : buildMovementsFromTransferLogs sha256 events = .ok logs)
    (builtTraces : buildMovementsFromTraceCalls sha256 calls = .ok traces)
    (distinctLogs : (ids logs).Nodup) (distinctTraces : (ids traces).Nodup)
    (rawIds : ∀ call ∈ calls, call.rawTraceCallId ≠ "" ∧
      ∀ ev ∈ events, ev.rawLogId ≠ call.rawTraceCallId) :
    OneEach logs traces (unifyMovements logs traces) ↔ Separate logs traces := by
  obtain ⟨-, rfl⟩ := (buildMovementsFromTransferLogs_eq_ok_iff sha256 events logs).mp builtLogs
  obtain ⟨-, rfl⟩ := (buildMovementsFromTraceCalls_eq_ok_iff sha256 calls traces).mp builtTraces
  have sources : DistinctSources ((events.filter (·.isTransfer)).map (builtLog sha256))
      (calls.map (builtTrace sha256)) :=
    { built_sources sha256 _ calls distinctLogs with distinctTraces := distinctTraces }
  refine ⟨separate_of_oneEach sources fun t member => ?_, oneEach_of_separate sources ?_⟩
  · obtain ⟨call, inside, rfl⟩ := List.mem_map.mp member
    exact ⟨call.rawTraceCallId, (rawIds call inside).1, List.mem_cons_self, List.mem_cons_self⟩
  · intro l inLogs t inTraces
    obtain ⟨ev, inEvents, rfl⟩ := List.mem_map.mp inLogs
    obtain ⟨call, inside, rfl⟩ := List.mem_map.mp inTraces
    rintro ⟨id, -, left, right⟩
    have same := (List.mem_singleton.mp left).symm.trans (List.mem_singleton.mp right)
    exact (rawIds call inside).2 ev (List.mem_filter.mp inEvents).1 same

theorem separate_apart : Separate (transferLogs [7, 8]) (transferTraces [[1], [2]]) where
  logEvidence := by
    have own : ∀ l ∈ transferLogs [7, 8], ∀ l' ∈ transferLogs [7, 8],
        ∀ ev ∈ l.evidenceIds, ev ∈ l'.evidenceIds → l = l' := by decide +kernel
    rintro l member l' member' ⟨ev, -, inside, inside'⟩
    exact own l member l' member' ev inside inside'
  traceEvidence := by
    have own : ∀ t ∈ transferTraces [[1], [2]], ∀ t' ∈ transferTraces [[1], [2]],
        ∀ ev ∈ t.evidenceIds, ev ∈ t'.evidenceIds → t = t' := by decide +kernel
    rintro t member t' member' ⟨ev, -, inside, inside'⟩
    exact own t member t' member' ev inside inside'
  pairedLogs := fun l member _ => foreign_apart.1 l member
  pairedTraces := fun t member _ => foreign_apart.2 t member
  matchedCount := by
    have none : matched (transferLogs [7, 8]) (transferTraces [[1], [2]]) = [] :=
      List.filter_eq_nil_iff.mpr fun t member => by simpa using foreign_apart.2 t member
    intro bucket
    rw [none]
    exact Nat.zero_le _

theorem occurrences_separate_apart :
    OneEach (transferLogs [7, 8]) (transferTraces [[1], [2]])
      (unifyMovements (transferLogs [7, 8]) (transferTraces [[1], [2]])) :=
  (occurrences_separate_iff ([7, 8].map transferLogAt) ([[1], [2]].map callAt)
    (build_transferLogs [7, 8]) (build_transferTraces [[1], [2]] (by decide)) (by decide) (by decide)
    (rawIds_transfers [7, 8] [[1], [2]])).mpr separate_apart

/-- The log takes the call with its identifier in phase one, and the other call in phase two: one record
for two calls. -/
theorem two_calls_merge :
    (∃ events calls, buildMovementsFromTransferLogs id events = .ok (transferLogs [1]) ∧
      buildMovementsFromTraceCalls id calls = .ok (transferTraces [[1], [2]]) ∧
      ∀ call ∈ calls, call.rawTraceCallId ≠ "" ∧ ∀ ev ∈ events, ev.rawLogId ≠ call.rawTraceCallId) ∧
    (ids (transferLogs [1])).Nodup ∧ (ids (transferTraces [[1], [2]])).Nodup ∧
    (unifyMovements (transferLogs [1]) (transferTraces [[1], [2]])).map TokenMovement.evidenceIds =
      [[computeRawLogId id (rawLogAt 1), computeRawTraceCallId id "0xab" [1],
        computeRawTraceCallId id "0xab" [2]]] ∧
    ¬ OneEach (transferLogs [1]) (transferTraces [[1], [2]])
      (unifyMovements (transferLogs [1]) (transferTraces [[1], [2]])) := by
  refine ⟨⟨[1].map transferLogAt, [[1], [2]].map callAt, build_transferLogs [1],
    build_transferTraces [[1], [2]] (by decide), rawIds_transfers [1] [[1], [2]]⟩, by decide, by decide,
    by decide +kernel, fun each => ?_⟩
  exact absurd (each.traceCount ("0xab", "0xaa", "0xbb", 5)) (by decide +kernel)

end EconomicLedger.Movements
