import EconomicLedger.Movements.Provenance

/-!
# Evidence is conserved

The evidence ids of the output are those of the inputs, each in one record. The record moves what its
inputs move, since equal identifiers and equal buckets both say so.
-/

namespace EconomicLedger.Movements
open Model Text Keyed Fallible

/-- Every evidence id of the inputs is in one record, and every log movement keeps its identifier. -/
structure Conserved (logs traces out : List TokenMovement) : Prop where
  once : ∀ ev ∈ evidenceOf (logs ++ traces), out.countP (fun record => ev ∈ record.evidenceIds) = 1
  survive : ∀ l ∈ logs, l.movementId ∈ ids out
  distinct : (ids out).Nodup

/-- The record that carries evidence of an input moves what the input moves. -/
def SameMovement (logs traces out : List TokenMovement) : Prop :=
  ∀ m ∈ logs ++ traces, ∀ record ∈ out, ∀ ev ∈ m.evidenceIds, ev ∈ record.evidenceIds →
    record.txHash = m.txHash ∧ record.fromAddr = m.fromAddr ∧ record.toAddr = m.toAddr ∧
      record.amount = m.amount

variable {logs traces : List TokenMovement}

/-! ## Each id once -/

section
variable (sources : Sources logs traces) (distinct : (evidenceOf (logs ++ traces)).Nodup)
  (visible : "" ∉ evidenceOf (logs ++ traces))
include sources distinct visible

theorem group_evidence (g : Group) (member : g ∈ groups logs traces) :
    g.record.evidenceIds = evidenceOf g.members := by
  have whole : (evidenceOf ((groups logs traces).flatMap Group.members)).Perm
      (evidenceOf (logs ++ traces)) := (members_groups sources).flatMap_right _
  have part : (evidenceOf g.members).Sublist (evidenceOf ((groups logs traces).flatMap Group.members)) := by
    rw [List.flatMap_def]
    exact (List.sublist_flatten_of_mem (List.mem_map_of_mem member)).flatMap _
  refine record_evidence g ((whole.nodup_iff.mpr distinct).sublist part) fun inside => ?_
  exact visible (whole.subset (part.subset inside))

theorem evidence_unifyMovements :
    (evidenceOf (unifyMovements logs traces)).Perm (evidenceOf (logs ++ traces)) := by
  refine ((unifyMovements_groups sources).flatMap_right _).trans ?_
  rw [List.flatMap_map, List.flatMap_congr fun g member => group_evidence sources distinct visible g member]
  unfold evidenceOf
  rw [← List.flatMap_assoc]
  exact (members_groups sources).flatMap_right _

theorem evidence_once (ev : String) (member : ev ∈ evidenceOf (logs ++ traces)) :
    (unifyMovements logs traces).countP (fun record => ev ∈ record.evidenceIds) = 1 := by
  have whole := evidence_unifyMovements sources distinct visible
  exact countP_of_nodup_flatMap TokenMovement.evidenceIds (whole.nodup_iff.mpr distinct)
    (whole.mem_iff.mpr member)

theorem member_of_evidence (g : Group) (inGroups : g ∈ groups logs traces) (m : TokenMovement)
    (input : m ∈ logs ++ traces) (ev : String) (own : ev ∈ m.evidenceIds)
    (carried : ev ∈ g.record.evidenceIds) : m ∈ g.members := by
  rw [group_evidence sources distinct visible g inGroups] at carried
  obtain ⟨n, member, inside⟩ := List.mem_flatMap.mp carried
  have input' : n ∈ logs ++ traces :=
    (members_groups sources).subset (List.mem_flatMap.mpr ⟨g, inGroups, member⟩)
  exact eq_of_nodup_flatMap _ distinct input input' own inside ▸ member

end

/-! ## What the members of a group move -/

section
variable (sources : Sources logs traces)
  (alike : ∀ m ∈ logs ++ traces, ∀ t ∈ traces, t.movementId = m.movementId → t.bucketKey = m.bucketKey)
include sources alike

theorem groupOf_bucketKey (m : TokenMovement) (first : m ∈ keptFirst logs traces) (n : TokenMovement)
    (member : n ∈ (groupOf traces m).members) : n.bucketKey = m.bucketKey := by
  rcases (mem_groupOf sources m first n).mp member with rfl | absorbed
  · rfl
  · obtain ⟨inTraces, same⟩ := List.mem_filter.mp absorbed
    exact alike m (keptFirst_subset first) n inTraces (by simpa using same)

theorem group_bucketKey (g : Group) (inGroups : g ∈ groups logs traces) (n : TokenMovement)
    (member : n ∈ g.members) : n.bucketKey = g.kept.bucketKey := by
  rcases (mem_groups sources g).mp inGroups with ⟨m, first, -, rfl⟩ | ⟨bucket, -, pair, paired, rfl⟩
  · exact groupOf_bucketKey sources alike m first n member
  · obtain ⟨inLogs, inTraces⟩ := List.of_mem_zip paired
    obtain ⟨left, leftKey⟩ := mem_sides bucket pair.1 (List.mem_append_left _ inLogs)
    obtain ⟨right, rightKey⟩ := mem_sides bucket pair.2 (List.mem_append_right _ inTraces)
    rw [Group.members_join] at member
    rcases List.mem_append.mp member with inside | inside
    · exact groupOf_bucketKey sources alike pair.1 left n inside
    · rw [groupOf_bucketKey sources alike pair.2 right n inside, rightKey]
      exact leftKey.symm

end

/-! ## Equal identifiers -/

variable {sha256 : Digest}

theorem bucketKey_of_movementId (injective : Function.Injective sha256) (ev : DecodedEvent)
    (call : TraceTokenCall) (freeFrom : BarFree (builtLog sha256 ev).fromAddr)
    (freeTo : BarFree (builtLog sha256 ev).toAddr) (freeFrom' : BarFree (builtTrace sha256 call).fromAddr)
    (freeTo' : BarFree (builtTrace sha256 call).toAddr)
    (same : (builtTrace sha256 call).movementId = (builtLog sha256 ev).movementId) :
    (builtTrace sha256 call).bucketKey = (builtLog sha256 ev).bucketKey := by
  obtain ⟨stem, -⟩ := (computeMovementId_inj injective _ _ _ _ _ _ _ _ _ _ _ _).mp same
  obtain ⟨-, hash, sender, recipient, amount⟩ :=
    (joinBar_movementStem_inj _ _ _ _ _ _ _ _ _ _ freeFrom' freeFrom freeTo' freeTo).mp stem
  have traceFrom : lower (builtTrace sha256 call).fromAddr = (builtTrace sha256 call).fromAddr := lower_lower _
  have traceTo : lower (builtTrace sha256 call).toAddr = (builtTrace sha256 call).toAddr := lower_lower _
  have logFrom : lower (builtLog sha256 ev).fromAddr = (builtLog sha256 ev).fromAddr := lower_lower _
  have logTo : lower (builtLog sha256 ev).toAddr = (builtLog sha256 ev).toAddr := lower_lower _
  rw [traceFrom, logFrom] at sender
  rw [traceTo, logTo] at recipient
  simp only [TokenMovement.bucketKey, Prod.mk.injEq]
  exact ⟨hash, sender, recipient, amount⟩

theorem alike_built (injective : Function.Injective sha256) (events : List DecodedEvent)
    (calls : List TraceTokenCall) (distinctTraces : (ids (calls.map (builtTrace sha256))).Nodup)
    (addresses : ∀ m ∈ events.map (builtLog sha256) ++ calls.map (builtTrace sha256),
      BarFree m.fromAddr ∧ BarFree m.toAddr) :
    ∀ m ∈ events.map (builtLog sha256) ++ calls.map (builtTrace sha256),
      ∀ t ∈ calls.map (builtTrace sha256), t.movementId = m.movementId → t.bucketKey = m.bucketKey := by
  intro m input t inTraces same
  obtain ⟨freeFrom, freeTo⟩ := addresses m input
  obtain ⟨freeFrom', freeTo'⟩ := addresses t (List.mem_append_right _ inTraces)
  rcases List.mem_append.mp input with inLogs | inTraces'
  · obtain ⟨ev, -, rfl⟩ := List.mem_map.mp inLogs
    obtain ⟨call, -, rfl⟩ := List.mem_map.mp inTraces
    exact bucketKey_of_movementId injective ev call freeFrom freeTo freeFrom' freeTo' same
  · rw [List.inj_on_of_nodup_map distinctTraces inTraces inTraces' same]

/-- Unification neither drops nor duplicates evidence, whatever the two phases merge, nor does it move
evidence to a record of another movement. An address is hex text, which has no bar. -/
theorem evidence_conserved (injective : Function.Injective sha256) (events : List DecodedEvent)
    (calls : List TraceTokenCall) (builtLogs : buildMovementsFromTransferLogs sha256 events = .ok logs)
    (builtTraces : buildMovementsFromTraceCalls sha256 calls = .ok traces)
    (distinctLogs : (ids logs).Nodup) (distinctTraces : (ids traces).Nodup)
    (distinctEvidence : (evidenceOf (logs ++ traces)).Nodup) (visible : "" ∉ evidenceOf (logs ++ traces)) :
    Conserved logs traces (unifyMovements logs traces) ∧
      ((∀ m ∈ logs ++ traces, BarFree m.fromAddr ∧ BarFree m.toAddr) →
        SameMovement logs traces (unifyMovements logs traces)) := by
  obtain ⟨-, rfl⟩ := (buildMovementsFromTransferLogs_eq_ok_iff sha256 events logs).mp builtLogs
  obtain ⟨-, rfl⟩ := (buildMovementsFromTraceCalls_eq_ok_iff sha256 calls traces).mp builtTraces
  have sources := built_sources sha256 (events.filter (·.isTransfer)) calls distinctLogs
  have whole := unifyMovements_groups sources
  refine ⟨⟨evidence_once sources distinctEvidence visible, fun l member => ?_, ?_⟩,
    fun addresses m input record inside ev own carried => ?_⟩
  · obtain ⟨g, inGroups, rfl⟩ := exists_group_log sources l member
    exact (whole.map _).mem_iff.mpr (List.mem_map.mpr
      ⟨g.record, List.mem_map_of_mem inGroups, g.record_movementId⟩)
  · have rows : DistinctSources _ _ := ⟨sources, distinctTraces⟩
    rw [unifyMovements_eq rows]
    exact ((List.perm_insertionSort _ _).map _).nodup_iff.mpr (ids_pairedRecords_nodup rows)
  · obtain ⟨g, inGroups, rfl⟩ := List.mem_map.mp (whole.subset inside)
    have alike := alike_built injective _ calls distinctTraces addresses
    have member := member_of_evidence sources distinctEvidence visible g inGroups m input ev own carried
    have key := group_bucketKey sources alike g inGroups m member
    rw [← Group.record_bucketKey] at key
    simp only [TokenMovement.bucketKey, Prod.mk.injEq] at key
    exact ⟨key.1.symm, key.2.1.symm, key.2.2.1.symm, key.2.2.2.symm⟩

theorem evidence_conserved_coincidence :
    Conserved (transferLogs [0, 1]) (transferTraces [[1], [2]])
        (unifyMovements (transferLogs [0, 1]) (transferTraces [[1], [2]])) ∧
      SameMovement (transferLogs [0, 1]) (transferTraces [[1], [2]])
        (unifyMovements (transferLogs [0, 1]) (transferTraces [[1], [2]])) :=
  have conserved := evidence_conserved Function.injective_id ([0, 1].map transferLogAt)
    ([[1], [2]].map callAt) (build_transferLogs [0, 1]) (build_transferTraces [[1], [2]] (by decide))
    (by decide) (by decide) (by decide +kernel) (by decide +kernel)
  ⟨conserved.1, conserved.2 (by decide +kernel)⟩

end EconomicLedger.Movements
