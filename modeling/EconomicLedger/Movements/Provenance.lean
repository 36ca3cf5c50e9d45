import EconomicLedger.Movements.RowOrder

/-!
# Where the evidence of a record comes from

Every record of the output is an input that absorbed others: those with its identifier in phase one,
and a trace movement that it was paired off with in phase two. The inputs are divided among the
records.
-/

namespace EconomicLedger.Movements
open Model Keyed

/-! ## Absorption is associative -/

def addEvidence (merged : List String) (ev : String) : List String :=
  if ev ≠ "" ∧ ev ∉ merged then merged ++ [ev] else merged

theorem mergeEvidence_cons (kept : List String) (ev : String) (added : List String) :
    mergeEvidence kept (ev :: added) = mergeEvidence (addEvidence kept ev) added := rfl

theorem mergeEvidence_concat (kept added : List String) (ev : String) :
    mergeEvidence kept (added ++ [ev]) = addEvidence (mergeEvidence kept added) ev := by
  rw [mergeEvidence, List.foldl_append]
  rfl

theorem mergeEvidence_addEvidence (kept added : List String) (ev : String) :
    mergeEvidence kept (addEvidence added ev) = addEvidence (mergeEvidence kept added) ev := by
  by_cases new : ev ≠ "" ∧ ev ∉ added
  · rw [addEvidence, if_pos new, mergeEvidence_concat]
  · rw [addEvidence, if_neg new, addEvidence, if_neg]
    rintro ⟨visible, outside⟩
    have inside : ev ∈ added := by
      by_contra absent
      exact new ⟨visible, absent⟩
    exact outside ((mem_mergeEvidence _ _ _).mpr (Or.inr ⟨inside, visible⟩))

theorem mergeEvidence_assoc (first second third : List String) :
    mergeEvidence (mergeEvidence first second) third =
      mergeEvidence first (mergeEvidence second third) := by
  induction third generalizing second with
  | nil => rfl
  | cons ev rest ih => rw [mergeEvidence_cons, mergeEvidence_cons, ← ih, mergeEvidence_addEvidence]

instance : Std.Associative absorb :=
  ⟨fun l m n => by simp only [absorb, mergeEvidence_assoc]⟩

theorem mergeEvidence_eq (kept added : List String) (distinct : (kept ++ added).Nodup)
    (visible : "" ∉ added) : mergeEvidence kept added = kept ++ added := by
  induction added generalizing kept with
  | nil => rw [List.append_nil]; rfl
  | cons ev rest ih =>
      have shifted : kept ++ ev :: rest = (kept ++ [ev]) ++ rest := by simp
      have fresh : ev ∉ kept := fun inside =>
        (List.nodup_append'.mp distinct).2.2 inside List.mem_cons_self
      have new : ev ≠ "" ∧ ev ∉ kept := ⟨fun blank => visible (blank ▸ List.mem_cons_self), fresh⟩
      rw [mergeEvidence_cons, addEvidence, if_pos new, shifted]
      exact ih _ (shifted ▸ distinct) fun inside => visible (List.mem_cons_of_mem _ inside)

/-! ## Groups -/

/-- A movement and those it absorbs, in order. -/
structure Group where
  kept : TokenMovement
  absorbed : List TokenMovement

namespace Group

def record (g : Group) : TokenMovement := absorbAll g.kept g.absorbed

def members (g : Group) : List TokenMovement := g.kept :: g.absorbed

def join (g g' : Group) : Group := ⟨g.kept, g.absorbed ++ g'.members⟩

theorem record_join (g g' : Group) : (g.join g').record = absorb g.record g'.record := by
  simp only [record, join, members, absorbAll, List.foldl_append, List.foldl_cons]
  exact List.foldl_assoc

theorem members_join (g g' : Group) : (g.join g').members = g.members ++ g'.members := rfl

@[simp] theorem record_bucketKey (g : Group) : g.record.bucketKey = g.kept.bucketKey :=
  absorbAll_bucketKey _ _

@[simp] theorem record_movementId (g : Group) : g.record.movementId = g.kept.movementId :=
  absorbAll_movementId _ _

end Group

/-- An evidence id that both movements carry; a blank is none. -/
def SharesEvidence (m n : TokenMovement) : Prop :=
  ∃ ev, ev ≠ "" ∧ ev ∈ m.evidenceIds ∧ ev ∈ n.evidenceIds

theorem sharesEvidence_record (g : Group) (m : TokenMovement) :
    SharesEvidence g.record m ↔ ∃ n ∈ g.members, SharesEvidence n m := by
  simp only [SharesEvidence, Group.record, Group.members, mem_absorbAll_evidence,
    List.exists_mem_cons_iff]
  constructor
  · rintro ⟨ev, visible, own | ⟨n, absorbed, carried, -⟩, inside⟩
    · exact Or.inl ⟨ev, visible, own, inside⟩
    · exact Or.inr ⟨n, absorbed, ev, visible, carried, inside⟩
  · rintro (⟨ev, visible, own, inside⟩ | ⟨n, absorbed, ev, visible, carried, inside⟩)
    · exact ⟨ev, visible, Or.inl own, inside⟩
    · exact ⟨ev, visible, Or.inr ⟨n, absorbed, carried, visible⟩, inside⟩

def evidenceOf (movements : List TokenMovement) : List String :=
  movements.flatMap TokenMovement.evidenceIds

theorem record_evidence (g : Group) (distinct : (evidenceOf g.members).Nodup)
    (visible : "" ∉ evidenceOf g.members) : g.record.evidenceIds = evidenceOf g.members := by
  obtain ⟨kept, absorbed⟩ := g
  simp only [Group.record, Group.members] at *
  induction absorbed generalizing kept with
  | nil => simp [absorbAll, evidenceOf]
  | cons t rest ih =>
      simp only [evidenceOf, List.flatMap_cons, List.mem_append, not_or] at distinct visible
      have merged : (absorb kept t).evidenceIds = kept.evidenceIds ++ t.evidenceIds :=
        mergeEvidence_eq _ _ (distinct.sublist (by simp)) visible.2.1
      have spread : evidenceOf (absorb kept t :: rest) = evidenceOf (kept :: t :: rest) := by
        simp [evidenceOf, merged]
      rw [absorbAll, List.foldl_cons, ← absorbAll, ← spread]
      refine ih (absorb kept t) ?_ ?_
      · rw [spread]
        exact distinct
      · rw [spread]
        simpa [evidenceOf] using visible

/-! ## The groups of the two phases -/

section
variable (logs traces : List TokenMovement)

/-- What a record of phase one absorbs: a log movement the traces with its identifier, a trace movement
the others with it. -/
def groupOf (m : TokenMovement) : Group :=
  ⟨m, match m.sourcePriority with
    | .log => tracesWith traces m.movementId
    | .trace => (tracesWith traces m.movementId).tail⟩

def keptFirst : List TokenMovement := logs ++ freshTraces logs traces

/-- A bucket's records that pass for log records in phase two. -/
def logSide (bucket : BucketKey) : List TokenMovement :=
  bucketOf logs bucket ++ (bucketOf (freshTraces logs traces) bucket).filter (shared traces)

def traceSide (bucket : BucketKey) : List TokenMovement :=
  (bucketOf (freshTraces logs traces) bucket).filter (!shared traces ·)

def groupsIn (bucket : BucketKey) : List Group :=
  if settled logs traces bucket then
    List.zipWith Group.join ((logSide logs traces bucket).map (groupOf traces))
      ((traceSide logs traces bucket).map (groupOf traces))
  else (bucketOf (keptFirst logs traces) bucket).map (groupOf traces)

def groups : List Group :=
  (Dict.groupBy TokenMovement.bucketKey (indexById logs traces).values).keys.flatMap (groupsIn logs traces)

end

variable {logs traces : List TokenMovement}

theorem settled_iff (bucket : BucketKey) : settled logs traces bucket = true ↔
    (logSide logs traces bucket).length = (traceSide logs traces bucket).length := by
  simp [settled, logSide, traceSide]

section
variable (sources : Sources logs traces)
include sources

theorem groupOf_log (l : TokenMovement) (member : l ∈ logs) :
    groupOf traces l = ⟨l, tracesWith traces l.movementId⟩ := by
  simp [groupOf, sources.fromLogs l member]

theorem groupOf_fresh (t : TokenMovement) (member : t ∈ freshTraces logs traces) :
    groupOf traces t = ⟨t, (tracesWith traces t.movementId).tail⟩ := by
  simp [groupOf, sources.fromTraces t (freshTraces_sublist.subset member)]

theorem mem_groupOf (m : TokenMovement) (first : m ∈ keptFirst logs traces) (n : TokenMovement) :
    n ∈ (groupOf traces m).members ↔ n = m ∨ n ∈ tracesWith traces m.movementId := by
  rcases List.mem_append.mp first with inLogs | fresh
  · rw [groupOf_log sources m inLogs]
    exact List.mem_cons
  · obtain ⟨rest, heads⟩ := tracesWith_fresh logs traces m fresh
    rw [groupOf_fresh sources m fresh, Group.members, heads, List.tail_cons, List.mem_cons]
    tauto

theorem values_eq_records : (indexById logs traces).values =
    (keptFirst logs traces).map fun m => (groupOf traces m).record := by
  rw [values_indexById _ _ sources.distinct, keptFirst, List.map_append]
  congr 1
  · exact List.map_congr_left fun l member => by rw [groupOf_log sources l member]; rfl
  · exact List.map_congr_left fun t member => by rw [groupOf_fresh sources t member]; rfl

theorem record_sourcePriority_log (l : TokenMovement) (member : l ∈ logs) :
    (groupOf traces l).record.sourcePriority = .log := by
  rw [groupOf_log sources l member]
  exact logRecord_sourcePriority sources l member

theorem record_sourcePriority_fresh (t : TokenMovement) (member : t ∈ freshTraces logs traces) :
    (groupOf traces t).record.sourcePriority = if shared traces t then .log else .trace := by
  rw [groupOf_fresh sources t member]
  exact traceRecord_sourcePriority sources t member

theorem bucketOf_records (bucket : BucketKey) : bucketOf (indexById logs traces).values bucket =
    (bucketOf (keptFirst logs traces) bucket).map fun m => (groupOf traces m).record := by
  rw [values_eq_records sources, bucketOf_map _ fun m => (groupOf traces m).record_bucketKey]

/-! ## Phase two -/

theorem filter_log_records (bucket : BucketKey) :
    (bucketOf (indexById logs traces).values bucket).filter (·.sourcePriority = .log) =
      (logSide logs traces bucket).map fun m => (groupOf traces m).record := by
  have fromLogs : ∀ l ∈ bucketOf logs bucket, (groupOf traces l).record.sourcePriority = .log :=
    fun l member => record_sourcePriority_log sources l (List.mem_filter.mp member).1
  rw [bucketOf_records sources, keptFirst, bucketOf_append, List.filter_map, List.filter_append,
    List.filter_eq_self.mpr fun l member => by simp [fromLogs l member], logSide]
  congr 2
  apply List.filter_congr
  intro t member
  rw [Function.comp_apply, record_sourcePriority_fresh sources t (List.mem_filter.mp member).1]
  cases shared traces t <;> rfl

theorem filter_trace_records (bucket : BucketKey) :
    (bucketOf (indexById logs traces).values bucket).filter (·.sourcePriority = .trace) =
      (traceSide logs traces bucket).map fun m => (groupOf traces m).record := by
  have fromLogs : ∀ l ∈ bucketOf logs bucket, (groupOf traces l).record.sourcePriority = .log :=
    fun l member => record_sourcePriority_log sources l (List.mem_filter.mp member).1
  rw [bucketOf_records sources, keptFirst, bucketOf_append, List.filter_map, List.filter_append,
    List.filter_eq_nil_iff.mpr fun l member => by simp [fromLogs l member], List.nil_append, traceSide]
  congr 1
  apply List.filter_congr
  intro t member
  rw [Function.comp_apply, record_sourcePriority_fresh sources t (List.mem_filter.mp member).1]
  cases shared traces t <;> rfl

omit sources in
theorem sides_perm (bucket : BucketKey) : (logSide logs traces bucket ++ traceSide logs traces bucket).Perm
    (bucketOf (keptFirst logs traces) bucket) := by
  rw [logSide, traceSide, keptFirst, bucketOf_append, List.append_assoc]
  exact (List.filter_append_perm _ _).append_left _

omit sources in
theorem keptFirst_subset : keptFirst logs traces ⊆ logs ++ traces :=
  (List.Sublist.append_left freshTraces_sublist logs).subset

omit sources in
theorem mem_sides (bucket : BucketKey) (m : TokenMovement)
    (inside : m ∈ logSide logs traces bucket ++ traceSide logs traces bucket) :
    m ∈ keptFirst logs traces ∧ m.bucketKey = bucket :=
  (mem_bucketOf _ _ _).mp ((sides_perm bucket).subset inside)

theorem pairBucket_records (bucket : BucketKey) :
    pairBucket (bucketOf (indexById logs traces).values bucket) =
      (groupsIn logs traces bucket).map Group.record := by
  unfold pairBucket groupsIn
  rw [filter_log_records sources, filter_trace_records sources]
  simp only [List.length_map, ne_eq, List.map_eq_nil_iff]
  by_cases even : settled logs traces bucket
  · have equal := (settled_iff bucket).mp even
    rw [if_pos even]
    split_ifs with paired
    · rw [List.map_zipWith, List.zipWith_map, List.zipWith_map]
      simp only [Group.record_join]
    · -- one side is empty, so both are
      have noLogs : logSide logs traces bucket = [] := by
        by_contra nonempty
        refine paired ⟨nonempty, fun none => nonempty ?_, equal⟩
        rw [none] at equal
        exact List.length_eq_zero_iff.mp equal
      have noTraces : traceSide logs traces bucket = [] := by
        rw [noLogs] at equal
        exact List.length_eq_zero_iff.mp equal.symm
      have whole : (bucketOf (keptFirst logs traces) bucket).Perm
          (logSide logs traces bucket ++ traceSide logs traces bucket) := (sides_perm bucket).symm
      rw [noLogs, noTraces] at whole
      rw [bucketOf_records sources, whole.eq_nil, noLogs]
      rfl
  · rw [if_neg even, if_neg fun paired => even ((settled_iff bucket).mpr paired.2.2),
      bucketOf_records sources, List.map_map]
    rfl

theorem unifyMovements_groups :
    (unifyMovements logs traces).Perm ((groups logs traces).map Group.record) := by
  refine (unifyMovements_perm logs traces).trans ?_
  simp only [pairBucket_records sources, groups, List.map_flatMap]
  exact List.Perm.refl _

/-! ## The inputs are divided among the groups -/

omit sources in
theorem members_zipWith_join (gs gs' : List Group) (equal : gs.length = gs'.length) :
    ((List.zipWith Group.join gs gs').flatMap Group.members).Perm
      (gs.flatMap Group.members ++ gs'.flatMap Group.members) := by
  induction gs generalizing gs' with
  | nil =>
      rw [List.length_eq_zero_iff.mp equal.symm]
      exact List.Perm.refl _
  | cons g gs ih =>
      cases gs' with
      | nil => cases equal
      | cons g' gs' =>
          simp only [List.zipWith_cons_cons, List.flatMap_cons, Group.members_join, List.append_assoc]
          refine List.Perm.append_left _ (((ih gs' (Nat.succ.inj equal)).append_left _).trans ?_)
          rw [← List.append_assoc, ← List.append_assoc]
          exact List.perm_append_comm.append_right _

omit sources in
theorem members_groupsIn (bucket : BucketKey) : ((groupsIn logs traces bucket).flatMap Group.members).Perm
    (((bucketOf (keptFirst logs traces) bucket).map (groupOf traces)).flatMap Group.members) := by
  unfold groupsIn
  split_ifs with even
  · have equal := (settled_iff bucket).mp even
    refine (members_zipWith_join _ _ (by simpa using equal)).trans ?_
    rw [← List.flatMap_append, ← List.map_append]
    exact ((sides_perm bucket).map _).flatMap_right _
  · exact List.Perm.refl _

theorem ids_keptFirst_nodup : (ids (keptFirst logs traces)).Nodup := by
  rw [ids, keptFirst, List.map_append, List.nodup_append']
  refine ⟨sources.distinct, firstByKey_nodup _ _, fun movementId inLogs inTraces => ?_⟩
  obtain ⟨t, member, rfl⟩ := List.mem_map.mp inTraces
  exact freshTraces_foreign logs traces t member inLogs

variable (logs) in
omit sources in
theorem mem_ids_keptFirst (t : TokenMovement) (member : t ∈ traces) :
    t.movementId ∈ ids (keptFirst logs traces) := by
  rw [ids, keptFirst, List.map_append, List.mem_append]
  by_cases known : t.movementId ∈ ids logs
  · exact Or.inl known
  · refine Or.inr ((mem_keys_firstByKey _ _ _).mpr (List.mem_map_of_mem ?_))
    exact List.mem_filter.mpr ⟨member, by simpa using known⟩

theorem members_keptFirst : (((keptFirst logs traces).map (groupOf traces)).flatMap Group.members).Perm
    (logs ++ traces) := by
  have logMembers : (logs.map (groupOf traces)).flatMap Group.members =
      logs.flatMap fun l => [l] ++ tracesWith traces l.movementId := by
    rw [List.flatMap_map]
    exact List.flatMap_congr fun l member => by rw [groupOf_log sources l member]; rfl
  have freshMembers : ((freshTraces logs traces).map (groupOf traces)).flatMap Group.members =
      (freshTraces logs traces).flatMap fun t => tracesWith traces t.movementId := by
    rw [List.flatMap_map]
    refine List.flatMap_congr fun t member => ?_
    obtain ⟨rest, heads⟩ := tracesWith_fresh logs traces t member
    rw [groupOf_fresh sources t member, Group.members, heads, List.tail_cons]
  have byId : ((ids (keptFirst logs traces)).flatMap (tracesWith traces)).Perm traces :=
    perm_flatMap_filter TokenMovement.movementId _ (ids_keptFirst_nodup sources) traces
      (mem_ids_keptFirst logs)
  rw [keptFirst, List.map_append, List.flatMap_append, logMembers, freshMembers]
  refine ((List.flatMap_append_perm logs _ _).symm.append_right _).trans ?_
  rw [List.append_assoc, List.flatMap_singleton']
  refine List.Perm.append_left _ ?_
  rw [ids, keptFirst, List.map_append, List.flatMap_append, List.flatMap_map, List.flatMap_map] at byId
  exact byId

theorem mem_recordKeys (m : TokenMovement) (member : m ∈ keptFirst logs traces) :
    m.bucketKey ∈ (Dict.groupBy TokenMovement.bucketKey (indexById logs traces).values).keys := by
  rw [Dict.mem_keys_groupBy, values_eq_records sources, List.map_map, List.mem_map]
  exact ⟨m, member, Group.record_bucketKey _⟩

theorem members_groups : ((groups logs traces).flatMap Group.members).Perm (logs ++ traces) := by
  refine List.Perm.trans ?_ (members_keptFirst sources)
  rw [groups, List.flatMap_assoc]
  refine (List.Perm.flatMap_left _ fun bucket _ => members_groupsIn bucket).trans ?_
  simp only [List.flatMap_map]
  rw [← List.flatMap_assoc]
  exact List.Perm.flatMap_right _
    (perm_flatMap_filter TokenMovement.bucketKey _ (Dict.keys_nodup _) _ (mem_recordKeys sources))

/-- Every group is a movement of a bucket that is not paired off and what it absorbed in phase one, or
one of a paired bucket with the trace movement in its place on the other side. -/
theorem mem_groups (g : Group) : g ∈ groups logs traces ↔
    (∃ m ∈ keptFirst logs traces, settled logs traces m.bucketKey = false ∧ g = groupOf traces m) ∨
    ∃ bucket, settled logs traces bucket = true ∧
      ∃ pair ∈ (logSide logs traces bucket).zip (traceSide logs traces bucket),
        g = (groupOf traces pair.1).join (groupOf traces pair.2) := by
  have paired (bucket : BucketKey) :
      List.zipWith Group.join ((logSide logs traces bucket).map (groupOf traces))
          ((traceSide logs traces bucket).map (groupOf traces)) =
        ((logSide logs traces bucket).zip (traceSide logs traces bucket)).map fun pair =>
          (groupOf traces pair.1).join (groupOf traces pair.2) := by
    rw [List.zipWith_map, List.map_zip_eq_zipWith]
    rfl
  simp only [groups, List.mem_flatMap, groupsIn, paired]
  constructor
  · rintro ⟨bucket, -, inside⟩
    split_ifs at inside with even
    · obtain ⟨pair, member, rfl⟩ := List.mem_map.mp inside
      exact Or.inr ⟨bucket, even, pair, member, rfl⟩
    · obtain ⟨m, member, rfl⟩ := List.mem_map.mp inside
      obtain ⟨inputs, rfl⟩ := (mem_bucketOf _ _ _).mp member
      exact Or.inl ⟨m, inputs, by simpa using even, rfl⟩
  · rintro (⟨m, member, odd, rfl⟩ | ⟨bucket, even, pair, member, rfl⟩)
    · refine ⟨m.bucketKey, mem_recordKeys sources m member, ?_⟩
      rw [odd, if_neg Bool.false_ne_true]
      exact List.mem_map_of_mem ((mem_bucketOf _ _ _).mpr ⟨member, rfl⟩)
    · obtain ⟨inputs, here⟩ := mem_sides bucket pair.1
        (List.mem_append_left _ (List.of_mem_zip member).1)
      refine ⟨bucket, here ▸ mem_recordKeys sources pair.1 inputs, ?_⟩
      rw [if_pos even]
      exact List.mem_map_of_mem member

theorem exists_group_logSide (bucket : BucketKey) (even : settled logs traces bucket = true)
    (m : TokenMovement) (left : m ∈ logSide logs traces bucket) :
    ∃ g ∈ groups logs traces, g.kept = m ∧ (groupOf traces m).members ⊆ g.members := by
  rw [← List.map_fst_zip ((settled_iff bucket).mp even).le] at left
  obtain ⟨pair, paired, rfl⟩ := List.mem_map.mp left
  exact ⟨_, (mem_groups sources _).mpr (Or.inr ⟨bucket, even, pair, paired, rfl⟩), rfl,
    List.subset_append_left _ _⟩

theorem exists_group_log (l : TokenMovement) (member : l ∈ logs) :
    ∃ g ∈ groups logs traces, g.kept = l := by
  cases even : settled logs traces l.bucketKey with
  | false =>
      exact ⟨groupOf traces l, (mem_groups sources _).mpr
        (Or.inl ⟨l, List.mem_append_left _ member, even, rfl⟩), rfl⟩
  | true =>
      obtain ⟨g, inGroups, isKept, -⟩ := exists_group_logSide sources _ even l
        (List.mem_append_left _ ((mem_bucketOf _ _ _).mpr ⟨member, rfl⟩))
      exact ⟨g, inGroups, isKept⟩

theorem exists_group (m : TokenMovement) (first : m ∈ keptFirst logs traces) :
    ∃ g ∈ groups logs traces, (groupOf traces m).members ⊆ g.members := by
  cases even : settled logs traces m.bucketKey with
  | false =>
      exact ⟨groupOf traces m, (mem_groups sources _).mpr (Or.inl ⟨m, first, even, rfl⟩), fun _ => id⟩
  | true =>
      have here := (sides_perm m.bucketKey).mem_iff.mpr ((mem_bucketOf _ _ _).mpr ⟨first, rfl⟩)
      rcases List.mem_append.mp here with left | right
      · obtain ⟨g, inGroups, -, part⟩ := exists_group_logSide sources _ even m left
        exact ⟨g, inGroups, part⟩
      · rw [← List.map_snd_zip ((settled_iff m.bucketKey).mp even).ge] at right
        obtain ⟨pair, paired, rfl⟩ := List.mem_map.mp right
        exact ⟨_, (mem_groups sources _).mpr (Or.inr ⟨_, even, pair, paired, rfl⟩),
          List.subset_append_right (groupOf traces pair.1).members _⟩

/-! ## The identifiers of the records -/

omit sources in
theorem kept_groupsIn (bucket : BucketKey) : (groupsIn logs traces bucket).map Group.kept =
    if settled logs traces bucket then logSide logs traces bucket
    else bucketOf (keptFirst logs traces) bucket := by
  have own (movements : List TokenMovement) :
      (movements.map (groupOf traces)).map Group.kept = movements := by
    rw [List.map_map]
    exact List.map_id _
  unfold groupsIn
  split_ifs with even
  · have equal := (settled_iff bucket).mp even
    rw [map_zipWith_left Group.join Group.kept Group.kept _ _ (fun _ _ _ _ => rfl) (by simpa using equal),
      own]
  · exact own _

omit sources in
theorem kept_groupsIn_subperm (bucket : BucketKey) :
    ((groupsIn logs traces bucket).map Group.kept).Subperm (bucketOf (keptFirst logs traces) bucket) := by
  rw [kept_groupsIn]
  split_ifs
  · exact ((List.sublist_append_left _ _).subperm).trans (sides_perm bucket).subperm
  · exact List.Subperm.refl _

theorem ids_groups_nodup : ((groups logs traces).map fun g => g.kept.movementId).Nodup := by
  have distinct := ids_keptFirst_nodup sources
  rw [groups, List.map_flatMap]
  refine nodup_flatMap_of_key id _ (by simpa using Dict.keys_nodup _) ?_ ?_
  · intro bucket _
    have inBucket : (ids (bucketOf (keptFirst logs traces) bucket)).Nodup :=
      distinct.sublist (List.filter_sublist.map _)
    have inKept : ((groupsIn logs traces bucket).map Group.kept).Subperm
        (bucketOf (keptFirst logs traces) bucket) := kept_groupsIn_subperm bucket
    obtain ⟨part, reordered, sub⟩ := inKept
    have ofPart := (reordered.map TokenMovement.movementId).nodup_iff.mp (inBucket.sublist (sub.map _))
    rwa [List.map_map] at ofPart
  · -- a kept movement is in one bucket
    intro bucket _ bucket' _ movementId here there
    obtain ⟨g, inGroups, rfl⟩ := List.mem_map.mp here
    obtain ⟨g', inGroups', same⟩ := List.mem_map.mp there
    obtain ⟨first, own⟩ := (mem_bucketOf _ _ _).mp
      ((kept_groupsIn_subperm bucket).subset (List.mem_map_of_mem inGroups))
    obtain ⟨first', own'⟩ := (mem_bucketOf _ _ _).mp
      ((kept_groupsIn_subperm bucket').subset (List.mem_map_of_mem inGroups'))
    rw [id, id, ← own, ← own', List.inj_on_of_nodup_map distinct first' first same]

theorem ids_unifyMovements_nodup : (ids (unifyMovements logs traces)).Nodup := by
  refine ((unifyMovements_groups sources).map _).nodup_iff.mpr ?_
  rw [List.map_map]
  have kept : TokenMovement.movementId ∘ Group.record = fun g => g.kept.movementId :=
    funext fun g => g.record_movementId
  rw [kept]
  exact ids_groups_nodup sources

omit sources in
/-- Without traces nothing is absorbed. -/
theorem mem_logs_of_unifyMovements (sources : Sources logs []) (m : TokenMovement)
    (member : m ∈ unifyMovements logs []) : m ∈ logs := by
  obtain ⟨g, inGroups, rfl⟩ := List.mem_map.mp ((unifyMovements_groups sources).mem_iff.mp member)
  rcases (mem_groups sources g).mp inGroups with ⟨l, first, -, rfl⟩ | ⟨bucket, -, pair, paired, -⟩
  · have inLogs : l ∈ logs := (List.append_nil logs) ▸ first
    rw [groupOf_log sources l inLogs]
    exact inLogs
  · have noTraces : traceSide logs [] bucket = [] := rfl
    rw [noTraces, List.zip_nil_right] at paired
    cases paired

end

end EconomicLedger.Movements
