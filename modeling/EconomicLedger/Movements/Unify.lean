import EconomicLedger.Model.Movements
import Mathlib.Algebra.BigOperators.Group.List.Basic

/-!
# The two phases of unification

Phase one keeps one record for every identifier: the log movement, or else the first trace movement
with it. Phase two absorbs the trace records of a bucket that has as many of them as of log
records. What is left is the log movements and the trace movements that are counted again.
-/

namespace EconomicLedger.Movements
open Model Keyed

/-! ## Absorption -/

def absorbAll (m : TokenMovement) (others : List TokenMovement) : TokenMovement :=
  others.foldl absorb m

theorem absorbAll_frame {α : Type*} (f : TokenMovement → α) (frame : ∀ m t, f (absorb m t) = f m)
    (m : TokenMovement) (others : List TokenMovement) : f (absorbAll m others) = f m := by
  induction others generalizing m with
  | nil => rfl
  | cons t rest ih => exact (ih (absorb m t)).trans (frame m t)

@[simp] theorem absorbAll_movementId (m : TokenMovement) (others : List TokenMovement) :
    (absorbAll m others).movementId = m.movementId := absorbAll_frame _ (fun _ _ => rfl) m others

@[simp] theorem absorbAll_bucketKey (m : TokenMovement) (others : List TokenMovement) :
    (absorbAll m others).bucketKey = m.bucketKey := absorbAll_frame _ (fun _ _ => rfl) m others

theorem mem_mergeEvidence (kept added : List String) (ev : String) :
    ev ∈ mergeEvidence kept added ↔ ev ∈ kept ∨ ev ∈ added ∧ ev ≠ "" := by
  unfold mergeEvidence
  induction added generalizing kept with
  | nil => simp
  | cons first rest ih =>
      rw [List.foldl_cons, ih]
      split_ifs with new
      · by_cases same : ev = first
        · simp [same, new.1]
        · simp [same]
      · by_cases same : ev = first
        · subst same
          by_cases blank : ev = ""
          · simp [blank]
          · have inside : ev ∈ kept := by
              by_contra outside
              exact new ⟨blank, outside⟩
            simp [inside]
        · simp [same]

theorem mem_absorbAll_evidence (m : TokenMovement) (others : List TokenMovement) (ev : String) :
    ev ∈ (absorbAll m others).evidenceIds ↔
      ev ∈ m.evidenceIds ∨ ∃ t ∈ others, ev ∈ t.evidenceIds ∧ ev ≠ "" := by
  induction others generalizing m with
  | nil => simp [absorbAll]
  | cons t rest ih =>
      rw [absorbAll, List.foldl_cons, ← absorbAll, ih, absorb, mem_mergeEvidence]
      simp only [List.exists_mem_cons_iff, or_assoc]

theorem absorbAll_sourcePriority (m : TokenMovement) (others : List TokenMovement) :
    (absorbAll m others).sourcePriority = if others = [] then m.sourcePriority else .log := by
  induction others generalizing m with
  | nil => rfl
  | cons t rest ih =>
      rw [absorbAll, List.foldl_cons, ← absorbAll, ih]
      by_cases last : rest = [] <;> simp [last, absorb]

/-! ## Phase one -/

variable (logs traces : List TokenMovement)

def ids (movements : List TokenMovement) : List String := movements.map TokenMovement.movementId

def tracesWith (movementId : String) : List TokenMovement :=
  traces.filter (·.movementId = movementId)

def freshTraces : List TokenMovement :=
  firstByKey TokenMovement.movementId (traces.filter fun t => t.movementId ∉ ids logs)

def logRecord (log : TokenMovement) : TokenMovement := absorbAll log (tracesWith traces log.movementId)

def traceRecord (t : TokenMovement) : TokenMovement :=
  absorbAll t (tracesWith traces t.movementId).tail

def mergeStep (existing : Option TokenMovement) (t : TokenMovement) : TokenMovement :=
  match existing with
  | some existing => absorb existing t
  | none => t

theorem indexById_eq :
    indexById logs traces = Dict.gather TokenMovement.movementId mergeStep
      (Dict.gather TokenMovement.movementId (fun _ m => m) Dict.empty logs) traces := rfl

theorem foldl_mergeStep (m : TokenMovement) (others : List TokenMovement) :
    others.foldl (fun o t => some (mergeStep o t)) (some m) = some (absorbAll m others) := by
  induction others generalizing m with
  | nil => rfl
  | cons t rest ih => exact ih (absorb m t)

theorem freshTraces_foreign (t : TokenMovement) (member : t ∈ freshTraces logs traces) :
    t.movementId ∉ ids logs := by
  simpa using (List.mem_filter.mp ((firstByKey_sublist _ _).subset member)).2

theorem tracesWith_fresh (t : TokenMovement) (member : t ∈ freshTraces logs traces) :
    ∃ rest, tracesWith traces t.movementId = t :: rest := by
  rw [freshTraces, firstByKey_filter TokenMovement.movementId fun k => decide (k ∉ ids logs)] at member
  exact filter_of_mem_firstByKey _ _ _ (List.mem_filter.mp member).1

theorem values_indexById (distinct : (ids logs).Nodup) :
    (indexById logs traces).values =
      logs.map (logRecord traces) ++ (freshTraces logs traces).map (traceRecord traces) := by
  have logKeys : (Dict.gather TokenMovement.movementId (fun _ m => m) Dict.empty logs).keys =
      ids logs := by
    rw [Dict.keys_gather]
    simp [firstByKey_of_nodup TokenMovement.movementId logs distinct, ids]
  have keys : (indexById logs traces).keys =
      ids logs ++ ids (freshTraces logs traces) := by
    rw [indexById_eq, Dict.keys_gather, logKeys]
    rfl
  have lookup (movementId : String) : (indexById logs traces).get? movementId =
      (tracesWith traces movementId).foldl (fun o t => some (mergeStep o t))
        ((logs.filter (·.movementId = movementId)).foldl (fun _ m => some m) none) := by
    rw [indexById_eq, Dict.get?_gather, Dict.get?_gather, Dict.get?_empty]
    rfl
  apply List.map_injective_iff.mpr (Option.some_injective _)
  rw [Dict.values_eq, keys, List.map_append, List.map_append, ids, ids, List.map_map, List.map_map,
    List.map_map, List.map_map]
  congr 1
  · apply List.map_congr_left
    intro log member
    have alone := filter_key TokenMovement.movementId distinct member
    simp only [Function.comp_apply, lookup, alone]
    exact foldl_mergeStep log _
  · apply List.map_congr_left
    intro t member
    have fresh := freshTraces_foreign logs traces t member
    have noLog : logs.filter (·.movementId = t.movementId) = [] := by
      rw [List.filter_eq_nil_iff]
      intro log inside same
      exact fresh (List.mem_map.mpr ⟨log, inside, by simpa using same⟩)
    obtain ⟨rest, heads⟩ := tracesWith_fresh logs traces t member
    simp only [Function.comp_apply, lookup, noLog, heads, List.foldl_nil, List.foldl_cons,
      traceRecord, List.tail_cons]
    exact foldl_mergeStep t rest

/-! ## Phase two -/

def bucketOf (movements : List TokenMovement) (bucket : BucketKey) : List TokenMovement :=
  movements.filter (·.bucketKey = bucket)

def balanced (entries : List TokenMovement) : Bool :=
  (entries.filter (·.sourcePriority = .log)).length =
    (entries.filter (·.sourcePriority = .trace)).length

theorem log_or_trace (m : TokenMovement) :
    decide (m.sourcePriority = .trace) = !decide (m.sourcePriority = .log) := by
  cases m.sourcePriority <;> rfl

theorem pairBucket_append (ls ts : List TokenMovement) (fromLogs : ∀ l ∈ ls, l.sourcePriority = .log)
    (fromTraces : ∀ t ∈ ts, t.sourcePriority = .trace) :
    pairBucket (ls ++ ts) = if ls.length = ts.length then List.zipWith absorb ls ts else ls ++ ts := by
  have logSide : (ls ++ ts).filter (·.sourcePriority = .log) = ls := by
    rw [List.filter_append, List.filter_eq_self.mpr fun l member => by simp [fromLogs l member],
      List.filter_eq_nil_iff.mpr fun t member => by simp [fromTraces t member], List.append_nil]
  have traceSide : (ls ++ ts).filter (·.sourcePriority = .trace) = ts := by
    rw [List.filter_append, List.filter_eq_nil_iff.mpr fun l member => by simp [fromLogs l member],
      List.filter_eq_self.mpr fun t member => by simp [fromTraces t member], List.nil_append]
  simp only [pairBucket, logSide, traceSide]
  by_cases even : ls.length = ts.length
  · rw [if_pos even]
    split_ifs with paired
    · rfl
    · -- the bucket is empty
      have empty : ls = [] := by
        by_contra nonempty
        refine paired ⟨nonempty, fun none => nonempty ?_, even⟩
        rw [none] at even
        exact List.length_eq_zero_iff.mp even
      rw [empty, List.length_nil] at even
      rw [empty, List.length_eq_zero_iff.mp even.symm]
      rfl
  · rw [if_neg even, if_neg fun paired => even paired.2.2]

theorem map_zipWith_left {α β γ δ : Type*} (f : α → β → γ) (c : γ → δ) (g : α → δ) (ls : List α)
    (ts : List β) (agree : ∀ l ∈ ls, ∀ t ∈ ts, c (f l t) = g l) (same : ls.length = ts.length) :
    (List.zipWith f ls ts).map c = ls.map g := by
  induction ls generalizing ts with
  | nil => rfl
  | cons l ls ih =>
      cases ts with
      | nil => simp at same
      | cons t ts =>
          rw [List.zipWith_cons_cons, List.map_cons, List.map_cons,
            agree l List.mem_cons_self t List.mem_cons_self]
          congr 1
          refine ih ts (fun l inside t there => ?_) (by simpa using same)
          exact agree l (List.mem_cons_of_mem _ inside) t (List.mem_cons_of_mem _ there)

theorem sum_pairBucket (c : TokenMovement → Int) (frame : ∀ m t, c (absorb m t) = c m)
    (entries : List TokenMovement) :
    ((pairBucket entries).map c).sum =
      ((entries.filter fun m => m.sourcePriority = .log || !balanced entries).map c).sum := by
  unfold pairBucket
  cases even : balanced entries with
  | false =>
      have unequal : (entries.filter (·.sourcePriority = .log)).length ≠
          (entries.filter (·.sourcePriority = .trace)).length := by simpa [balanced] using even
      rw [if_neg fun paired => unequal paired.2.2]
      simp
  | true =>
      -- a balanced bucket leaves one record for each log
      have equal : (entries.filter (·.sourcePriority = .log)).length =
          (entries.filter (·.sourcePriority = .trace)).length := by simpa [balanced] using even
      simp only [Bool.not_true, Bool.or_false]
      split_ifs with paired
      · rw [map_zipWith_left absorb c c _ _ (fun l _ t _ => frame l t) equal]
      · -- one side is empty, so both are, and a record is on one side or the other
        have noTraces : entries.filter (·.sourcePriority = .trace) = [] := by
          by_contra traces
          refine paired ⟨fun logs => traces ?_, traces, equal⟩
          rw [logs] at equal
          exact List.length_eq_zero_iff.mp equal.symm
        rw [List.filter_eq_self.mpr]
        intro m member
        have notTrace := List.filter_eq_nil_iff.mp noTraces m member
        rw [log_or_trace] at notTrace
        simpa using notTrace

/-! ## The output as a whole -/

theorem unifyMovements_perm (logs traces : List TokenMovement) :
    (unifyMovements logs traces).Perm
      ((Dict.groupBy TokenMovement.bucketKey (indexById logs traces).values).keys.flatMap fun bucket =>
        pairBucket (bucketOf (indexById logs traces).values bucket)) := by
  simp only [unifyMovements, Dict.values_groupBy, List.flatMap_map]
  exact List.perm_insertionSort _ _

/-- What is left of the records: the log records, and everything in a bucket that is not balanced. -/
def kept (records : List TokenMovement) (m : TokenMovement) : Bool :=
  m.sourcePriority = .log || !balanced (bucketOf records m.bucketKey)

theorem sum_unifyMovements_records (c : TokenMovement → Int) (frame : ∀ m t, c (absorb m t) = c m)
    (logs traces : List TokenMovement) :
    ((unifyMovements logs traces).map c).sum =
      (((indexById logs traces).values.filter (kept (indexById logs traces).values)).map c).sum := by
  rw [((unifyMovements_perm logs traces).map c).sum_eq]
  generalize (indexById logs traces).values = records
  have whole := perm_flatMap_filter TokenMovement.bucketKey
    (Dict.groupBy TokenMovement.bucketKey records).keys (Dict.keys_nodup _)
    (records.filter (kept records)) fun m member =>
      (Dict.mem_keys_groupBy _ _ _).mpr (List.mem_map_of_mem (List.mem_filter.mp member).1)
  rw [← (whole.map c).sum_eq, List.map_flatMap, List.map_flatMap, List.flatMap_def,
    List.flatMap_def, List.sum_flatten, List.sum_flatten, List.map_map, List.map_map]
  congr 1
  apply List.map_congr_left
  intro bucket _
  rw [Function.comp_apply, Function.comp_apply, sum_pairBucket c frame, List.filter_filter, bucketOf,
    List.filter_filter]
  congr 2
  apply List.filter_congr
  intro m _
  by_cases here : m.bucketKey = bucket
  · simp [here, kept, bucketOf]
  · simp [here]

/-! ## What is counted beside the logs -/

/-- Log movements under distinct identifiers, beside trace movements. -/
structure Sources (logs traces : List TokenMovement) : Prop where
  distinct : (ids logs).Nodup
  fromLogs : ∀ m ∈ logs, m.sourcePriority = .log
  fromTraces : ∀ m ∈ traces, m.sourcePriority = .trace

/-- Another trace movement has the identifier of this one. -/
def shared (traces : List TokenMovement) (t : TokenMovement) : Bool :=
  2 ≤ (tracesWith traces t.movementId).length

/-- Phase two pairs off the unshared fresh traces of the bucket, all of them. A shared one passes for
a log record by then. -/
def settled (logs traces : List TokenMovement) (bucket : BucketKey) : Bool :=
  (bucketOf logs bucket).length + ((bucketOf (freshTraces logs traces) bucket).filter (shared traces)).length =
    ((bucketOf (freshTraces logs traces) bucket).filter (!shared traces ·)).length

/-- The trace movements that stay in the output as records of their own. -/
def recounted (logs traces : List TokenMovement) : List TokenMovement :=
  (freshTraces logs traces).filter fun t => shared traces t || !settled logs traces t.bucketKey

variable {logs traces : List TokenMovement}

theorem freshTraces_sublist : (freshTraces logs traces).Sublist traces :=
  (firstByKey_sublist _ _).trans List.filter_sublist

theorem logRecord_sourcePriority (sources : Sources logs traces) (m : TokenMovement) (member : m ∈ logs) :
    (logRecord traces m).sourcePriority = .log := by
  rw [logRecord, absorbAll_sourcePriority, sources.fromLogs m member, ite_self]

theorem traceRecord_sourcePriority (sources : Sources logs traces) (t : TokenMovement)
    (member : t ∈ freshTraces logs traces) :
    (traceRecord traces t).sourcePriority = if shared traces t then .log else .trace := by
  rw [traceRecord, absorbAll_sourcePriority,
    sources.fromTraces t (freshTraces_sublist.subset member)]
  cases others : tracesWith traces t.movementId with
  | nil => simp [shared, others]
  | cons first rest =>
      cases rest with
      | nil => simp [shared, others]
      | cons second rest => simp [shared, others]

theorem bucketOf_append (ms ms' : List TokenMovement) (bucket : BucketKey) :
    bucketOf (ms ++ ms') bucket = bucketOf ms bucket ++ bucketOf ms' bucket := List.filter_append _ _

theorem bucketOf_map (f : TokenMovement → TokenMovement) (frame : ∀ m, (f m).bucketKey = m.bucketKey)
    (ms : List TokenMovement) (bucket : BucketKey) : bucketOf (ms.map f) bucket = (bucketOf ms bucket).map f := by
  rw [bucketOf, List.filter_map, bucketOf]
  congr 1
  exact List.filter_congr fun m _ => by simp [frame]

theorem bucketOf_values (distinct : (ids logs).Nodup) (bucket : BucketKey) :
    bucketOf (indexById logs traces).values bucket =
      (bucketOf logs bucket).map (logRecord traces) ++
        (bucketOf (freshTraces logs traces) bucket).map (traceRecord traces) := by
  rw [values_indexById _ _ distinct, bucketOf_append,
    bucketOf_map (logRecord traces) fun m => absorbAll_bucketKey m _,
    bucketOf_map (traceRecord traces) fun t => absorbAll_bucketKey t _]

theorem balanced_values (sources : Sources logs traces) (bucket : BucketKey) :
    balanced (bucketOf (indexById logs traces).values bucket) = settled logs traces bucket := by
  have fromLogs : ∀ m ∈ bucketOf logs bucket, (logRecord traces m).sourcePriority = .log :=
    fun m member => logRecord_sourcePriority sources m (List.mem_filter.mp member).1
  have fromTraces : ∀ t ∈ bucketOf (freshTraces logs traces) bucket,
      (traceRecord traces t).sourcePriority = if shared traces t then .log else .trace :=
    fun t member => traceRecord_sourcePriority sources t (List.mem_filter.mp member).1
  have logSide : (((bucketOf logs bucket).map (logRecord traces)).filter (·.sourcePriority = .log)).length =
      (bucketOf logs bucket).length := by
    rw [List.filter_eq_self.mpr, List.length_map]
    simpa using fromLogs
  have logSide' : ((bucketOf logs bucket).map (logRecord traces)).filter (·.sourcePriority = .trace) = [] := by
    rw [List.filter_eq_nil_iff]
    intro m member
    obtain ⟨m, inside, rfl⟩ := List.mem_map.mp member
    simp [fromLogs m inside]
  have traceSide (p : SourcePriority) (q : TokenMovement → Bool)
      (same : ∀ t, decide ((if shared traces t then SourcePriority.log else .trace) = p) = q t) :
      (((bucketOf (freshTraces logs traces) bucket).map (traceRecord traces)).filter
        (·.sourcePriority = p)).length = ((bucketOf (freshTraces logs traces) bucket).filter q).length := by
    rw [List.filter_map, List.length_map]
    congr 1
    apply List.filter_congr
    intro t member
    rw [Function.comp_apply, fromTraces t member, same t]
  unfold balanced settled
  rw [bucketOf_values sources.distinct, List.filter_append, List.filter_append, List.length_append,
    List.length_append, logSide, logSide', List.length_nil, Nat.zero_add,
    traceSide .log (shared traces) fun t => by cases shared traces t <;> rfl,
    traceSide .trace (!shared traces ·) fun t => by cases shared traces t <;> rfl]

/-- Whatever absorption leaves alone adds up to the logs' share and that of the recounted traces. -/
theorem sum_unifyMovements (sources : Sources logs traces) (c : TokenMovement → Int)
    (frame : ∀ m t, c (absorb m t) = c m) :
    ((unifyMovements logs traces).map c).sum =
      (logs.map c).sum + ((recounted logs traces).map c).sum := by
  have logsKept : (logs.map (logRecord traces)).filter (kept (indexById logs traces).values) =
      logs.map (logRecord traces) := by
    rw [List.filter_eq_self]
    intro m member
    obtain ⟨m, inside, rfl⟩ := List.mem_map.mp member
    simp [kept, logRecord_sourcePriority sources m inside]
  have tracesKept : ((freshTraces logs traces).map (traceRecord traces)).filter
      (kept (indexById logs traces).values) = (recounted logs traces).map (traceRecord traces) := by
    rw [List.filter_map, recounted]
    congr 1
    apply List.filter_congr
    intro t member
    rw [Function.comp_apply, kept, balanced_values sources, traceRecord_sourcePriority sources t member,
      traceRecord, absorbAll_bucketKey]
    cases shared traces t <;> rfl
  rw [sum_unifyMovements_records c frame, values_indexById _ _ sources.distinct, List.filter_append,
    ← values_indexById _ _ sources.distinct, logsKept, tracesKept, List.map_append, List.sum_append,
    List.map_map, List.map_map]
  congr 2
  · exact List.map_congr_left fun m _ => absorbAll_frame c frame m _
  · exact List.map_congr_left fun t _ => absorbAll_frame c frame t _

theorem length_unifyMovements (sources : Sources logs traces) :
    (unifyMovements logs traces).length = logs.length + (recounted logs traces).length := by
  have counted := sum_unifyMovements sources (fun _ => 1) fun _ _ => rfl
  apply Int.natCast_inj.mp
  simpa using counted

end EconomicLedger.Movements
