import EconomicLedger.Lib.Dict
import Mathlib.Algebra.BigOperators.Group.List.Basic
import Mathlib.Algebra.Group.Basic

/-!
# Grouped tables

A grouped table has one row for every key, made from the rows under it. Merging replaces the rows
whose key is in the merged table. Where a row totals a measure of its group, a merge of a partial
grouping agrees with the whole grouping exactly when the replaced groups lose nothing.
-/

namespace EconomicLedger.Rollup
variable {β κ ρ M : Type*} [DecidableEq κ]

/-- `GROUP BY`. -/
def groupRows (key : β → κ) (row : κ → List β → ρ) (rows : List β) : List ρ :=
  (Dict.groupBy key rows).entries.map fun e => row e.1 e.2

/-- `MERGE` on a key: a row under a merged key is replaced, every other row is kept. -/
def mergeOn (keyOf : ρ → κ) (table merged : List ρ) : List ρ :=
  table.filter (keyOf · ∉ merged.map keyOf) ++ merged

variable (key : β → κ) (row : κ → List β → ρ)

theorem groupRows_eq (rows : List β) :
    groupRows key row rows =
      (Dict.groupBy key rows).keys.map fun k => row k (rows.filter (key · = k)) := by
  rw [groupRows, Dict.keys, List.map_map]
  apply List.map_congr_left
  intro e member
  have group := (Dict.get?_eq_some_iff _ e.1 e.2).mpr member
  rw [Dict.get?_groupBy] at group
  split at group
  · rw [Function.comp_apply, Option.some.inj group]
  · cases group

theorem groupRows_single (rows : List β) (k : κ) (nonempty : rows ≠ []) (under : ∀ b ∈ rows, key b = k) :
    groupRows key row rows = [row k rows] := by
  have keys : (Dict.groupBy key rows).keys.Perm [k] := by
    rw [List.perm_ext_iff_of_nodup (Dict.keys_nodup _) (List.nodup_singleton k)]
    intro j
    rw [Dict.mem_keys_groupBy, List.mem_map, List.mem_singleton]
    constructor
    · rintro ⟨b, member, rfl⟩
      exact under b member
    · rintro rfl
      obtain ⟨b, member⟩ := List.exists_mem_of_ne_nil rows nonempty
      exact ⟨b, member, under b member⟩
  have all : rows.filter (key · = k) = rows :=
    List.filter_eq_self.mpr fun b member => decide_eq_true (under b member)
  rw [groupRows_eq, List.perm_singleton.mp keys, List.map_singleton, all]

theorem forall_groupRows_iff (rows : List β) (p : ρ → Prop) :
    (∀ r ∈ groupRows key row rows, p r) ↔
      ∀ b ∈ rows, p (row (key b) (rows.filter (key · = key b))) := by
  rw [groupRows_eq, List.forall_mem_map]
  simp only [Dict.mem_keys_groupBy]
  exact List.forall_mem_map

variable (keyOf : ρ → κ) (keyed : ∀ k group, keyOf (row k group) = k)
include keyed

theorem keys_groupRows (rows : List β) :
    (groupRows key row rows).map keyOf = (Dict.groupBy key rows).keys := by
  rw [groupRows_eq, List.map_map]
  have id : keyOf ∘ (fun k => row k (rows.filter (key · = k))) = id := funext fun k => keyed k _
  rw [id, List.map_id]

theorem mem_keys_groupRows (rows : List β) (k : κ) :
    k ∈ (groupRows key row rows).map keyOf ↔ k ∈ rows.map key := by
  rw [keys_groupRows key row keyOf keyed, Dict.mem_keys_groupBy]

theorem filter_groupRows (rows : List β) (k : κ) :
    (groupRows key row rows).filter (keyOf · = k) =
      if rows.filter (key · = k) = [] then [] else [row k (rows.filter (key · = k))] := by
  rw [groupRows_eq, List.filter_map]
  have own : ((fun r => decide (keyOf r = k)) ∘ fun k => row k (rows.filter (key · = k))) =
      fun j => decide (j = k) := funext fun j => by simp [keyed]
  rw [own]
  by_cases present : k ∈ (Dict.groupBy key rows).keys
  · have single := Keyed.filter_key id (l := (Dict.groupBy key rows).keys)
      (by simpa using Dict.keys_nodup _) present
    simp only [id] at single
    obtain ⟨b, member, same⟩ := List.mem_map.mp ((Dict.mem_keys_groupBy key rows k).mp present)
    have nonempty : rows.filter (key · = k) ≠ [] :=
      List.ne_nil_of_mem (List.mem_filter.mpr ⟨member, by simpa using same⟩)
    rw [single, if_neg nonempty]
    rfl
  · have none : (Dict.groupBy key rows).keys.filter (fun j => decide (j = k)) = [] := by
      rw [List.filter_eq_nil_iff]
      intro j member same
      simp only [decide_eq_true_eq] at same
      exact present (same ▸ member)
    have empty : rows.filter (key · = k) = [] := by
      rw [List.filter_eq_nil_iff]
      intro b member same
      exact present ((Dict.mem_keys_groupBy key rows k).mpr
        (List.mem_map.mpr ⟨b, member, by simpa using same⟩))
    rw [none, if_pos empty]
    rfl

omit keyed in
theorem filter_mergeOn (table merged : List ρ) (k : κ) :
    (mergeOn keyOf table merged).filter (keyOf · = k) =
      if k ∈ merged.map keyOf then merged.filter (keyOf · = k) else table.filter (keyOf · = k) := by
  rw [mergeOn, List.filter_append, List.filter_filter]
  split
  next present =>
    have replaced : table.filter (fun r => decide (keyOf r = k) && decide (keyOf r ∉ merged.map keyOf)) =
        [] := by
      rw [List.filter_eq_nil_iff]
      intro r _ both
      simp only [Bool.and_eq_true, decide_eq_true_eq] at both
      exact both.2 (both.1 ▸ present)
    rw [replaced, List.nil_append]
  next absent =>
    have none : merged.filter (keyOf · = k) = [] := by
      rw [List.filter_eq_nil_iff]
      intro r member same
      exact absent (List.mem_map.mpr ⟨r, member, by simpa using same⟩)
    rw [none, List.append_nil]
    apply List.filter_congr
    intro r _
    by_cases same : keyOf r = k <;> simp_all

/-! ## Totals -/

omit [DecidableEq κ] keyed in
theorem sum_flatMap {M : Type*} [AddCommMonoid M] (measure : β → M) (groups : List κ) (group : κ → List β) :
    (groups.map fun k => ((group k).map measure).sum).sum = ((groups.flatMap group).map measure).sum := by
  induction groups with
  | nil => rfl
  | cons k rest ih =>
      rw [List.map_cons, List.sum_cons, ih, List.flatMap_cons, List.map_append, List.sum_append]

section Totals
variable [AddCommGroup M] (measure : β → M) (total : ρ → M)
  (summed : ∀ k group, total (row k group) = (group.map measure).sum)
include summed

omit [DecidableEq κ] keyed summed in
theorem sum_partition (p : β → Bool) (rows : List β) :
    ((rows.filter p).map measure).sum + ((rows.filter fun b => !p b).map measure).sum =
      (rows.map measure).sum := by
  rw [← List.sum_append, ← List.map_append]
  exact ((List.filter_append_perm p rows).map measure).sum_eq

theorem sum_groupRows (rows : List β) (p : κ → Bool) :
    (((groupRows key row rows).filter fun r => p (keyOf r)).map total).sum =
      ((rows.filter fun b => p (key b)).map measure).sum := by
  let kept := rows.filter fun b => p (key b)
  let keys := (Dict.groupBy key rows).keys.filter p
  have distinct : keys.Nodup := (Dict.keys_nodup _).filter p
  have covered : ∀ b ∈ kept, key b ∈ keys := by
    intro b member
    obtain ⟨inside, chosen⟩ := List.mem_filter.mp member
    exact List.mem_filter.mpr
      ⟨(Dict.mem_keys_groupBy key rows _).mpr (List.mem_map_of_mem inside), chosen⟩
  have groups : keys.flatMap (fun k => rows.filter (key · = k)) =
      keys.flatMap fun k => kept.filter (key · = k) := by
    apply List.flatMap_congr
    intro k member
    have chosen := (List.mem_filter.mp member).2
    rw [List.filter_filter]
    apply List.filter_congr
    intro b _
    by_cases same : key b = k <;> simp [same, chosen]
  have own : ((fun r => p (keyOf r)) ∘ fun k => row k (rows.filter (key · = k))) = p :=
    funext fun k => congrArg p (keyed k _)
  calc (((groupRows key row rows).filter fun r => p (keyOf r)).map total).sum
      = (keys.map fun k => ((rows.filter (key · = k)).map measure).sum).sum := by
        rw [groupRows_eq, List.filter_map, own, List.map_map]
        exact congrArg List.sum (List.map_congr_left fun k _ => summed k _)
    _ = ((keys.flatMap fun k => kept.filter (key · = k)).map measure).sum := by
        rw [sum_flatMap, groups]
    _ = (kept.map measure).sum :=
        ((Keyed.perm_flatMap_filter key keys distinct kept covered).map measure).sum_eq

/-- Regrouping the rows that satisfy `late`, over a table grouped from the rows that satisfy
`known`, gives the totals of all rows. -/
theorem merge_totals_iff (rows : List β) (known late : β → Bool)
    (covered : ∀ b ∈ rows, late b = false → known b = true) :
    (∀ k, ((mergeOn keyOf (groupRows key row (rows.filter known))
          (groupRows key row (rows.filter late))).filter (keyOf · = k)).map total =
        ((groupRows key row rows).filter (keyOf · = k)).map total) ↔
      ∀ k, (∃ b ∈ rows, key b = k ∧ late b = true) →
        ((rows.filter fun b => key b = k && !late b).map measure).sum = 0 := by
  apply forall_congr'
  intro k
  rw [filter_mergeOn]
  by_cases touched : ∃ b ∈ rows, key b = k ∧ late b = true
  · obtain ⟨b, member, same, isLate⟩ := touched
    have regrouped : k ∈ (groupRows key row (rows.filter late)).map keyOf :=
      (mem_keys_groupRows key row keyOf keyed _ k).mpr
        (List.mem_map.mpr ⟨b, List.mem_filter.mpr ⟨member, isLate⟩, same⟩)
    have swap : (rows.filter late).filter (key · = k) = (rows.filter (key · = k)).filter late := by
      rw [List.filter_filter, List.filter_filter]
      exact List.filter_congr fun b _ => Bool.and_comm _ _
    have early : (rows.filter (key · = k)).filter (fun b => !late b) =
        rows.filter fun b => key b = k && !late b := by
      rw [List.filter_filter]
      exact List.filter_congr fun b _ => Bool.and_comm _ _
    have group : b ∈ rows.filter (key · = k) := List.mem_filter.mpr ⟨member, by simpa using same⟩
    have lateGroup : b ∈ (rows.filter (key · = k)).filter late := List.mem_filter.mpr ⟨group, isLate⟩
    have parts := sum_partition measure late (rows.filter (key · = k))
    rw [if_pos regrouped, filter_groupRows key row keyOf keyed, filter_groupRows key row keyOf keyed,
      swap, if_neg (List.ne_nil_of_mem lateGroup), if_neg (List.ne_nil_of_mem group),
      List.map_singleton, List.map_singleton, summed, summed, ← parts, early, List.cons.injEq,
      left_eq_add]
    exact ⟨fun zero _ => zero.1, fun zero => ⟨zero ⟨b, member, same, isLate⟩, rfl⟩⟩
  · have kept : k ∉ (groupRows key row (rows.filter late)).map keyOf := by
      intro inside
      obtain ⟨b, member, same⟩ :=
        List.mem_map.mp ((mem_keys_groupRows key row keyOf keyed _ k).mp inside)
      obtain ⟨isRow, isLate⟩ := List.mem_filter.mp member
      exact touched ⟨b, isRow, same, isLate⟩
    have whole : (rows.filter known).filter (key · = k) = rows.filter (key · = k) := by
      rw [List.filter_filter]
      apply List.filter_congr
      intro b member
      by_cases same : key b = k
      · have early : late b = false := by
          by_contra isLate
          exact touched ⟨b, member, same, by simpa using isLate⟩
        simp [same, covered b member early]
      · simp [same]
    rw [if_neg kept, filter_groupRows key row keyOf keyed, filter_groupRows key row keyOf keyed, whole]
    exact ⟨fun _ late => absurd late touched, fun _ => rfl⟩

end Totals

/-! ## Running totals -/

section RunningTotals
variable {M : Type*} [AddCommMonoid M] (measure : β → M)
omit keyed

/-- A dictionary with the sum of a measure under each key. -/
def totals (rows : List β) : Dict κ M :=
  Dict.gather key (fun sum b => sum.getD 0 + measure b) Dict.empty rows

omit [DecidableEq κ] in
theorem foldl_add (rows : List β) (sum : Option M) :
    rows.foldl (fun sum b => some (sum.getD 0 + measure b)) sum =
      if rows = [] then sum else some (sum.getD 0 + (rows.map measure).sum) := by
  induction rows generalizing sum with
  | nil => rfl
  | cons b rest ih =>
      rw [List.foldl_cons, ih, if_neg (List.cons_ne_nil b rest), List.map_cons, List.sum_cons]
      by_cases last : rest = []
      · simp [last]
      · rw [if_neg last, Option.getD_some, add_assoc]

theorem entries_totals (rows : List β) :
    (totals key measure rows).entries =
      groupRows key (fun k group => (k, (group.map measure).sum)) rows := by
  have keys : (totals key measure rows).keys = (Dict.groupBy key rows).keys := by
    rw [totals, Dict.groupBy, Dict.keys_gather, Dict.keys_gather]
    rfl
  rw [groupRows_eq, ← keys, Dict.keys, List.map_map]
  conv_lhs => rw [← List.map_id (totals key measure rows).entries]
  apply List.map_congr_left
  intro e member
  have found := (Dict.get?_eq_some_iff _ e.1 e.2).mpr member
  rw [totals, Dict.get?_gather, foldl_add, Dict.get?_empty] at found
  split at found
  · cases found
  · rw [Option.getD_none, zero_add, Option.some.injEq] at found
    exact Prod.ext rfl found.symm

theorem keys_totals_nodup (rows : List β) : ((totals key measure rows).entries.map Prod.fst).Nodup :=
  Dict.keys_nodup _

theorem mem_totals (rows : List β) (k : κ) (sum : M) :
    (k, sum) ∈ (totals key measure rows).entries ↔
      k ∈ rows.map key ∧ sum = ((rows.filter (key · = k)).map measure).sum := by
  rw [entries_totals, groupRows_eq, List.mem_map]
  simp only [Prod.mk.injEq, Dict.mem_keys_groupBy]
  constructor
  · rintro ⟨k, present, rfl, rfl⟩
    exact ⟨present, rfl⟩
  · rintro ⟨present, rfl⟩
    exact ⟨k, present, rfl, rfl⟩

theorem totals_perm {rows rows' : List β} (same : rows'.Perm rows) :
    (totals key measure rows').entries.Perm (totals key measure rows).entries := by
  rw [List.perm_ext_iff_of_nodup (keys_totals_nodup key measure rows').of_map
    (keys_totals_nodup key measure rows).of_map]
  rintro ⟨k, sum⟩
  rw [mem_totals, mem_totals, (same.map key).mem_iff, ((same.filter _).map measure).sum_eq]

theorem sum_totals (rows : List β) :
    ((totals key measure rows).entries.map Prod.snd).sum = (rows.map measure).sum := by
  rw [entries_totals, groupRows_eq, List.map_map]
  have covered : ∀ b ∈ rows, key b ∈ (Dict.groupBy key rows).keys := fun b member =>
    (Dict.mem_keys_groupBy key rows _).mpr (List.mem_map_of_mem member)
  exact (sum_flatMap measure _ _).trans
    ((Keyed.perm_flatMap_filter key _ (Dict.keys_nodup _) rows covered).map measure).sum_eq

end RunningTotals

/-! ## Late rows -/

omit keyed in
theorem mem_mergeOn (table merged : List ρ) (r : ρ) :
    r ∈ mergeOn keyOf table merged ↔ r ∈ merged ∨ r ∈ table ∧ keyOf r ∉ merged.map keyOf := by
  simp only [mergeOn, List.mem_append, List.mem_filter, decide_eq_true_eq]
  exact Or.comm

omit keyed in
theorem keys_mergeOn_nodup (table merged : List ρ) (known : (table.map keyOf).Nodup)
    (fresh : (merged.map keyOf).Nodup) : ((mergeOn keyOf table merged).map keyOf).Nodup := by
  rw [mergeOn, List.map_append, List.nodup_append']
  refine ⟨known.sublist (List.filter_sublist.map keyOf), fresh, ?_⟩
  intro k kept replaced
  obtain ⟨r, member, rfl⟩ := List.mem_map.mp kept
  exact of_decide_eq_true (List.mem_filter.mp member).2 replaced

omit keyed in
/-- A table that carries the payloads of the rows known so far carries those of all rows once every
row it does not know is merged. -/
theorem mergeOn_converges {π : Type*} (payload : ρ → π) (idOf : π → κ)
    (keyedBy : ∀ r, keyOf r = idOf (payload r)) (table before after : List ρ) (late : ρ → Bool)
    (agrees : (table.map payload).Perm (before.map payload)) (known : (before.map keyOf).Nodup)
    (distinct : (after.map keyOf).Nodup) (kept : ∀ r ∈ before, payload r ∈ after.map payload)
    (caught : ∀ r ∈ after, payload r ∉ before.map payload → late r = true) :
    ((mergeOn keyOf table (after.filter late)).map payload).Perm (after.map payload) := by
  have keys (rows : List ρ) : rows.map keyOf = (rows.map payload).map idOf := by
    rw [List.map_map]
    exact List.map_congr_left fun r _ => keyedBy r
  have tableKeys : (table.map keyOf).Nodup := by
    rw [keys, (agrees.map idOf).nodup_iff, ← keys]
    exact known
  have merged : ((after.filter late).map keyOf).Nodup :=
    distinct.sublist (List.filter_sublist.map keyOf)
  have left := keys_mergeOn_nodup keyOf table (after.filter late) tableKeys merged
  rw [keys] at left distinct
  rw [List.perm_ext_iff_of_nodup left.of_map distinct.of_map]
  intro x
  simp only [List.mem_map, mem_mergeOn]
  constructor
  · rintro ⟨r, isMerged | ⟨member, -⟩, rfl⟩
    · exact ⟨r, (List.mem_filter.mp isMerged).1, rfl⟩
    · obtain ⟨r', earlier, same⟩ := List.mem_map.mp (agrees.mem_iff.mp (List.mem_map_of_mem member))
      obtain ⟨r'', later, same'⟩ := List.mem_map.mp (kept r' earlier)
      exact ⟨r'', later, same'.trans same⟩
  · rintro ⟨r, member, rfl⟩
    by_cases isLate : late r = true
    · exact ⟨r, Or.inl (List.mem_filter.mpr ⟨member, isLate⟩), rfl⟩
    · have earlier : payload r ∈ before.map payload := by
        by_contra unknown
        exact isLate (caught r member unknown)
      obtain ⟨r', here, same⟩ := List.mem_map.mp (agrees.mem_iff.mpr earlier)
      refine ⟨r', Or.inr ⟨here, fun replaced => ?_⟩, same⟩
      obtain ⟨r'', isMerged, sameKey⟩ := replaced
      obtain ⟨inside, chosen⟩ := List.mem_filter.mp isMerged
      have own : r'' = r := by
        apply List.inj_on_of_nodup_map (keys after ▸ distinct) inside member
        rw [sameKey, keyedBy, same, ← keyedBy]
      exact isLate (own ▸ chosen)

end EconomicLedger.Rollup
