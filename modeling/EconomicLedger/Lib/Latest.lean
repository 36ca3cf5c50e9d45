import EconomicLedger.Lib.Dict
import Mathlib.Data.List.Sort

/-!
# The latest row under each key

`ROW_NUMBER() OVER (PARTITION BY key ORDER BY time DESC)` and of every partition its row 1. The order of
rows of one time is not fixed, so `IsLatest` says what holds of the selection however it is made.
-/

namespace EconomicLedger.Latest
variable {α κ M : Type*} [DecidableEq κ] [LinearOrder M] (key : α → κ) (time : α → M)

/-- Of rows of one time the first of the list is taken. -/
def latest (rows : List α) : List α :=
  (Dict.groupBy key rows).values.filterMap fun group =>
    (group.insertionSort fun a b => time b ≤ time a).head?

structure IsLatest (rows chosen : List α) : Prop where
  unique : (chosen.map key).Nodup
  inside : ∀ c ∈ chosen, c ∈ rows
  top : ∀ c ∈ chosen, ∀ r ∈ rows, key r = key c → time r ≤ time c
  covered : ∀ r ∈ rows, ∃ c ∈ chosen, key c = key r

theorem head?_top (group : List α) (a : α)
    (first : (group.insertionSort fun a b => time b ≤ time a).head? = some a) :
    a ∈ group ∧ ∀ b ∈ group, time b ≤ time a := by
  have perm := List.perm_insertionSort (fun a b => time b ≤ time a) group
  have sorted : (group.insertionSort fun a b => time b ≤ time a).Pairwise fun a b => time b ≤ time a := by
    have total : Std.Total fun a b : α => time b ≤ time a := ⟨fun a b => le_total (time b) (time a)⟩
    have trans : IsTrans α fun a b => time b ≤ time a := ⟨fun _ _ _ before after => after.trans before⟩
    exact List.pairwise_insertionSort _ group
  obtain ⟨rest, whole⟩ := List.head?_eq_some_iff.mp first
  rw [whole] at sorted perm
  refine ⟨perm.subset List.mem_cons_self, fun b member => ?_⟩
  rcases List.mem_cons.mp (perm.symm.subset member) with rfl | later
  · exact le_refl _
  · exact (List.pairwise_cons.mp sorted).1 b later

theorem mem_latest (rows : List α) (c : α) (member : c ∈ latest key time rows) :
    c ∈ rows ∧ ∀ r ∈ rows, key r = key c → time r ≤ time c := by
  obtain ⟨group, isGroup, first⟩ := List.mem_filterMap.mp member
  obtain ⟨k, -, rfl⟩ := Dict.mem_values_groupBy key rows group isGroup
  obtain ⟨inside, top⟩ := head?_top time _ c first
  obtain ⟨inRows, own⟩ := List.mem_filter.mp inside
  refine ⟨inRows, fun r isRow same => top r (List.mem_filter.mpr ⟨isRow, ?_⟩)⟩
  exact decide_eq_true (same.trans (of_decide_eq_true own))

theorem keys_latest (rows : List α) : (latest key time rows).map key = (Dict.groupBy key rows).keys := by
  have each : ∀ k ∈ (Dict.groupBy key rows).keys, ∃ c, key c = k ∧
      ((rows.filter (key · = k)).insertionSort fun a b => time b ≤ time a).head? = some c := by
    intro k present
    obtain ⟨r, member, same⟩ := List.mem_map.mp ((Dict.mem_keys_groupBy key rows k).mp present)
    have here : r ∈ rows.filter (key · = k) := List.mem_filter.mpr ⟨member, decide_eq_true same⟩
    have nonempty : (rows.filter (key · = k)).insertionSort (fun a b => time b ≤ time a) ≠ [] :=
      List.ne_nil_of_mem ((List.mem_insertionSort _).mpr here)
    obtain ⟨c, first⟩ := Option.isSome_iff_exists.mp (List.isSome_head?.mpr nonempty)
    exact ⟨c, of_decide_eq_true (List.mem_filter.mp (head?_top time _ c first).1).2, first⟩
  rw [latest, Dict.values_groupBy, List.filterMap_map]
  generalize (Dict.groupBy key rows).keys = keys at each
  induction keys with
  | nil => rfl
  | cons k rest ih =>
      obtain ⟨c, own, first⟩ := each k List.mem_cons_self
      rw [List.filterMap_cons_some (by exact first), List.map_cons, own,
        ih fun j later => each j (List.mem_cons_of_mem k later)]

theorem latest_isLatest (rows : List α) : IsLatest key time rows (latest key time rows) where
  unique := by
    rw [keys_latest]
    exact Dict.keys_nodup _
  inside := fun c member => (mem_latest key time rows c member).1
  top := fun c member => (mem_latest key time rows c member).2
  covered := by
    intro r member
    have present : key r ∈ (latest key time rows).map key := by
      rw [keys_latest, Dict.mem_keys_groupBy]
      exact List.mem_map_of_mem member
    exact List.mem_map.mp present

variable {key time}

omit [DecidableEq κ] in
/-- More rows leave every key its row or put a later one in its place. -/
theorem IsLatest.grow {rows more chosen chosen' : List α} (before : IsLatest key time rows chosen)
    (after : IsLatest key time more chosen') (kept : rows ⊆ more) :
    ∀ c ∈ chosen, ∃ c' ∈ chosen', key c' = key c ∧ time c ≤ time c' ∧
      (c' ∈ rows → time c' = time c) := by
  intro c member
  obtain ⟨c', member', same⟩ := after.covered c (kept (before.inside c member))
  have later := after.top c' member' c (kept (before.inside c member)) same.symm
  exact ⟨c', member', same, later, fun old => le_antisymm (before.top c member c' old same) later⟩

end EconomicLedger.Latest
