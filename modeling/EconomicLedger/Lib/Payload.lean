import EconomicLedger.Lib.Latest
import EconomicLedger.Lib.Relational
import EconomicLedger.Lib.Rollup

/-!
# Tables up to a column

Two tables are the same up to what `strip` leaves out when they hold the same stripped rows in some order.
Joins, selections and groupings that do not look at the rest respect it, and so does merging a replay.
-/

namespace EconomicLedger.Payload
open Relational Rollup
variable {α β γ κ : Type*}

def Same (strip : α → β) (rows rows' : List α) : Prop := (rows.map strip).Perm (rows'.map strip)

variable {strip : α → α} {strip' : β → β}

theorem Same.refl (strip : α → β) (rows : List α) : Same strip rows rows := List.Perm.refl _

theorem Same.symm {strip : α → β} {rows rows' : List α} (same : Same strip rows rows') :
    Same strip rows' rows := List.Perm.symm same

theorem Same.trans {strip : α → β} {rows rows' rows'' : List α} (same : Same strip rows rows')
    (same' : Same strip rows' rows'') : Same strip rows rows'' := List.Perm.trans same same'

theorem Same.map {rows rows' : List α} (same : Same strip rows rows') (f : α → β)
    (blind : ∀ a, strip' (f (strip a)) = strip' (f a)) : Same strip' (rows.map f) (rows'.map f) := by
  have through (l : List α) : (l.map f).map strip' = (l.map strip).map fun a => strip' (f a) := by
    rw [List.map_map, List.map_map]
    exact List.map_congr_left fun a _ => (blind a).symm
  rw [Same, through, through]
  exact List.Perm.map _ same

theorem Same.filterMap {rows rows' : List α} (same : Same strip rows rows') (f : α → Option β)
    (blind : ∀ a, (f (strip a)).map strip' = (f a).map strip') :
    Same strip' (rows.filterMap f) (rows'.filterMap f) := by
  have through (l : List α) : (l.filterMap f).map strip' =
      (l.map strip).filterMap fun a => (f a).map strip' := by
    rw [List.map_filterMap, List.filterMap_map]
    exact List.filterMap_congr fun a _ => (blind a).symm
  rw [Same, through, through]
  exact List.Perm.filterMap _ same

theorem Same.filter {rows rows' : List α} (same : Same strip rows rows') (p : α → Bool)
    (blind : ∀ a, p (strip a) = p a) : Same strip (rows.filter p) (rows'.filter p) := by
  have through (l : List α) : (l.filter p).map strip = (l.map strip).filter p := by
    rw [List.filter_map]
    exact congrArg _ (List.filter_congr fun a _ => (blind a).symm)
  rw [Same, through, through]
  exact List.Perm.filter _ same

theorem Same.mem {rows rows' : List α} (same : Same strip rows rows') {a : α} (member : a ∈ rows) :
    strip a ∈ rows'.map strip := (List.Perm.mem_iff same).mp (List.mem_map_of_mem member)

/-- A measure that does not look at the rest. -/
theorem Same.measure {rows rows' : List α} (same : Same strip rows rows') (f : α → γ)
    (blind : ∀ a, f (strip a) = f a) : (rows.map f).Perm (rows'.map f) := by
  have through (l : List α) : l.map f = (l.map strip).map f := by
    rw [List.map_map]
    exact List.map_congr_left fun a _ => (blind a).symm
  rw [through rows, through rows']
  exact List.Perm.map f same

/-! ## Bounds -/

theorem max?_perm [Max γ] [LE γ] [Std.IsLinearOrder γ] [Std.LawfulOrderMax γ] {xs ys : List γ}
    (same : xs.Perm ys) : xs.max? = ys.max? := by
  apply Option.ext
  intro m
  rw [List.max?_eq_some_iff, List.max?_eq_some_iff, same.mem_iff]
  exact and_congr_right fun _ => forall_congr' fun _ => by rw [same.mem_iff]

theorem min?_perm [Min γ] [LE γ] [Std.IsLinearOrder γ] [Std.LawfulOrderMin γ] {xs ys : List γ}
    (same : xs.Perm ys) : xs.min? = ys.min? := by
  apply Option.ext
  intro m
  rw [List.min?_eq_some_iff, List.min?_eq_some_iff, same.mem_iff]
  exact and_congr_right fun _ => forall_congr' fun _ => by rw [same.mem_iff]

/-! ## Joins -/

section Joins
variable (on : α → β → Bool) (blind : ∀ a b, on (strip a) (strip' b) = on a b)
include blind

theorem innerJoin_strip (left : List α) (right : List β) :
    innerJoin on (left.map strip) (right.map strip') = (innerJoin on left right).map (Prod.map strip strip') := by
  rw [innerJoin, innerJoin, List.flatMap_map, List.map_flatMap]
  apply List.flatMap_congr
  intro a _
  have matched : (right.map strip').filter (on (strip a)) = (right.filter (on a)).map strip' := by
    rw [List.filter_map]
    exact congrArg _ (List.filter_congr fun b _ => blind a b)
  rw [matched, List.map_map, List.map_map]
  rfl

theorem partners_strip (right : List β) (a : α) :
    partners on (right.map strip') (strip a) = (partners on right a).map (Option.map strip') := by
  have matched : (right.map strip').filter (on (strip a)) = (right.filter (on a)).map strip' := by
    rw [List.filter_map]
    exact congrArg _ (List.filter_congr fun b _ => blind a b)
  unfold partners
  rw [matched]
  cases right.filter (on a) with
  | nil => rfl
  | cons b rest => simp [Function.comp_def]

theorem leftJoin_strip (left : List α) (right : List β) :
    leftJoin on (left.map strip) (right.map strip') =
      (leftJoin on left right).map (Prod.map strip (Option.map strip')) := by
  rw [leftJoin_eq, leftJoin_eq, List.flatMap_map, List.map_flatMap]
  apply List.flatMap_congr
  intro a _
  rw [partners_strip on blind, List.map_map, List.map_map]
  rfl

omit blind in
theorem innerJoin_perm {left left' : List α} (sameLeft : left.Perm left') {right right' : List β}
    (sameRight : right.Perm right') : (innerJoin on left right).Perm (innerJoin on left' right') :=
  List.Perm.flatMap sameLeft fun _ _ => (sameRight.filter _).map _

omit blind in
theorem partners_perm {right right' : List β} (same : right.Perm right') (a : α) :
    (partners on right a).Perm (partners on right' a) := by
  have matched := same.filter (on a)
  unfold partners
  cases here : right.filter (on a) with
  | nil =>
      rw [here] at matched
      rw [List.nil_perm.mp matched]
  | cons b rest =>
      rw [here] at matched
      cases there : right'.filter (on a) with
      | nil =>
          rw [there] at matched
          exact absurd matched.length_eq (by simp)
      | cons b' rest' =>
          rw [there] at matched
          exact matched.map some

omit blind in
theorem leftJoin_perm {left left' : List α} (sameLeft : left.Perm left') {right right' : List β}
    (sameRight : right.Perm right') : (leftJoin on left right).Perm (leftJoin on left' right') := by
  rw [leftJoin_eq, leftJoin_eq]
  exact List.Perm.flatMap sameLeft fun a _ => (partners_perm on sameRight a).map _

theorem Same.innerJoin {left left' : List α} (sameLeft : Same strip left left') {right right' : List β}
    (sameRight : Same strip' right right') :
    Same (Prod.map strip strip') (innerJoin on left right) (Relational.innerJoin on left' right') := by
  rw [Same, ← innerJoin_strip on blind, ← innerJoin_strip on blind]
  exact innerJoin_perm on sameLeft sameRight

theorem Same.leftJoin {left left' : List α} (sameLeft : Same strip left left') {right right' : List β}
    (sameRight : Same strip' right right') :
    Same (Prod.map strip (Option.map strip')) (leftJoin on left right) (Relational.leftJoin on left' right') := by
  rw [Same, ← leftJoin_strip on blind, ← leftJoin_strip on blind]
  exact leftJoin_perm on sameLeft sameRight

end Joins

/-! ## Groups and merges -/

variable [DecidableEq κ]

section Tagged
variable (key : α → κ) (tag : α → α) (own : ∀ a, key (tag a) = key a)
include own

theorem keys_gather_map (f : Option γ → α → γ) (rows : List α) :
    (Dict.gather key f Dict.empty (rows.map tag)).keys = (Dict.gather key f Dict.empty rows).keys := by
  have first (l : List α) : (Dict.gather key f Dict.empty l).keys = (Keyed.firstByKey key l).map key := by
    rw [Dict.keys_gather]
    simp [Dict.empty, Dict.keys]
  have same : (fun a => key (tag a)) = key := funext own
  rw [first, first, Keyed.firstByKey_map, List.map_map, same]
  exact List.map_congr_left fun a _ => own a

theorem values_index_map (rows : List α) :
    (Dict.index key (rows.map tag)).values = (Dict.index key rows).values.map tag := by
  have keys := keys_gather_map key tag own (fun _ a => a) rows
  have found (k : κ) : (Dict.index key (rows.map tag)).get? k = ((Dict.index key rows).get? k).map tag := by
    rw [Dict.get?_index, Dict.get?_index, List.filter_map, List.getLast?_map]
    exact congrArg _ (congrArg _ (List.filter_congr fun a _ => by rw [Function.comp_apply, own]))
  have values : (Dict.index key (rows.map tag)).values.map some =
      ((Dict.index key rows).values.map tag).map some := by
    calc (Dict.index key (rows.map tag)).values.map some
        = ((Dict.index key rows).keys.map (Dict.index key rows).get?).map (Option.map tag) := by
          rw [Dict.values_eq, Dict.index, keys, List.map_map]
          exact List.map_congr_left fun k _ => found k
      _ = _ := by
          rw [← Dict.values_eq, List.map_map, List.map_map]
          rfl
  exact List.map_injective_iff.mpr (Option.some_injective _) values

theorem latest_map {M : Type*} [LinearOrder M] (time : α → M) (timed : ∀ a, time (tag a) = time a)
    (rows : List α) : Latest.latest key time (rows.map tag) = (Latest.latest key time rows).map tag := by
  rw [Latest.latest, Latest.latest, Dict.values_groupBy, Dict.values_groupBy, List.filterMap_map,
    List.filterMap_map, Dict.groupBy, keys_gather_map key tag own, List.map_filterMap]
  apply List.filterMap_congr
  intro k _
  have group : (rows.map tag).filter (key · = k) = (rows.filter (key · = k)).map tag := by
    rw [List.filter_map]
    exact congrArg _ (List.filter_congr fun a _ => by rw [Function.comp_apply, own])
  have sorted := List.map_insertionSort (fun a b => time b ≤ time a) (fun a b => time b ≤ time a) tag
    (rows.filter (key · = k)) fun a _ b _ => by rw [timed, timed]
  rw [Function.comp_apply, Function.comp_apply, group, ← sorted, List.head?_map]

end Tagged

theorem Same.groupRows {rows rows' : List α} (same : Same strip rows rows') (key : α → κ)
    (row : κ → List α → β) (blind : ∀ a, key (strip a) = key a)
    (blindRow : ∀ k group group', Same strip group group' → strip' (row k group) = strip' (row k group')) :
    Same strip' (groupRows key row rows) (Rollup.groupRows key row rows') := by
  have keys : (Dict.groupBy key rows).keys.Perm (Dict.groupBy key rows').keys := by
    rw [List.perm_ext_iff_of_nodup (Dict.keys_nodup _) (Dict.keys_nodup _)]
    intro k
    rw [Dict.mem_keys_groupBy, Dict.mem_keys_groupBy]
    exact (same.measure key blind).mem_iff
  have under : ∀ k, strip' (row k (rows.filter (key · = k))) = strip' (row k (rows'.filter (key · = k))) := by
    intro k
    exact blindRow k _ _ (same.filter (key · = k) fun a => by rw [blind])
  rw [Same, groupRows_eq, groupRows_eq, List.map_map, List.map_map]
  refine (keys.map _).trans (List.Perm.of_eq (List.map_congr_left fun k _ => ?_))
  exact under k

/-- A merge of rows known already, but for the rest, leaves the table the same; it replaces those it
selects. -/
theorem Same.mergeOn {table known rows : List α} (current : Same strip table known)
    (replay : Same strip rows known) (keyOf : α → κ) (blind : ∀ a, keyOf (strip a) = keyOf a)
    (unique : (known.map keyOf).Nodup) (late : α → Bool) :
    Same strip (mergeOn keyOf table (rows.filter late)) known := by
  have distinct : (rows.map keyOf).Nodup := (replay.measure keyOf blind).nodup_iff.mpr unique
  have merged := mergeOn_converges keyOf strip keyOf (fun a => (blind a).symm) table known rows late current
    unique distinct (fun a member => replay.symm.mem member)
    fun a member unknown => absurd (replay.mem member) unknown
  exact Same.trans merged replay

end EconomicLedger.Payload
