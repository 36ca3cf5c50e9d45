import EconomicLedger.Lib.Keyed
import Mathlib.Data.List.Induction
import Mathlib.Data.List.Lookmap
import Mathlib.Data.List.Nodup
import Mathlib.Data.List.Perm.Basic
import Mathlib.Data.Option.Basic

/-!
# Insertion-ordered dictionaries

A dictionary keeps its keys in the order of their first insertion, and writing to a present key
changes the value in place. A loop that folds records into a dictionary under a key is described
key by key: the value under `k` is the fold of the records whose key is `k`.
-/

namespace EconomicLedger

structure Dict (κ α : Type*) where
  entries : List (κ × α)
  nodup : (entries.map Prod.fst).Nodup

namespace Dict
variable {κ α β : Type*} [DecidableEq κ]

def empty : Dict κ α := ⟨[], List.nodup_nil⟩

def keys (d : Dict κ α) : List κ := d.entries.map Prod.fst

def values (d : Dict κ α) : List α := d.entries.map Prod.snd

def get? (d : Dict κ α) (k : κ) : Option α := (d.entries.find? (·.1 = k)).map Prod.snd

theorem map_fst_overwrite (entries : List (κ × α)) (k : κ) (v : α) :
    (entries.map fun e => if e.1 = k then (k, v) else e).map Prod.fst = entries.map Prod.fst := by
  rw [List.map_map]
  apply List.map_congr_left
  intro e _
  by_cases same : e.1 = k <;> simp [same]

/-- Python's `d[k] = v`. -/
def set (d : Dict κ α) (k : κ) (v : α) : Dict κ α :=
  if present : k ∈ d.keys then
    ⟨d.entries.map fun e => if e.1 = k then (k, v) else e, by
      rw [map_fst_overwrite]
      exact d.nodup⟩
  else
    ⟨d.entries ++ [(k, v)], by
      rw [List.map_append, List.map_cons, List.map_nil, List.nodup_append_comm]
      exact List.nodup_cons.mpr ⟨present, d.nodup⟩⟩

/-- Rewrite the value under a key from the value already there, if any. -/
def upsert (d : Dict κ α) (k : κ) (f : Option α → α) : Dict κ α := d.set k (f (d.get? k))

def ofList (pairs : List (κ × α)) : Dict κ α := pairs.foldl (fun d p => d.set p.1 p.2) empty

/-! ## Lookup -/

omit [DecidableEq κ] in
theorem keys_nodup (d : Dict κ α) : d.keys.Nodup := d.nodup

theorem get?_eq_some_iff (d : Dict κ α) (k : κ) (v : α) :
    d.get? k = some v ↔ (k, v) ∈ d.entries := by
  unfold get?
  constructor
  · intro found
    obtain ⟨e, located, rfl⟩ := Option.map_eq_some_iff.mp found
    have key : e.1 = k := by simpa using List.find?_some located
    exact key ▸ List.mem_of_find?_eq_some located
  · intro member
    obtain ⟨e, located⟩ : ∃ e, d.entries.find? (·.1 = k) = some e := by
      rw [← Option.isSome_iff_exists, List.find?_isSome]
      exact ⟨(k, v), member, by simp⟩
    have key : e.1 = k := by simpa using List.find?_some located
    have same : e = (k, v) := List.inj_on_of_nodup_map d.nodup
      (List.mem_of_find?_eq_some located) member key
    rw [located, same]
    rfl

theorem get?_eq_none_iff (d : Dict κ α) (k : κ) : d.get? k = none ↔ k ∉ d.keys := by
  simp only [get?, keys, Option.map_eq_none_iff, List.find?_eq_none, decide_eq_true_eq,
    List.mem_map, not_exists, not_and]

theorem get?_isSome_iff (d : Dict κ α) (k : κ) : (d.get? k).isSome ↔ k ∈ d.keys := by
  rw [← not_iff_not, Option.not_isSome_iff_eq_none, get?_eq_none_iff]

@[simp] theorem get?_empty (k : κ) : (empty : Dict κ α).get? k = none := rfl

omit [DecidableEq κ] in
@[simp] theorem keys_empty : (empty : Dict κ α).keys = [] := rfl

theorem keys_set (d : Dict κ α) (k : κ) (v : α) :
    (d.set k v).keys = if k ∈ d.keys then d.keys else d.keys ++ [k] := by
  unfold set
  split
  · exact map_fst_overwrite _ _ _
  · simp [keys]

theorem get?_set (d : Dict κ α) (k j : κ) (v : α) :
    (d.set k v).get? j = if j = k then some v else d.get? j := by
  apply Option.ext
  intro w
  rw [get?_eq_some_iff]
  by_cases same : j = k
  · subst same
    rw [if_pos rfl]
    unfold set
    split
    next present =>
      obtain ⟨e, member, key⟩ := List.mem_map.mp present
      constructor
      · intro found
        obtain ⟨e', _, equal⟩ := List.mem_map.mp found
        split at equal
        · simpa using (Prod.ext_iff.mp equal).2
        · next other => exact absurd (congrArg Prod.fst equal) other
      · intro equal
        exact List.mem_map.mpr ⟨e, member, by simp_all⟩
    next absent =>
      have fresh (w : α) : (j, w) ∉ d.entries := fun member =>
        absent (List.mem_map.mpr ⟨(j, w), member, rfl⟩)
      simp [fresh, eq_comm]
  · rw [if_neg same, get?_eq_some_iff]
    unfold set
    split
    · constructor
      · intro found
        obtain ⟨e, member, equal⟩ := List.mem_map.mp found
        split at equal
        · exact absurd (congrArg Prod.fst equal).symm same
        · exact equal ▸ member
      · intro member
        exact List.mem_map.mpr ⟨(j, w), member, by simp [same]⟩
    · simp [same]

@[simp] theorem get?_upsert (d : Dict κ α) (k j : κ) (f : Option α → α) :
    (d.upsert k f).get? j = if j = k then some (f (d.get? k)) else d.get? j := get?_set _ _ _ _

theorem mem_keys_upsert (d : Dict κ α) (k j : κ) (f : Option α → α) :
    j ∈ (d.upsert k f).keys ↔ j = k ∨ j ∈ d.keys := by
  rw [upsert, keys_set]
  split
  next present => exact ⟨Or.inr, fun h => h.elim (· ▸ present) id⟩
  next => simp [or_comm]

theorem values_eq (d : Dict κ α) : d.values.map some = d.keys.map d.get? := by
  unfold values keys
  rw [List.map_map, List.map_map]
  apply List.map_congr_left
  intro e member
  exact ((get?_eq_some_iff d e.1 e.2).mpr member).symm

theorem entries_foldl_set (d : Dict κ α) (pairs : List (κ × α))
    (distinct : (d.keys ++ pairs.map Prod.fst).Nodup) :
    (pairs.foldl (fun d p => d.set p.1 p.2) d).entries = d.entries ++ pairs := by
  induction pairs generalizing d with
  | nil => simp
  | cons p rest ih =>
      have fresh : p.1 ∉ d.keys := by
        intro present
        exact (List.disjoint_of_nodup_append distinct) present (by simp)
      have entries : (d.set p.1 p.2).entries = d.entries ++ [p] := by
        rw [set, dif_neg fresh]
      have keys : (d.set p.1 p.2).keys = d.keys ++ [p.1] := by
        rw [Dict.keys, entries, List.map_append]
        rfl
      rw [List.foldl_cons, ih _ (by rw [keys]; simpa using distinct), entries, List.append_assoc]
      rfl

theorem get?_ofList (pairs : List (κ × α)) (distinct : (pairs.map Prod.fst).Nodup) (k : κ) :
    (ofList pairs).get? k = (pairs.find? (·.1 = k)).map Prod.snd := by
  rw [get?, ofList, entries_foldl_set empty pairs distinct]
  rfl

theorem ofList_entries (d : Dict κ α) : ofList d.entries = d := by
  have same : (ofList d.entries).entries = d.entries :=
    entries_foldl_set empty d.entries (by simpa using d.nodup)
  cases found : ofList d.entries with
  | mk entries nodup =>
      cases d with
      | mk entries' nodup' =>
          rw [found] at same
          cases same
          rfl

/-- Calls that read and write the value under their own key only leave under each key what the
calls on that key leave there. -/
theorem get?_foldl_local (step : Dict κ α → β → Dict κ α) (key : β → κ)
    (f : Option α → β → Option α)
    (own : ∀ d b k, (step d b).get? k = if key b = k then f (d.get? k) b else d.get? k)
    (d : Dict κ α) (calls : List β) (k : κ) :
    (calls.foldl step d).get? k = (calls.filter (key · = k)).foldl f (d.get? k) :=
  Keyed.foldl_local get? step key f own d calls k

/-! ## Folding records into a dictionary -/

/-- A loop that folds every record into the entry under its key. -/
def gather (key : β → κ) (f : Option α → β → α) (d : Dict κ α) (records : List β) : Dict κ α :=
  records.foldl (fun d b => d.upsert (key b) (f · b)) d

theorem get?_gather (key : β → κ) (f : Option α → β → α) (d : Dict κ α) (records : List β) (k : κ) :
    (gather key f d records).get? k =
      (records.filter (key · = k)).foldl (fun o b => some (f o b)) (d.get? k) := by
  induction records generalizing d with
  | nil => rfl
  | cons b rest ih =>
      rw [gather, List.foldl_cons, ← gather, ih, get?_upsert, List.filter_cons]
      by_cases same : key b = k
      · simp [same]
      · simp [same, Ne.symm same]

theorem mem_keys_gather (key : β → κ) (f : Option α → β → α) (d : Dict κ α) (records : List β)
    (k : κ) : k ∈ (gather key f d records).keys ↔ k ∈ d.keys ∨ k ∈ records.map key := by
  induction records generalizing d with
  | nil => simp [gather]
  | cons b rest ih =>
      rw [gather, List.foldl_cons, ← gather, ih, mem_keys_upsert, List.map_cons, List.mem_cons]
      tauto

theorem keys_upsert (d : Dict κ α) (k : κ) (f : Option α → α) :
    (d.upsert k f).keys = if k ∈ d.keys then d.keys else d.keys ++ [k] := keys_set _ _ _

theorem keys_gather (key : β → κ) (f : Option α → β → α) (d : Dict κ α) (records : List β) :
    (gather key f d records).keys =
      d.keys ++ (Keyed.firstByKey key (records.filter fun b => key b ∉ d.keys)).map key := by
  induction records generalizing d with
  | nil => simp [gather, Keyed.firstByKey]
  | cons b rest ih =>
      rw [gather, List.foldl_cons, ← gather, ih, keys_upsert]
      by_cases present : key b ∈ d.keys
      · rw [if_pos present, List.filter_cons_of_neg (by simpa using present)]
      · have later : (rest.filter fun c => key c ∉ d.keys ++ [key b]) =
            (rest.filter fun c => key c ∉ d.keys).filter fun c => decide (key c ≠ key b) := by
          rw [List.filter_filter]
          apply List.filter_congr
          intro c _
          simp [not_or, Bool.and_comm]
        rw [if_neg present, List.filter_cons_of_pos (by simpa using present), later,
          Keyed.firstByKey_filter key (fun k => decide (k ≠ key b)), Keyed.firstByKey]
        simp

theorem ofList_eq_gather (pairs : List (κ × α)) :
    ofList pairs = gather Prod.fst (fun _ p => p.2) empty pairs := rfl

theorem keys_ofList (pairs : List (κ × α)) (distinct : (pairs.map Prod.fst).Nodup) :
    (ofList pairs).keys = pairs.map Prod.fst := by
  rw [ofList_eq_gather, keys_gather]
  simp [Keyed.firstByKey_of_nodup Prod.fst pairs distinct]

theorem mem_of_foldl_last (f : β → α) (written : List β) (o : Option α) (v : α)
    (left : written.foldl (fun _ b => some (f b)) o = some v) : o = some v ∨ ∃ b ∈ written, f b = v := by
  induction written generalizing o with
  | nil => exact Or.inl left
  | cons b rest ih =>
      rcases ih (some (f b)) left with here | ⟨b', member, same⟩
      · exact Or.inr ⟨b, List.mem_cons_self, Option.some.inj here⟩
      · exact Or.inr ⟨b', List.mem_cons_of_mem b member, same⟩

theorem mem_of_get?_ofList (pairs : List (κ × α)) (k : κ) (v : α)
    (found : (ofList pairs).get? k = some v) : (k, v) ∈ pairs := by
  rw [ofList_eq_gather, get?_gather] at found
  rcases mem_of_foldl_last Prod.snd _ _ _ found with empty | ⟨p, member, same⟩
  · cases empty
  · obtain ⟨inside, key⟩ := List.mem_filter.mp member
    have own : p = (k, v) := Prod.ext (by simpa using key) same
    exact own ▸ inside

theorem foldl_last (f : β → α) (written : List β) :
    written.foldl (fun _ b => some (f b)) none = written.getLast?.map f := by
  induction written using List.reverseRecOn with
  | nil => rfl
  | append_singleton init b _ => simp

theorem get?_ofList_last (pairs : List (κ × α)) (k : κ) :
    (ofList pairs).get? k = (pairs.filter (·.1 = k)).getLast?.map Prod.snd := by
  rw [ofList_eq_gather, get?_gather, get?_empty, foldl_last]

/-! ## Records indexed by a key of their own -/

/-- `d[key(a)] = a` for each record in turn. -/
def index (key : α → κ) (records : List α) : Dict κ α := gather key (fun _ a => a) empty records

theorem get?_index (key : α → κ) (records : List α) (k : κ) :
    (index key records).get? k = (records.filter (key · = k)).getLast? := by
  rw [index, get?_gather, get?_empty, foldl_last (fun a => a), Option.map_id']

theorem mem_entries_index (key : α → κ) (records : List α) (e : κ × α)
    (member : e ∈ (index key records).entries) : e.2 ∈ records ∧ key e.2 = e.1 := by
  have found := (get?_eq_some_iff _ _ _).mpr member
  rw [index, get?_gather] at found
  rcases mem_of_foldl_last id _ _ _ found with empty | ⟨a, inside, rfl⟩
  · cases empty
  · simpa using inside

theorem entries_index (key : α → κ) (records : List α) :
    (index key records).entries = (index key records).values.map fun a => (key a, a) := by
  rw [values, List.map_map]
  refine (List.map_id' _).symm.trans (List.map_congr_left fun e member => ?_)
  exact Prod.ext (mem_entries_index key records e member).2.symm rfl

theorem mem_of_mem_index (key : α → κ) (records : List α) (a : α)
    (member : a ∈ (index key records).values) : a ∈ records := by
  obtain ⟨e, inside, rfl⟩ := List.mem_map.mp member
  exact (mem_entries_index key records e inside).1

theorem keys_index (key : α → κ) (records : List α) :
    (index key records).values.map key = (index key records).keys := by
  rw [keys, entries_index, List.map_map]
  rfl

theorem index_values (key : α → κ) (records : List α) :
    index key (index key records).values = index key records := by
  have written : index key (index key records).values =
      ofList ((index key records).values.map fun a => (key a, a)) := by
    rw [ofList, List.foldl_map]
    rfl
  rw [written, ← entries_index, ofList_entries]

/-- Records under their keys, where the first one written stays. -/
def keepFirst (key : α → κ) (records : List α) : Dict κ α :=
  records.foldl (fun d a => if key a ∈ d.keys then d else d.set (key a) a) empty

theorem entries_keepFirst (key : α → κ) (records : List α) :
    (keepFirst key records).entries = (Keyed.firstByKey key records).map fun a => (key a, a) := by
  induction records using List.reverseRecOn with
  | nil => rfl
  | append_singleton records a ih =>
      have keys : (keepFirst key records).keys = (Keyed.firstByKey key records).map key := by
        rw [Dict.keys, ih, List.map_map]
        rfl
      have known : key a ∈ (keepFirst key records).keys ↔ key a ∈ records.map key := by
        rw [keys, Keyed.mem_keys_firstByKey]
      have step : keepFirst key (records ++ [a]) =
          if key a ∈ (keepFirst key records).keys then keepFirst key records
          else (keepFirst key records).set (key a) a := by
        rw [keepFirst, List.foldl_append]
        rfl
      rw [step, Keyed.firstByKey_concat]
      by_cases present : key a ∈ records.map key
      · rw [if_pos present, if_pos (known.mpr present), ih]
      · rw [if_neg present, if_neg (fun here => present (known.mp here)), Dict.set,
          dif_neg (fun here => present (known.mp here)), List.map_append, ← ih]
        rfl

theorem values_keepFirst (key : α → κ) (records : List α) :
    (keepFirst key records).values = Keyed.firstByKey key records := by
  rw [values, entries_keepFirst, List.map_map]
  exact List.map_id' _

/-- Lists gathered under their keys: `d.setdefault(key(b), []).append(b)`. -/
def groupBy (key : β → κ) (records : List β) : Dict κ (List β) :=
  gather key (fun o b => o.getD [] ++ [b]) empty records

theorem foldl_append (o : Option (List β)) (records : List β) :
    records.foldl (fun o b => some (o.getD [] ++ [b])) o =
      if records = [] then o else some (o.getD [] ++ records) := by
  induction records generalizing o with
  | nil => rfl
  | cons b rest ih =>
      rw [List.foldl_cons, ih]
      by_cases last : rest = [] <;> simp [last]

theorem get?_groupBy (key : β → κ) (records : List β) (k : κ) :
    (groupBy key records).get? k =
      if k ∈ records.map key then some (records.filter (key · = k)) else none := by
  rw [groupBy, get?_gather, foldl_append, get?_empty]
  by_cases present : k ∈ records.map key
  · have nonempty : records.filter (key · = k) ≠ [] := by
      obtain ⟨b, member, same⟩ := List.mem_map.mp present
      exact List.ne_nil_of_mem (List.mem_filter.mpr ⟨member, by simpa using same⟩)
    simp [present, nonempty]
  · have none : records.filter (key · = k) = [] := by
      rw [List.filter_eq_nil_iff]
      intro b member same
      exact present (List.mem_map.mpr ⟨b, member, by simpa using same⟩)
    rw [if_pos none, if_neg present]

theorem mem_keys_groupBy (key : β → κ) (records : List β) (k : κ) :
    k ∈ (groupBy key records).keys ↔ k ∈ records.map key := by
  simp [groupBy, mem_keys_gather]

theorem values_groupBy (key : β → κ) (records : List β) :
    (groupBy key records).values =
      (groupBy key records).keys.map fun k => records.filter (key · = k) := by
  apply List.map_injective_iff.mpr (Option.some_injective _)
  rw [values_eq, List.map_map]
  apply List.map_congr_left
  intro k present
  rw [get?_groupBy, if_pos ((mem_keys_groupBy key records k).mp present)]
  rfl

theorem mem_values_groupBy (key : β → κ) (records group : List β)
    (member : group ∈ (groupBy key records).values) :
    ∃ k ∈ records.map key, group = records.filter (key · = k) := by
  rw [values_groupBy] at member
  obtain ⟨k, present, rfl⟩ := List.mem_map.mp member
  exact ⟨k, (mem_keys_groupBy key records k).mp present, rfl⟩

end Dict
end EconomicLedger
