import Mathlib.Data.Finset.Dedup
import Mathlib.Data.Finset.Filter
import Mathlib.Data.List.Perm.Basic
import Mathlib.Data.List.Perm.Subperm

/-!
# Combinations

`combinations k l` lists the `k`-element sublists of `l` in the order of `itertools.combinations`:
lexicographic in the positions of the chosen elements.
-/

namespace EconomicLedger
variable {α : Type*}

def combinations : Nat → List α → List (List α)
  | 0, _ => [[]]
  | _ + 1, [] => []
  | k + 1, x :: xs => (combinations k xs).map (x :: ·) ++ combinations (k + 1) xs

theorem mem_combinations {k : Nat} {l s : List α} :
    s ∈ combinations k l ↔ s.Sublist l ∧ s.length = k := by
  induction l generalizing k s with
  | nil =>
      cases k with
      | zero => simp [combinations]
      | succ k =>
          simp only [combinations, List.not_mem_nil, List.sublist_nil, false_iff, not_and]
          rintro rfl
          simp
  | cons x xs ih =>
      cases k with
      | zero => simp +contextual [combinations, List.length_eq_zero_iff]
      | succ k =>
          simp only [combinations, List.mem_append, List.mem_map, ih, List.sublist_cons_iff]
          constructor
          · rintro (⟨t, ⟨sub, size⟩, rfl⟩ | ⟨sub, size⟩)
            · exact ⟨Or.inr ⟨t, rfl, sub⟩, by simp [size]⟩
            · exact ⟨Or.inl sub, size⟩
          · rintro ⟨sub | ⟨t, rfl, sub⟩, size⟩
            · exact Or.inr ⟨sub, size⟩
            · exact Or.inl ⟨t, ⟨sub, by simpa using size⟩, rfl⟩

theorem exists_perm_combination {k : Nat} {l l' s : List α} (reordered : l.Perm l')
    (member : s ∈ combinations k l) : ∃ s' ∈ combinations k l', s'.Perm s := by
  obtain ⟨sub, size⟩ := mem_combinations.mp member
  obtain ⟨s', same, sub'⟩ : s.Subperm l' := sub.subperm.trans reordered.subperm
  exact ⟨s', mem_combinations.mpr ⟨sub', same.length_eq.trans size⟩, same⟩

theorem exists_sublist_toFinset [DecidableEq α] {l : List α} {s : Finset α}
    (inside : s ⊆ l.toFinset) : ∃ t : List α, t.Sublist l ∧ t.toFinset = s := by
  refine ⟨l.filter fun a => decide (a ∈ s), List.filter_sublist, ?_⟩
  ext a
  rw [List.mem_toFinset, List.mem_filter, decide_eq_true_eq]
  exact ⟨fun both => both.2, fun member => ⟨List.mem_toFinset.mp (inside member), member⟩⟩

/-! ## Searching by size -/

/-- The first combination with a property, over sizes from `low` on. -/
def searchCombinations (p : List α → Bool) (low count : Nat) (l : List α) : Option (List α) :=
  (List.range' low count).findSome? fun k => (combinations k l).find? p

/-- The combination with a property that has the fewest elements, the earliest of its size. -/
structure FirstSmallest (p : List α → Bool) (low high : Nat) (l s : List α) : Prop where
  holds : p s = true
  sized : low ≤ s.length ∧ s.length < high
  smallest : ∀ t, t.Sublist l → low ≤ t.length → t.length < s.length → p t = false
  first : ∃ before after, combinations s.length l = before ++ s :: after ∧ ∀ t ∈ before, p t = false

theorem FirstSmallest.sublist {p : List α → Bool} {low high : Nat} {l s : List α}
    (found : FirstSmallest p low high l s) : s.Sublist l := by
  obtain ⟨before, after, split, -⟩ := found.first
  have member : s ∈ combinations s.length l := by simp [split]
  exact (mem_combinations.mp member).1

theorem findSome?_increasing_iff {β : Type*} {sizes : List Nat} (increasing : sizes.Pairwise (· < ·))
    (f : Nat → Option β) (b : β) :
    sizes.findSome? f = some b ↔ ∃ k ∈ sizes, f k = some b ∧ ∀ j ∈ sizes, j < k → f j = none := by
  induction sizes with
  | nil => simp
  | cons k rest ih =>
      obtain ⟨least, increasing⟩ := List.pairwise_cons.mp increasing
      rw [List.findSome?_cons]
      cases here : f k with
      | some b' =>
          constructor
          · rintro ⟨⟩
            refine ⟨k, List.mem_cons_self, here, fun j member below => ?_⟩
            rcases List.mem_cons.mp member with rfl | later
            · exact absurd below (Nat.lt_irrefl j)
            · exact absurd (least j later) (Nat.lt_asymm below)
          · rintro ⟨j, member, yields, none⟩
            rcases List.mem_cons.mp member with rfl | later
            · exact here.symm.trans yields
            · have := none k List.mem_cons_self (least j later)
              simp [here] at this
      | none =>
          simp only [ih increasing, List.mem_cons]
          constructor
          · rintro ⟨j, member, yields, none⟩
            refine ⟨j, Or.inr member, yields, ?_⟩
            rintro i (rfl | later) below
            · exact here
            · exact none i later below
          · rintro ⟨j, rfl | member, yields, none⟩
            · simp [here] at yields
            · exact ⟨j, member, yields, fun i later => none i (Or.inr later)⟩

theorem searchCombinations_eq_some_iff (p : List α → Bool) (low count : Nat) (l s : List α) :
    searchCombinations p low count l = some s ↔ FirstSmallest p low (low + count) l s := by
  unfold searchCombinations
  rw [findSome?_increasing_iff List.pairwise_lt_range']
  simp only [List.mem_range'_1, List.find?_eq_some_iff_append, List.find?_eq_none]
  constructor
  · rintro ⟨k, ⟨atLeast, atMost⟩, ⟨holds, before, after, split, none⟩, smaller⟩
    have member : s ∈ combinations k l := by simp [split]
    obtain rfl := (mem_combinations.mp member).2
    refine ⟨holds, ⟨atLeast, atMost⟩, ?_, before, after, split, by simpa using none⟩
    intro t sub large small
    simpa using smaller t.length ⟨large, by omega⟩ small t (mem_combinations.mpr ⟨sub, rfl⟩)
  · rintro ⟨holds, ⟨atLeast, atMost⟩, smallest, before, after, split, none⟩
    refine ⟨s.length, ⟨atLeast, atMost⟩, ⟨holds, before, after, split, by simpa using none⟩, ?_⟩
    rintro j ⟨large, -⟩ small t member
    obtain ⟨sub, rfl⟩ := mem_combinations.mp member
    simpa using smallest t sub large small

theorem searchCombinations_isSome_iff (p : List α → Bool) (low count : Nat) (l : List α) :
    (searchCombinations p low count l).isSome ↔
      ∃ t, t.Sublist l ∧ low ≤ t.length ∧ t.length < low + count ∧ p t = true := by
  simp only [searchCombinations, List.findSome?_isSome_iff, List.find?_isSome, List.mem_range'_1]
  constructor
  · rintro ⟨k, ⟨atLeast, atMost⟩, t, member, holds⟩
    obtain ⟨sub, rfl⟩ := mem_combinations.mp member
    exact ⟨t, sub, atLeast, atMost, holds⟩
  · rintro ⟨t, sub, atLeast, atMost, holds⟩
    exact ⟨t.length, ⟨atLeast, atMost⟩, t, mem_combinations.mpr ⟨sub, rfl⟩, holds⟩

theorem searchCombinations_isSome_perm (p : List α → Bool)
    (unordered : ∀ s s' : List α, s.Perm s' → p s = p s') (low count : Nat) {l l' : List α}
    (reordered : l.Perm l') :
    (searchCombinations p low count l).isSome ↔ (searchCombinations p low count l').isSome := by
  have half : ∀ {l l' : List α}, l.Perm l' → (searchCombinations p low count l).isSome →
      (searchCombinations p low count l').isSome := by
    intro l l' reordered found
    rw [searchCombinations_isSome_iff] at found ⊢
    obtain ⟨t, sub, atLeast, atMost, holds⟩ := found
    obtain ⟨t', member, same⟩ :=
      exists_perm_combination reordered (mem_combinations.mpr ⟨sub, rfl⟩)
    obtain ⟨sub', size⟩ := mem_combinations.mp member
    exact ⟨t', sub', size ▸ atLeast, size ▸ atMost, (unordered t' t same).trans holds⟩
  exact ⟨half reordered, half reordered.symm⟩

end EconomicLedger
