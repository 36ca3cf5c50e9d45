import EconomicLedger.Lib.Combinations

/-!
# Earlier combinations

`Precedes l s t` says that `s` comes before `t` when sets are compared along `l`: of the elements of
only one of them, the earliest belongs to `s`. `combinations` lists its sets in this order. Whether
some list decides given comparisons as wanted is a question about the sets alone, answered as in a
topological sort.
-/

namespace EconomicLedger
variable {α : Type*}

def Precedes (l s t : List α) : Prop :=
  ∃ x ∈ s, x ∉ t ∧ ∀ y ∈ t, y ∉ s → [x, y].Sublist l

theorem Precedes.mono {l l' s t : List α} (inside : l.Sublist l') (earlier : Precedes l s t) :
    Precedes l' s t := by
  obtain ⟨x, own, other, first⟩ := earlier
  exact ⟨x, own, other, fun y right left => (first y right left).trans inside⟩

theorem Precedes.congr {l s s' t t' : List α} (left : ∀ x, x ∈ s ↔ x ∈ s') (right : ∀ x, x ∈ t ↔ x ∈ t')
    (earlier : Precedes l s t) : Precedes l s' t' := by
  obtain ⟨x, own, other, first⟩ := earlier
  refine ⟨x, (left x).mp own, (right x).not.mp other, fun y member missing => ?_⟩
  exact first y ((right y).mpr member) ((left y).not.mpr missing)

theorem pair_sublist_asymm {l : List α} (distinct : l.Nodup) {x y : α} (before : [x, y].Sublist l) :
    ¬ [y, x].Sublist l := by
  induction l with
  | nil => simp at before
  | cons z rest ih =>
      obtain ⟨fresh, distinct⟩ := List.nodup_cons.mp distinct
      intro after
      cases before with
      | cons _ before =>
          cases after with
          | cons _ after => exact ih distinct before after
          | cons_cons _ after => exact fresh (before.subset (by simp))
      | cons_cons _ before =>
          cases after with
          | cons _ after => exact fresh (after.subset (by simp))
          | cons_cons _ after => exact fresh (List.singleton_sublist.mp before)

theorem Precedes.asymm {l s t : List α} (distinct : l.Nodup) (earlier : Precedes l s t) :
    ¬ Precedes l t s := by
  rintro ⟨y, right, left, last⟩
  obtain ⟨x, own, other, first⟩ := earlier
  exact pair_sublist_asymm distinct (first y right left) (last x own other)

/-! ## The order of the combinations -/

theorem combinations_precede {l : List α} (distinct : l.Nodup) (k : Nat) :
    (combinations k l).Pairwise (Precedes l) := by
  induction l generalizing k with
  | nil => cases k <;> simp [combinations]
  | cons x xs ih =>
      obtain ⟨fresh, distinct⟩ := List.nodup_cons.mp distinct
      cases k with
      | zero => simp [combinations]
      | succ k =>
          rw [combinations, List.pairwise_append, List.pairwise_map]
          refine ⟨?_, (ih distinct (k + 1)).imp (Precedes.mono (List.sublist_cons_self x xs)), ?_⟩
          · refine (ih distinct k).imp_of_mem ?_
            rintro s t chosen - ⟨z, own, other, first⟩
            have new : z ≠ x := fun same =>
              fresh (same ▸ (mem_combinations.mp chosen).1.subset own)
            refine ⟨z, List.mem_cons_of_mem x own, by simp [new, other], fun y right left => ?_⟩
            simp only [List.mem_cons, not_or] at left right
            exact (first y (right.resolve_left left.1) left.2).cons x
          · intro s chosen t later
            obtain ⟨s, -, rfl⟩ := List.mem_map.mp chosen
            have inside : t.Sublist xs := (mem_combinations.mp later).1
            refine ⟨x, List.mem_cons_self, fun own => fresh (inside.subset own), fun y right _ => ?_⟩
            exact (List.singleton_sublist.mpr (inside.subset right)).cons_cons x

/-- What a search finds comes before every other set of its size with the property. -/
theorem FirstSmallest.precedes {p : List α → Bool} {low high : Nat} {l s t : List α}
    (distinct : l.Nodup) (found : FirstSmallest p low high l s) (inside : t.Sublist l)
    (size : t.length = s.length) (holds : p t = true) : t = s ∨ Precedes l s t := by
  obtain ⟨before, after, split, none⟩ := found.first
  have member : t ∈ before ++ s :: after := split ▸ mem_combinations.mpr ⟨inside, size⟩
  have ordered := split ▸ combinations_precede distinct s.length
  rcases List.mem_append.mp member with early | member
  · exact absurd holds (by simp [none t early])
  · rcases List.mem_cons.mp member with same | late
    · exact Or.inl same
    · exact Or.inr (List.rel_of_pairwise_cons (List.pairwise_append.mp ordered).2.1 late)

/-! ## Lists that decide comparisons -/

/-- Among any of the comparisons some element decides one for its first set and none for its second. -/
def Orderable (wins : List α → List α → Prop) : Prop :=
  ∀ pairs : List (List α × List α), pairs ≠ [] → (∀ pair ∈ pairs, wins pair.1 pair.2) →
    ∃ x, (∃ pair ∈ pairs, x ∈ pair.1 ∧ x ∉ pair.2) ∧ ∀ pair ∈ pairs, x ∈ pair.2 → x ∈ pair.1

theorem exists_earliest {l : List α} (distinct : l.Nodup) (P : α → Prop) (some : ∃ x ∈ l, P x) :
    ∃ x, P x ∧ ∀ y, P y → ¬ [y, x].Sublist l := by
  induction l with
  | nil => simp at some
  | cons x xs ih =>
      obtain ⟨fresh, distinct⟩ := List.nodup_cons.mp distinct
      by_cases first : P x
      · refine ⟨x, first, fun y _ before => ?_⟩
        cases before with
        | cons _ before => exact fresh (before.subset (by simp))
        | cons_cons _ before => exact fresh (List.singleton_sublist.mp before)
      · obtain ⟨z, member, holds⟩ := some
        have later : z ∈ xs :=
          (List.mem_cons.mp member).resolve_left fun same => first (same ▸ holds)
        obtain ⟨w, holds, earliest⟩ := ih distinct ⟨z, later, holds⟩
        refine ⟨w, holds, fun y other before => ?_⟩
        cases before with
        | cons _ before => exact earliest y other before
        | cons_cons _ before => exact first other

theorem orderable_of_precedes {l : List α} (distinct : l.Nodup) {wins : List α → List α → Prop}
    (inside : ∀ s t, wins s t → s ⊆ l) (decided : ∀ s t, wins s t → Precedes l s t) :
    Orderable wins := by
  intro pairs nonempty won
  obtain ⟨pair, member⟩ := List.exists_mem_of_ne_nil _ nonempty
  obtain ⟨x, own, other, first⟩ := decided _ _ (won pair member)
  -- the earliest element that decides one of the comparisons
  let deciding : α → Prop := fun z => ∃ pair ∈ pairs, (z ∈ pair.1 ∧ z ∉ pair.2) ∧
    ∀ y ∈ pair.2, y ∉ pair.1 → [z, y].Sublist l
  obtain ⟨z, ⟨pair', member', differs, -⟩, earliest⟩ := exists_earliest distinct deciding
    ⟨x, inside _ _ (won pair member) own, pair, member, ⟨own, other⟩, first⟩
  refine ⟨z, ⟨pair', member', differs⟩, fun rival isRival right => ?_⟩
  by_contra left
  obtain ⟨y, own, other, first⟩ := decided _ _ (won rival isRival)
  exact earliest y ⟨rival, isRival, ⟨own, other⟩, first⟩ (first z right left)

/-- Comparisons that are orderable are decided by some order of the elements: an element that decides
one and loses none goes first, and the comparisons it decides are done. -/
theorem exists_order [DecidableEq α] (pairs : List (List α × List α)) (u : List α)
    (orderable : Orderable fun s t => (s, t) ∈ pairs)
    (inside : ∀ pair ∈ pairs, ∀ x, ¬ (x ∈ pair.1 ↔ x ∈ pair.2) → x ∈ u) :
    ∃ l : List α, l.Perm u ∧ ∀ pair ∈ pairs, Precedes l pair.1 pair.2 := by
  induction size : pairs.length using Nat.strong_induction_on generalizing pairs u with
  | h n ih =>
      subst size
      by_cases nonempty : pairs = []
      · exact ⟨u, List.Perm.refl u, by simp [nonempty]⟩
      · obtain ⟨x, ⟨decided, member, own, other⟩, safe⟩ :=
          orderable pairs nonempty fun _ member => member
        let rest := pairs.filter fun pair => x ∈ pair.1 ↔ x ∈ pair.2
        have fewer : rest.length < pairs.length :=
          List.length_filter_lt_length_iff_exists.mpr ⟨decided, member, by simp [own, other]⟩
        have sub : ∀ pair ∈ rest, pair ∈ pairs := fun pair => List.mem_of_mem_filter
        have inside' : ∀ pair ∈ rest, ∀ z, ¬ (z ∈ pair.1 ↔ z ∈ pair.2) → z ∈ u.erase x := by
          intro pair kept z differs
          have neutral : x ∈ pair.1 ↔ x ∈ pair.2 := by simpa using List.of_mem_filter kept
          refine (List.mem_erase_of_ne fun same => ?_).mpr (inside pair (sub pair kept) z differs)
          exact differs (same ▸ neutral)
        obtain ⟨l, same, ordered⟩ := ih rest.length fewer rest (u.erase x)
          (fun some nonempty within => orderable some nonempty fun pair kept =>
            sub pair (within pair kept)) inside' rfl
        have first : x ∈ u := inside decided member x (by simp [own, other])
        refine ⟨x :: l, (same.cons x).trans (List.perm_cons_erase first).symm, fun pair here => ?_⟩
        by_cases neutral : x ∈ pair.1 ↔ x ∈ pair.2
        · exact (ordered pair (List.mem_filter.mpr ⟨here, by simpa using neutral⟩)).mono
            (List.sublist_cons_self x l)
        · have left : x ∈ pair.1 ∧ x ∉ pair.2 := by
            have := safe pair here
            tauto
          refine ⟨x, left.1, left.2, fun y right missing => ?_⟩
          have new : y ≠ x := fun equal => left.2 (equal ▸ right)
          have later : y ∈ u.erase x :=
            (List.mem_erase_of_ne new).mpr (inside pair here y (by simp [right, missing]))
          exact (List.singleton_sublist.mpr (same.mem_iff.mpr later)).cons_cons x

end EconomicLedger
