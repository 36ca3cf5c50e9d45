import Mathlib.Algebra.BigOperators.Group.List.Basic
import Mathlib.Data.List.Nodup
import Mathlib.Tactic.Tauto

/-!
# Joins of tables

A table is a list of rows. An inner join pairs the rows that match; a left join keeps a left row
without a match once, beside nothing.
-/

namespace EconomicLedger.Relational
variable {α β κ : Type*} (on : α → β → Bool)

def innerJoin (left : List α) (right : List β) : List (α × β) :=
  left.flatMap fun a => (right.filter (on a)).map fun b => (a, b)

def leftJoin (left : List α) (right : List β) : List (α × Option β) :=
  left.flatMap fun a =>
    match right.filter (on a) with
    | [] => [(a, none)]
    | matched => matched.map fun b => (a, some b)

theorem mem_innerJoin {left : List α} {right : List β} {a : α} {b : β} :
    (a, b) ∈ innerJoin on left right ↔ a ∈ left ∧ b ∈ right ∧ on a b = true := by
  simp only [innerJoin, List.mem_flatMap, List.mem_map, List.mem_filter, Prod.mk.injEq]
  constructor
  · rintro ⟨a', member, b', ⟨memberB, matched⟩, rfl, rfl⟩
    exact ⟨member, memberB, matched⟩
  · rintro ⟨member, memberB, matched⟩
    exact ⟨a, member, b, ⟨memberB, matched⟩, rfl, rfl⟩

theorem innerJoin_cons (a : α) (rest : List α) (right : List β) :
    innerJoin on (a :: rest) right =
      (right.filter (on a)).map (fun b => (a, b)) ++ innerJoin on rest right := rfl

theorem innerJoin_filter (p : α → Bool) (left : List α) (right : List β) :
    innerJoin on (left.filter p) right = (innerJoin on left right).filter fun pair => p pair.1 := by
  induction left with
  | nil => rfl
  | cons a rest ih =>
      rw [innerJoin_cons, List.filter_append, ← ih, List.filter_map]
      cases chosen : p a with
      | true =>
          rw [List.filter_cons_of_pos chosen, innerJoin_cons]
          simp [Function.comp_def, chosen]
      | false =>
          rw [List.filter_cons_of_neg (by simp [chosen])]
          simp [Function.comp_def, chosen]

theorem mem_leftJoin {left : List α} {right : List β} {row : α × Option β} :
    row ∈ leftJoin on left right ↔ row.1 ∈ left ∧ row ∈ leftJoin on [row.1] right := by
  simp only [leftJoin, List.mem_flatMap, List.mem_singleton]
  constructor
  · rintro ⟨a, member, here⟩
    have own : row.1 = a := by
      split at here
      · rw [List.mem_singleton.mp here]
      · obtain ⟨b, -, rfl⟩ := List.mem_map.mp here
        rfl
    subst own
    exact ⟨member, row.1, rfl, here⟩
  · rintro ⟨member, a, rfl, here⟩
    exact ⟨row.1, member, here⟩

theorem exists_mem_leftJoin {left : List α} (right : List β) {a : α} (member : a ∈ left) :
    ∃ row ∈ leftJoin on left right, row.1 = a := by
  cases matched : right.filter (on a) with
  | nil => exact ⟨(a, none), List.mem_flatMap.mpr ⟨a, member, by simp [matched]⟩, rfl⟩
  | cons b rest => exact ⟨(a, some b), List.mem_flatMap.mpr ⟨a, member, by simp [matched]⟩, rfl⟩

theorem filter_length_le_one [DecidableEq κ] {right : List β} (key : β → κ)
    (unique : (right.map key).Nodup) (p : β → Bool) (k : κ) (fixed : ∀ b, p b = true → key b = k) :
    (right.filter p).length ≤ 1 := by
  have distinct : ((right.filter p).map key).Nodup :=
    unique.sublist (List.filter_sublist.map key)
  match located : right.filter p with
  | [] => simp
  | [b] => simp
  | b :: b' :: rest =>
      have members : ∀ c ∈ [b, b'], c ∈ right.filter p := by
        intro c member
        rw [located]
        simp only [List.mem_cons, List.not_mem_nil, or_false] at member ⊢
        tauto
      have first := fixed b (List.mem_filter.mp (members b (by simp))).2
      have second := fixed b' (List.mem_filter.mp (members b' (by simp))).2
      rw [located] at distinct
      simp [first, second] at distinct

theorem innerJoin_left {left : List α} {right : List β}
    (single : ∀ a ∈ left, (right.filter (on a)).length ≤ 1) :
    (innerJoin on left right).map Prod.fst = left.filter fun a => right.any (on a) := by
  induction left with
  | nil => rfl
  | cons a rest ih =>
      have tail := ih fun b member => single b (List.mem_cons_of_mem _ member)
      rw [innerJoin, List.flatMap_cons, ← innerJoin, List.map_append, tail, List.filter_cons]
      have one := single a List.mem_cons_self
      match located : right.filter (on a) with
      | [] =>
          have absent : right.any (on a) = false := by
            rw [List.any_eq_false]
            exact fun b member => by simpa using List.filter_eq_nil_iff.mp located b member
          simp [absent]
      | [b] =>
          have found := List.mem_filter.mp (located ▸ List.mem_cons_self : b ∈ right.filter (on a))
          have present : right.any (on a) = true := List.any_eq_true.mpr ⟨b, found.1, found.2⟩
          simp [present]
      | _ :: _ :: _ => simp [located] at one

theorem leftJoin_left {left : List α} {right : List β}
    (single : ∀ a ∈ left, (right.filter (on a)).length ≤ 1) :
    (leftJoin on left right).map Prod.fst = left := by
  induction left with
  | nil => rfl
  | cons a rest ih =>
      have tail := ih fun b member => single b (List.mem_cons_of_mem _ member)
      rw [leftJoin, List.flatMap_cons, ← leftJoin, List.map_append, tail]
      have one := single a List.mem_cons_self
      match located : right.filter (on a) with
      | [] => simp
      | [b] => simp
      | _ :: _ :: _ => simp [located] at one

/-- What a left join sets beside a row. -/
def partners (right : List β) (a : α) : List (Option β) :=
  match right.filter (on a) with
  | [] => [none]
  | matched => matched.map some

theorem leftJoin_eq (left : List α) (right : List β) :
    leftJoin on left right = left.flatMap fun a => (partners on right a).map fun o => (a, o) := by
  apply List.flatMap_congr
  intro a _
  unfold partners
  split
  · rfl
  · rw [List.map_map]
    rfl

theorem length_partners (right : List β) (a : α) :
    (partners on right a).length = max 1 (right.filter (on a)).length := by
  unfold partners
  split
  next none => rw [none, List.length_singleton, List.length_nil, Nat.max_zero]
  next nonempty =>
    have some := List.length_pos_of_ne_nil nonempty
    rw [List.length_map]
    omega

theorem leftJoin_filter (p : α → Bool) (left : List α) (right : List β) :
    leftJoin on (left.filter p) right = (leftJoin on left right).filter fun row => p row.1 := by
  rw [leftJoin_eq, leftJoin_eq, List.filter_flatMap]
  induction left with
  | nil => rfl
  | cons a rest ih =>
      rw [List.flatMap_cons, ← ih, List.filter_map]
      cases chosen : p a with
      | true =>
          rw [List.filter_cons_of_pos chosen, List.flatMap_cons]
          simp [Function.comp_def, chosen]
      | false =>
          rw [List.filter_cons_of_neg (by simp [chosen])]
          simp [Function.comp_def, chosen]

/-! ## Selections -/

section Selections
variable {p q r : β → Prop} [DecidablePred p] [DecidablePred q] [DecidablePred r]

theorem filter_where (rows : List β) (both : ∀ b, q b ∧ p b ↔ r b) :
    (rows.filter fun b => p b).filter (fun b => q b) = rows.filter fun b => r b := by
  rw [List.filter_filter]
  apply List.filter_congr
  intro b _
  rw [← Bool.decide_and]
  exact decide_eq_decide.mpr (both b)

theorem filter_where_not (rows : List β) (both : ∀ b, ¬q b ∧ p b ↔ r b) :
    (rows.filter fun b => p b).filter (fun b => !decide (q b)) = rows.filter fun b => r b := by
  simp only [← decide_not]
  exact filter_where rows both

end Selections

/-! ## Totals -/

variable {γ : Type*} [AddCommMonoid γ]

theorem sum_where (p : β → Bool) (measure : β → γ) (rows : List β) :
    ((rows.filter p).map measure).sum = (rows.map fun b => if p b then measure b else 0).sum := by
  induction rows with
  | nil => rfl
  | cons b rest ih =>
      rw [List.map_cons, List.sum_cons, ← ih, List.filter_cons]
      cases p b with
      | true => rfl
      | false => exact (zero_add _).symm

theorem sum_at_matches (measure : α → γ) {left : List α} {right : List β}
    (single : ∀ a ∈ left, (right.filter (on a)).length = 1) :
    (left.map measure).sum =
      (right.map fun b => ((left.filter fun a => on a b).map measure).sum).sum := by
  induction left with
  | nil => simp
  | cons a rest ih =>
      have tail := ih fun a' member => single a' (List.mem_cons_of_mem _ member)
      have own : measure a = (right.map fun b => if on a b then measure a else 0).sum := by
        obtain ⟨b, matched⟩ := List.length_eq_one_iff.mp (single a List.mem_cons_self)
        rw [← sum_where (on a) (fun _ => measure a), matched, List.map_singleton, List.sum_singleton]
      rw [List.map_cons, List.sum_cons, tail, own, ← List.sum_map_add]
      congr 1
      apply List.map_congr_left
      intro b _
      rw [List.filter_cons]
      cases on a b with
      | true => rfl
      | false => exact zero_add _

theorem sum_swap (left : List α) (right : List β) (measure : α → β → γ) :
    (left.map fun a => (right.map fun b => measure a b).sum).sum =
      (right.map fun b => (left.map fun a => measure a b).sum).sum := by
  induction left with
  | nil => simp
  | cons a rest ih => simp only [List.map_cons, List.sum_cons, ih, List.sum_map_add]

theorem sum_innerJoin (measure : α → β → γ) (left : List α) (right : List β) :
    ((innerJoin on left right).map fun pair => measure pair.1 pair.2).sum =
      (left.map fun a => ((right.filter (on a)).map fun b => measure a b).sum).sum := by
  induction left with
  | nil => rfl
  | cons a rest ih =>
      rw [innerJoin_cons, List.map_append, List.sum_append, ih, List.map_map, List.map_cons,
        List.sum_cons]
      rfl

theorem sum_leftJoin (measure : α × Option β → γ) (left : List α) (right : List β) :
    ((leftJoin on left right).map measure).sum =
      (left.map fun a => ((partners on right a).map fun o => measure (a, o)).sum).sum := by
  rw [leftJoin_eq]
  induction left with
  | nil => rfl
  | cons a rest ih =>
      rw [List.flatMap_cons, List.map_append, List.sum_append, ih, List.map_map, List.map_cons,
        List.sum_cons]
      rfl

/-- A measure of the left row is counted once for every partner. -/
theorem sum_leftJoin_left (measure : α → γ) (left : List α) (right : List β) :
    ((leftJoin on left right).map fun row => measure row.1).sum =
      (left.map fun a => max 1 (right.filter (on a)).length • measure a).sum := by
  rw [sum_leftJoin]
  apply congrArg List.sum
  apply List.map_congr_left
  intro a _
  simp only [List.map_const', List.sum_replicate, length_partners]

theorem sum_leftJoin_right (measure : α → β → γ) (left : List α) (right : List β) :
    ((leftJoin on left right).map fun row => (row.2.map (measure row.1)).getD 0).sum =
      (left.map fun a => ((right.filter (on a)).map (measure a)).sum).sum := by
  rw [sum_leftJoin]
  apply congrArg List.sum
  apply List.map_congr_left
  intro a _
  unfold partners
  split
  next none => simp [none]
  next => rw [List.map_map]; rfl

end EconomicLedger.Relational
