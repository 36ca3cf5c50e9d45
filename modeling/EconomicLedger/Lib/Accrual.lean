import Mathlib.Algebra.BigOperators.Group.List.Basic
import Mathlib.Algebra.Order.BigOperators.Group.Finset
import Mathlib.Order.Interval.Finset.Nat

/-!
# Weights over time

A spell carries a weight from its start on, up to its end if it has one. The levels of a list of
spells sum over time to the lengths of the spells times their weights.
-/

namespace EconomicLedger.Accrual
open Finset

structure Spell (M : Type*) where
  start : Nat
  stop : Option Nat
  weight : M

variable {M : Type*}

def Spell.activeAt (s : Spell M) (t : Nat) : Bool := s.start ≤ t && s.stop.all (t < ·)

/-- The end of the part of a spell that lies before `n`. -/
def Spell.stopBefore (s : Spell M) (n : Nat) : Nat := min (s.stop.getD n) n

theorem Spell.filter_activeAt (s : Spell M) (n : Nat) :
    {t ∈ range n | s.activeAt t = true} = Ico s.start (s.stopBefore n) := by
  ext t
  simp only [mem_filter, mem_range, mem_Ico, activeAt, stopBefore, Bool.and_eq_true, decide_eq_true_eq]
  cases s.stop with
  | none =>
      simp only [Option.all_none, Option.getD_none, and_true]
      omega
  | some e =>
      simp only [Option.all_some, Option.getD_some, decide_eq_true_eq]
      omega

variable [AddCommMonoid M]

def level (spells : List (Spell M)) (t : Nat) : M := ((spells.filter (·.activeAt t)).map Spell.weight).sum

def Spell.accrued (s : Spell M) (n : Nat) : M := (s.stopBefore n - s.start) • s.weight

theorem level_cons (s : Spell M) (rest : List (Spell M)) (t : Nat) :
    level (s :: rest) t = (if s.activeAt t = true then s.weight else 0) + level rest t := by
  rw [level, List.filter_cons]
  split
  · rw [List.map_cons, List.sum_cons]
    rfl
  · exact (zero_add _).symm

theorem level_append (spells spells' : List (Spell M)) (t : Nat) :
    level (spells ++ spells') t = level spells t + level spells' t := by
  rw [level, List.filter_append, List.map_append, List.sum_append]
  rfl

theorem sum_activeAt (s : Spell M) (n : Nat) :
    ∑ t ∈ range n, (if s.activeAt t = true then s.weight else 0) = s.accrued n := by
  rw [← sum_filter, s.filter_activeAt, sum_const, Nat.card_Ico]
  rfl

theorem sum_level (spells : List (Spell M)) (n : Nat) :
    ∑ t ∈ range n, level spells t = (spells.map (·.accrued n)).sum := by
  induction spells with
  | nil => simp [level]
  | cons s rest ih =>
      simp only [level_cons]
      rw [sum_add_distrib, sum_activeAt, ih, List.map_cons, List.sum_cons]

/-! ## Growth and locality -/

theorem sum_level_mono [PartialOrder M] [IsOrderedAddMonoid M] (spells : List (Spell M))
    (nonneg : ∀ s ∈ spells, 0 ≤ s.weight) {n n' : Nat} (le : n ≤ n') :
    ∑ t ∈ range n, level spells t ≤ ∑ t ∈ range n', level spells t := by
  apply sum_le_sum_of_subset_of_nonneg (range_mono le)
  intro t _ _
  apply List.sum_nonneg
  intro weight member
  obtain ⟨s, active, rfl⟩ := List.mem_map.mp member
  exact nonneg s (List.mem_filter.mp active).1

/-- Spells of one weight that are active at the same times before `n`. -/
def Spell.AlikeBefore (n : Nat) (s s' : Spell M) : Prop :=
  s.weight = s'.weight ∧ ∀ t < n, s.activeAt t = s'.activeAt t

theorem level_congr {n : Nat} {spells spells' : List (Spell M)}
    (alike : List.Forall₂ (Spell.AlikeBefore n) spells spells') {t : Nat} (before : t < n) :
    level spells t = level spells' t := by
  induction alike with
  | nil => rfl
  | cons same _ ih => rw [level_cons, level_cons, ih, same.1, same.2 t before]

end EconomicLedger.Accrual
