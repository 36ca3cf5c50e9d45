import EconomicLedger.Lib.Accrual
import EconomicLedger.Lib.Fallible
import EconomicLedger.Model.Analytics
import Mathlib.Algebra.Order.Ring.Int
import Mathlib.Data.Nat.Cast.Order.Ring

/-!
# Time-weighted principal

The closed form of each stake is its share of a sum over seconds, so the total is the sum of the
principal that is active in each second before the snapshot.
-/

namespace EconomicLedger.Analytics
open Model Accrual Fallible

def stopValue : Option Nat → Value
  | none => .none
  | some e => .int e

/-- A stake row whose fields are numbers. Without an `end_unix`, or with `None`, the stake is open. -/
structure StakeRow where
  row : Dict String Value
  principal : Int
  start : Nat
  stop : Option Nat
  principal_eq : (row.get? "principal").getD (.int 0) = .int principal
  start_eq : (row.get? "start_unix").getD (.int 0) = .int start
  stop_eq : (row.get? "end_unix").getD .none = stopValue stop
  stop_pos : ∀ e ∈ stop, 0 < e

def StakeRow.spell (s : StakeRow) : Spell Int := ⟨s.start, s.stop, max s.principal 0⟩

/-- The positive principal of the stakes that have begun by `t` and are open or end after it. -/
def activePrincipal (stakes : List StakeRow) (t : Nat) : Int :=
  ((stakes.filter fun s => 0 < s.principal ∧ s.start ≤ t ∧ ∀ e ∈ s.stop, t < e).map
    StakeRow.principal).sum

theorem activeAt_iff (s : StakeRow) (t : Nat) :
    s.spell.activeAt t = true ↔ s.start ≤ t ∧ ∀ e ∈ s.stop, t < e := by
  cases stop : s.stop <;> simp [Spell.activeAt, StakeRow.spell, stop]

theorem activePrincipal_eq_level (stakes : List StakeRow) (t : Nat) :
    activePrincipal stakes t = level (stakes.map StakeRow.spell) t := by
  induction stakes with
  | nil => rfl
  | cons s rest ih =>
      rw [List.map_cons, level_cons, ← ih, activePrincipal, List.filter_cons]
      by_cases running : s.start ≤ t ∧ ∀ e ∈ s.stop, t < e
      · by_cases positive : 0 < s.principal
        · rw [if_pos ((activeAt_iff s t).mpr running), if_pos (by simpa using ⟨positive, running⟩),
            List.map_cons, List.sum_cons]
          congr 1
          exact (max_eq_left positive.le).symm
        · have weight : s.spell.weight = 0 := max_eq_right (not_lt.mp positive)
          rw [weight, ite_self, zero_add, if_neg (by simp [positive])]
          rfl
      · rw [if_neg (mt (activeAt_iff s t).mp running), zero_add,
          if_neg (by simpa using fun _ => not_and.mp running)]
        rfl

/-! ## One event -/

theorem stakeEnd_eq (s : StakeRow) (snapshot : Nat) :
    stakeEnd s.row snapshot = .ok ((s.stop.getD snapshot : Nat) : Int) := by
  have own := s.stop_eq
  cases stop : s.stop with
  | none =>
      rw [stop, stopValue] at own
      cases found : s.row.get? "end_unix" with
      | none =>
          rw [stakeEnd, found, Option.getD_none, Value.orElse, ite_self]
          rfl
      | some value =>
          rw [found, Option.getD_some] at own
          rw [stakeEnd, found, own]
          rfl
  | some e =>
      have positive := s.stop_pos e stop
      rw [stop, stopValue] at own
      cases found : s.row.get? "end_unix" with
      | none =>
          rw [found] at own
          cases own
      | some value =>
          rw [found, Option.getD_some] at own
          have truthy : (Value.int e).truthy = true := by simp [Value.truthy, positive.ne']
          rw [stakeEnd, found, own, Option.getD_some, Value.orElse, if_pos truthy]
          rfl

theorem addStakeEvent_eq (s : StakeRow) (snapshot : Nat) (total : Int) :
    addStakeEvent snapshot total s.row = .ok (total + s.spell.accrued snapshot) := by
  rw [addStakeEvent, s.principal_eq, s.start_eq, stakeEnd_eq]
  have stops : min ((s.stop.getD snapshot : Nat) : Int) snapshot = s.spell.stopBefore snapshot :=
    by rw [Spell.stopBefore, Nat.cast_min]; rfl
  simp only [Value.toInt, ok_bind, stops]
  have share : s.spell.accrued snapshot =
      (s.spell.stopBefore snapshot - s.start : Nat) * max s.principal 0 := nsmul_eq_mul _ _
  split
  next nothing =>
    rw [share]
    rcases nothing with ended | unpaid
    · rw [Nat.sub_eq_zero_of_le (by exact_mod_cast ended), Nat.cast_zero, zero_mul, add_zero]
      rfl
    · rw [max_eq_right unpaid, mul_zero, add_zero]
      rfl
  next something =>
    obtain ⟨longer, positive⟩ := not_or.mp something
    have le : s.start ≤ s.spell.stopBefore snapshot := by omega
    rw [share, max_eq_left (not_le.mp positive).le, Nat.cast_sub le, mul_comm]
    rfl

/-! ## All events -/

def rows (stakes : List StakeRow) : List (Dict String Value) := stakes.map StakeRow.row

theorem foldlM_addStakeEvent (stakes : List StakeRow) (snapshot : Nat) (total : Int) :
    (rows stakes).foldlM (addStakeEvent snapshot) total =
      .ok (total + ((stakes.map StakeRow.spell).map (·.accrued snapshot)).sum) := by
  induction stakes generalizing total with
  | nil => exact congrArg Except.ok (add_zero total).symm
  | cons s rest ih =>
      rw [rows, List.map_cons, List.foldlM_cons, addStakeEvent_eq, ok_bind]
      refine (ih (total + s.spell.accrued snapshot)).trans (congrArg Except.ok ?_)
      rw [List.map_cons, List.map_cons, List.sum_cons, add_assoc]

theorem timeWeighted_eq_sum (stakes : List StakeRow) (snapshot : Nat) :
    computeTimeWeightedPrincipal (rows stakes) snapshot =
      .ok (∑ t ∈ Finset.range snapshot, activePrincipal stakes t) := by
  rw [computeTimeWeightedPrincipal, foldlM_addStakeEvent, zero_add, ← sum_level]
  simp only [activePrincipal_eq_level]

/-- Stakes of one principal that are active in the same seconds before the snapshot. -/
def SameBefore (snapshot : Nat) (s s' : StakeRow) : Prop :=
  s.principal = s'.principal ∧
    ∀ t < snapshot, (s.start ≤ t ∧ ∀ e ∈ s.stop, t < e) ↔ (s'.start ≤ t ∧ ∀ e ∈ s'.stop, t < e)

theorem SameBefore.spell {snapshot : Nat} {s s' : StakeRow} (same : SameBefore snapshot s s') :
    s.spell.AlikeBefore snapshot s'.spell := by
  refine ⟨congrArg (max · 0) same.1, fun t before => ?_⟩
  rw [Bool.eq_iff_iff, activeAt_iff, activeAt_iff]
  exact same.2 t before

/-- The total is the integral of the active principal; so it grows with the snapshot, adds up over
lists of stakes and does not see what happens after the snapshot. -/
theorem time_weighted_principal_integral (stakes : List StakeRow) (snapshot : Nat) :
    computeTimeWeightedPrincipal (rows stakes) snapshot =
        .ok (∑ t ∈ Finset.range snapshot, activePrincipal stakes t) ∧
      (∀ later ≥ snapshot, ∃ now after, computeTimeWeightedPrincipal (rows stakes) snapshot = .ok now ∧
        computeTimeWeightedPrincipal (rows stakes) later = .ok after ∧ now ≤ after) ∧
      (∀ others, ∃ left right, computeTimeWeightedPrincipal (rows stakes) snapshot = .ok left ∧
        computeTimeWeightedPrincipal (rows others) snapshot = .ok right ∧
        computeTimeWeightedPrincipal (rows stakes ++ rows others) snapshot = .ok (left + right)) ∧
      ∀ stakes', List.Forall₂ (SameBefore snapshot) stakes stakes' →
        computeTimeWeightedPrincipal (rows stakes') snapshot =
          computeTimeWeightedPrincipal (rows stakes) snapshot := by
  refine ⟨timeWeighted_eq_sum stakes snapshot, fun later after => ?_, fun others => ?_,
    fun stakes' same => ?_⟩
  · refine ⟨_, _, timeWeighted_eq_sum stakes snapshot, timeWeighted_eq_sum stakes later, ?_⟩
    simp only [activePrincipal_eq_level]
    refine sum_level_mono _ ?_ after
    intro spell member
    obtain ⟨s, -, rfl⟩ := List.mem_map.mp member
    exact le_max_right s.principal 0
  · refine ⟨_, _, timeWeighted_eq_sum stakes snapshot, timeWeighted_eq_sum others snapshot, ?_⟩
    have joined : rows stakes ++ rows others = rows (stakes ++ others) := List.map_append.symm
    rw [joined, timeWeighted_eq_sum, ← Finset.sum_add_distrib]
    simp only [activePrincipal_eq_level, List.map_append, level_append]
  · have alike : List.Forall₂ (Spell.AlikeBefore snapshot) (stakes.map StakeRow.spell)
        (stakes'.map StakeRow.spell) := by
      rw [List.forall₂_map_left_iff, List.forall₂_map_right_iff]
      exact same.imp fun _ _ => SameBefore.spell
    rw [timeWeighted_eq_sum, timeWeighted_eq_sum]
    refine congrArg Except.ok (Finset.sum_congr rfl fun t before => ?_)
    rw [activePrincipal_eq_level, activePrincipal_eq_level,
      level_congr alike (Finset.mem_range.mp before)]

end EconomicLedger.Analytics
