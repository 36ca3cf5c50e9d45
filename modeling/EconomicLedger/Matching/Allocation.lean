import EconomicLedger.Lib.Keyed
import EconomicLedger.Matching.Settlement
import Mathlib.Algebra.BigOperators.Group.List.Basic
import Mathlib.Algebra.Order.BigOperators.Group.List
import Mathlib.Algebra.Order.Group.Int

/-!
# Allocation of movements to actions

Every action that takes a movement is allocated all of it, so a movement is allocated at most once
exactly when no two actions take it.
-/

namespace EconomicLedger.Matching
open Model

variable (sha256 : Digest)

/-- What the edges of actions allocate of a movement. -/
def allocatedTo (edges : List ActionMovementMatch) (movementId : String) : Int :=
  ((edges.filter fun edge => edge.actionId.isSome && edge.movementId = some movementId).map
    ActionMovementMatch.allocatedAmount).sum

theorem allocatedTo_append (left right : List ActionMovementMatch) (movementId : String) :
    allocatedTo (left ++ right) movementId =
      allocatedTo left movementId + allocatedTo right movementId := by
  simp [allocatedTo]

theorem allocatedTo_flatMap {α : Type} (edgesOf : α → List ActionMovementMatch) (l : List α)
    (movementId : String) :
    allocatedTo (l.flatMap edgesOf) movementId =
      (l.map fun a => allocatedTo (edgesOf a) movementId).sum := by
  induction l with
  | nil => rfl
  | cons a rest ih => rw [List.flatMap_cons, allocatedTo_append, ih, List.map_cons, List.sum_cons]

theorem allocatedTo_of_owned (edges : List ActionMovementMatch) (movementId : String)
    (owned : ∀ edge ∈ edges, edge.actionId.isSome = true) :
    allocatedTo edges movementId =
      (((edges.map allocation).filter (·.1 = some movementId)).map Prod.snd).sum := by
  unfold allocatedTo
  rw [List.filter_map, List.map_map]
  have same : edges.filter (fun edge => edge.actionId.isSome && edge.movementId = some movementId) =
      edges.filter ((fun x : Option String × Int => decide (x.1 = some movementId)) ∘ allocation) := by
    apply List.filter_congr
    intro edge member
    rw [owned edge member, Bool.true_and]
    exact decide_eq_decide.mpr Iff.rfl
  rw [same]
  rfl

theorem allocatedTo_action (action : EconomicAction) (movements : List TokenMovement)
    (distinct : (movements.map TokenMovement.movementId).Nodup) (m : TokenMovement)
    (member : m ∈ movements) :
    allocatedTo (matchActionToMovements sha256 action movements) m.movementId =
      if Takes action movements m then m.amount else 0 := by
  have matched := matchActionToMovements_matched sha256 action movements
  rw [allocatedTo_of_owned _ _ fun edge here => by rw [matched.owned edge here]; rfl,
    matched.allocations]
  simp only [takes_iff]
  cases settled : settle action movements with
  | none => simp
  | some subset =>
      have sub := ((settle_eq_some_iff action movements subset).mp settled).sublist
      have named : (subset.map fun m => (some m.movementId, m.amount)).filter
          (·.1 = some m.movementId) =
          (subset.filter (·.movementId = m.movementId)).map fun m => (some m.movementId, m.amount) := by
        rw [List.filter_map]
        congr 1
        exact List.filter_congr fun m' _ => by simp
      simp only [named, Keyed.filter_key_sublist TokenMovement.movementId distinct sub member,
        Option.getD_some]
      split_ifs <;> simp

theorem allocatedTo_unexpected (unexpected : List (TokenMovement × Nat)) (movementId : String) :
    allocatedTo (unexpected.map fun (m, i) => unexpectedEdge sha256 m i) movementId = 0 := by
  have none : (unexpected.map fun (m, i) => unexpectedEdge sha256 m i).filter
      (fun edge => edge.actionId.isSome && edge.movementId = some movementId) = [] := by
    rw [List.filter_eq_nil_iff]
    intro edge here
    obtain ⟨⟨m, i⟩, -, rfl⟩ := List.mem_map.mp here
    simp [unexpectedEdge]
  rw [allocatedTo, none]
  rfl

theorem allocatedTo_tx (actions : List EconomicAction) (movements : List TokenMovement)
    (distinct : (movements.map TokenMovement.movementId).Nodup) (m : TokenMovement)
    (member : m ∈ movements) :
    allocatedTo (matchTxEconomics sha256 actions movements).edges m.movementId =
      (actions.map fun action => if Takes action movements m then m.amount else 0).sum := by
  rw [(matchTxEconomics_fields sha256 actions movements).1, txEdges, allocatedTo_append,
    allocatedTo_unexpected, add_zero, actionEdges, allocatedTo_flatMap]
  exact congrArg List.sum (List.map_congr_left fun action _ =>
    allocatedTo_action sha256 action movements distinct m member)

theorem sum_ite_le_iff_pairwise {α : Type} (p : α → Prop) [DecidablePred p] (amount : Int)
    (positive : 0 < amount) (l : List α) :
    (l.map fun a => if p a then amount else 0).sum ≤ amount ↔
      l.Pairwise fun a a' => ¬ (p a ∧ p a') := by
  have nonneg (l : List α) : 0 ≤ (l.map fun a => if p a then amount else 0).sum := by
    apply List.sum_nonneg
    intro x member
    obtain ⟨a, -, rfl⟩ := List.mem_map.mp member
    split_ifs <;> omega
  have zero (l : List α) :
      (l.map fun a => if p a then amount else 0).sum ≤ 0 ↔ ∀ a ∈ l, ¬ p a := by
    induction l with
    | nil => simp
    | cons a rest ih =>
        have := nonneg rest
        rw [List.map_cons, List.sum_cons, List.forall_mem_cons, ← ih]
        by_cases counted : p a
        · simp only [counted, if_true, not_true_eq_false, false_and, iff_false]
          omega
        · simp [counted]
  induction l with
  | nil => simpa using positive.le
  | cons a rest ih =>
      have none := zero rest
      have := nonneg rest
      simp only [List.map_cons, List.sum_cons, List.pairwise_cons]
      by_cases counted : p a
      · simp only [counted, if_true, true_and]
        rw [← none]
        constructor
        · intro bounded
          exact ⟨by omega, ih.mp (by omega)⟩
        · rintro ⟨empty, -⟩
          omega
      · simpa [counted] using ih

/-- No movement is full evidence for two actions exactly when no two settlements share one. -/
theorem no_double_allocation_iff (actions : List EconomicAction) (movements : List TokenMovement)
    (distinct : (movements.map TokenMovement.movementId).Nodup)
    (positive : ∀ m ∈ movements, 0 < m.amount) :
    (∀ m ∈ movements,
      allocatedTo (matchTxEconomics sha256 actions movements).edges m.movementId ≤ m.amount) ↔
      actions.Pairwise fun action action' =>
        ∀ m, ¬ (Takes action movements m ∧ Takes action' movements m) := by
  have each (m : TokenMovement) (member : m ∈ movements) :
      allocatedTo (matchTxEconomics sha256 actions movements).edges m.movementId ≤ m.amount ↔
        actions.Pairwise fun action action' =>
          ¬ (Takes action movements m ∧ Takes action' movements m) := by
    rw [allocatedTo_tx sha256 actions movements distinct m member]
    exact sum_ite_le_iff_pairwise _ m.amount (positive m member) actions
  constructor
  · intro bounded
    rw [List.pairwise_iff_forall_sublist]
    rintro action action' pair m ⟨takes, takes'⟩
    obtain ⟨subset, settled, inside⟩ := takes
    have member := settled.sublist.subset inside
    exact List.pairwise_iff_forall_sublist.mp ((each m member).mp (bounded m member)) pair
      ⟨⟨subset, settled, inside⟩, takes'⟩
  · intro apart m member
    exact (each m member).mpr (apart.imp fun none => none m)

theorem no_double_allocation_split :
    ([movementOf "m1" 5, movementOf "m2" 7].map TokenMovement.movementId).Nodup ∧
    ∀ m ∈ [movementOf "m1" 5, movementOf "m2" 7],
      allocatedTo (matchTxEconomics id [stakeOf "a1" 5, stakeOf "a2" 7]
        [movementOf "m1" 5, movementOf "m2" 7]).edges m.movementId ≤ m.amount := by
  have distinct : ([movementOf "m1" 5, movementOf "m2" 7].map TokenMovement.movementId).Nodup := by decide
  refine ⟨distinct, (no_double_allocation_iff id _ _ distinct (by decide)).mpr
    (List.pairwise_pair.mpr ?_)⟩
  rintro m ⟨takes, takes'⟩
  rw [takes_iff] at takes takes'
  have first : settle (stakeOf "a1" 5) [movementOf "m1" 5, movementOf "m2" 7] =
      some [movementOf "m1" 5] := by decide +kernel
  have second : settle (stakeOf "a2" 7) [movementOf "m1" 5, movementOf "m2" 7] =
      some [movementOf "m2" 7] := by decide +kernel
  rw [first] at takes
  rw [second] at takes'
  exact absurd ((List.mem_singleton.mp takes).symm.trans (List.mem_singleton.mp takes')) (by decide)

/-- Two stakes of one transaction both take its only movement. -/
theorem one_movement_two_stakes :
    ([stakeOf "a1" 5, stakeOf "a2" 5].map EconomicAction.actionId).Nodup ∧
    ([stakeOf "a1" 5, stakeOf "a2" 5].map EconomicAction.decodedEventId).Nodup ∧
    (∀ action ∈ [stakeOf "a1" 5, stakeOf "a2" 5], action.txHash = (movementOf "m1" 5).txHash) ∧
    ¬ ∀ m ∈ [movementOf "m1" 5],
      allocatedTo (matchTxEconomics id [stakeOf "a1" 5, stakeOf "a2" 5]
        [movementOf "m1" 5]).edges m.movementId ≤ m.amount := by
  decide

end EconomicLedger.Matching
