import Mathlib.Algebra.BigOperators.Group.List.Basic
import Mathlib.Algebra.BigOperators.Pi

/-!
# Transfers between accounts

A transfer takes its amount from one account and brings it to another. A run leaves on each account
its first balance and the effects of the transfers, and over accounts that hold every party the
effects add up to nothing.
-/

namespace EconomicLedger.Transfers
variable {α G : Type*} [DecidableEq α] [AddCommGroup G]

structure Move (α G : Type*) where
  source : α
  target : α
  amount : G

def Move.post (balances : α → G) (move : Move α G) : α → G :=
  let debited := Function.update balances move.source (balances move.source - move.amount)
  Function.update debited move.target (debited move.target + move.amount)

def replay (balances : α → G) (moves : List (Move α G)) : α → G := moves.foldl Move.post balances

def Move.effect (move : Move α G) : α → G :=
  Pi.single move.target move.amount - Pi.single move.source move.amount

def effects (moves : List (Move α G)) : α → G := (moves.map Move.effect).sum

theorem post_eq (balances : α → G) (move : Move α G) : move.post balances = balances + move.effect := by
  funext account
  simp only [Move.post, Move.effect, Function.update_apply, Pi.add_apply, Pi.sub_apply, Pi.single_apply]
  split_ifs <;> simp_all [sub_eq_add_neg]

theorem replay_eq (balances : α → G) (moves : List (Move α G)) :
    replay balances moves = balances + effects moves := by
  induction moves generalizing balances with
  | nil => exact (add_zero balances).symm
  | cons move rest ih =>
      have first : effects (move :: rest) = move.effect + effects rest := List.sum_cons
      rw [first, ← add_assoc, ← post_eq]
      exact ih (move.post balances)

theorem sum_effect (accounts : Finset α) (move : Move α G) (source : move.source ∈ accounts)
    (target : move.target ∈ accounts) : ∑ account ∈ accounts, move.effect account = 0 := by
  have whole (account : α) (member : account ∈ accounts) :
      ∑ other ∈ accounts, Pi.single account move.amount other = move.amount := by
    rw [Finset.sum_pi_single', if_pos member]
  simp only [Move.effect, Pi.sub_apply, Finset.sum_sub_distrib]
  rw [whole _ target, whole _ source, sub_self]

theorem sum_effects (accounts : Finset α) (moves : List (Move α G))
    (parties : ∀ move ∈ moves, move.source ∈ accounts ∧ move.target ∈ accounts) :
    ∑ account ∈ accounts, effects moves account = 0 := by
  induction moves with
  | nil => exact Finset.sum_const_zero
  | cons move rest ih =>
      have first : effects (move :: rest) = move.effect + effects rest := List.sum_cons
      obtain ⟨here, later⟩ := List.forall_mem_cons.mp parties
      rw [first]
      simp only [Pi.add_apply, Finset.sum_add_distrib]
      rw [sum_effect accounts move here.1 here.2, ih later, add_zero]

end EconomicLedger.Transfers
