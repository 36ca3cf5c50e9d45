import EconomicLedger.Lib.Keyed
import Mathlib.Algebra.BigOperators.Group.List.Basic
import Mathlib.Algebra.Group.Basic

/-!
# Double entry

The entries of a posting share a key and net to nothing. However postings are interleaved and
whichever of them are kept, the entries under each key net to nothing.
-/

namespace EconomicLedger.DoubleEntry
variable {ε κ M : Type*} [AddMonoid M] (signed : ε → M) (key : ε → κ)

def net (entries : List ε) : M := (entries.map signed).sum

structure Posting where
  entries : List ε
  balanced : net signed entries = 0
  uniform : ∀ e ∈ entries, ∀ e' ∈ entries, key e = key e'

theorem net_append (left right : List ε) :
    net signed (left ++ right) = net signed left + net signed right := by
  simp [net]

variable {signed key} [DecidableEq κ]

theorem Posting.net_filter (posting : Posting signed key) (k : κ) :
    net signed (posting.entries.filter (key · = k)) = 0 := by
  by_cases under : ∃ e ∈ posting.entries, key e = k
  · obtain ⟨e, member, same⟩ := under
    have all : posting.entries.filter (key · = k) = posting.entries := by
      rw [List.filter_eq_self]
      intro e' member'
      simpa using (posting.uniform e' member' e member).trans same
    rw [all, posting.balanced]
  · have none : posting.entries.filter (key · = k) = [] := by
      rw [List.filter_eq_nil_iff]
      intro e member same
      exact under ⟨e, member, by simpa using same⟩
    rw [none]
    rfl

theorem net_group (postings : List (Posting signed key)) (k : κ) :
    net signed ((postings.flatMap Posting.entries).filter (key · = k)) = 0 := by
  induction postings with
  | nil => rfl
  | cons posting rest ih =>
      rw [List.flatMap_cons, List.filter_append, net_append, posting.net_filter, ih, add_zero]

theorem net_eq_zero_of_each {N : Type*} [AddCommMonoid N] (signed : ε → N) (key : ε → κ) (entries : List ε)
    (each : ∀ k, net signed (entries.filter (key · = k)) = 0) : net signed entries = 0 := by
  have parts := Keyed.perm_flatMap_filter key _ (Keyed.firstByKey_nodup key entries) entries
    fun e member => (Keyed.mem_keys_firstByKey key entries _).mpr (List.mem_map_of_mem member)
  rw [net, ← (parts.map signed).sum_eq, List.map_flatMap, List.flatMap_def, List.sum_flatten, List.map_map]
  apply List.sum_eq_zero
  intro total member
  obtain ⟨k, -, rfl⟩ := List.mem_map.mp member
  exact each k

/-- Entries chosen by their key net to nothing too. -/
theorem net_filter_of_each {N : Type*} [AddCommMonoid N] (signed : ε → N) (key : ε → κ) (entries : List ε)
    (each : ∀ k, net signed (entries.filter (key · = k)) = 0) (p : κ → Bool) :
    net signed (entries.filter fun e => p (key e)) = 0 := by
  apply net_eq_zero_of_each signed key
  intro k
  rw [List.filter_filter]
  cases chosen : p k with
  | true =>
      rw [← each k]
      apply congrArg (net signed)
      apply List.filter_congr
      intro e _
      by_cases same : key e = k <;> simp [same, chosen]
  | false =>
      have none : entries.filter (fun e => decide (key e = k) && p (key e)) = [] := by
        rw [List.filter_eq_nil_iff]
        intro e _ both
        simp only [Bool.and_eq_true, decide_eq_true_eq] at both
        rw [both.1, chosen] at both
        cases both.2
      rw [none]
      rfl

end EconomicLedger.DoubleEntry
