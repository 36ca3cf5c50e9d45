import EconomicLedger.Lib.HashChain
import EconomicLedger.Model.ReorgHandler
import Mathlib.Tactic.IntervalCases

/-!
# The depth of a fork

After one mismatch the walk compares the canonical chain with itself, so it never reports more than
one block.
-/

namespace EconomicLedger.Ingestion
open Model Text HashChain

def hashOf (block : BlockHeader) : String := lower block.blockHash

def parentOf (block : BlockHeader) : String := lower block.parentHash

/-- The recorded chain holds the heights from `first` to `known`, the canonical one those up to `top`,
and `fork` is the last height at which they agree. -/
structure Fork (recorded canonical : ℕ → BlockHeader) (first known top fork : ℕ) : Prop where
  recordedLinked : Linked hashOf parentOf recorded first known
  canonicalLinked : Linked hashOf parentOf canonical 0 top
  collisionFree : ∀ m n, first ≤ m → m ≤ known → n ≤ top →
    hashOf (recorded m) = hashOf (canonical n) → parentOf (recorded m) = parentOf (canonical n)
  started : first ≤ fork
  recordedTo : fork ≤ known
  canonicalTo : fork ≤ top
  shared : hashOf (recorded fork) = hashOf (canonical fork)
  parted : fork < known → fork < top →
    hashOf (recorded (fork + 1)) ≠ hashOf (canonical (fork + 1))

/-- The client answers from the canonical chain and raises above its top. -/
structure ServesBlocks (client : BlockClient) (canonical : ℕ → BlockHeader) (top : ℕ) : Prop where
  block : ∀ n : ℕ, n ≤ top → client n = .ok (canonical n)
  beyond : ∀ n : ℕ, top < n → ∃ exc, client n = .error exc

variable {client : BlockClient} {recorded canonical : ℕ → BlockHeader} {first known top fork : ℕ}

theorem Fork.differ (forked : Fork recorded canonical first known top fork) (n : ℕ) (later : fork < n)
    (inRecorded : n ≤ known) (inCanonical : n ≤ top) :
    hashOf (recorded n) ≠ hashOf (canonical n) := by
  have linked : Linked hashOf parentOf recorded first n := fun m above below =>
    forked.recordedLinked m above (by omega)
  have linked' : Linked hashOf parentOf canonical first n := fun m _ below =>
    forked.canonicalLinked m (Nat.zero_le m) (by omega)
  refine differ_above linked linked' (fun m above below same => ?_) (fork + 1) ?_
    (forked.parted (by omega) (by omega)) n later le_rfl
  · exact forked.collisionFree m m above (by omega) (by omega) same
  · exact Nat.le_succ_of_le forked.started

/-- One step down, the canonical chain is compared with itself. -/
theorem walkBack_canonical (linked : Linked hashOf parentOf canonical 0 top)
    (serves : ServesBlocks client canonical top) (n : ℕ) (within : n < top) (depth : Int) :
    walkBack client n (canonical (n + 1)).parentHash depth = .ok depth := by
  cases n with
  | zero => rfl
  | succ n =>
      have link : lower (canonical (n + 1)).blockHash = lower (canonical (n + 2)).parentHash :=
        (linked (n + 1) (Nat.zero_le _) within).symm
      have served := serves.block (n + 1) (by omega)
      simp only [walkBack, served, bind, Except.bind, link, if_true, pure, Except.pure]

theorem findReorgDepth_eq (linked : Linked hashOf parentOf canonical 0 top)
    (serves : ServesBlocks client canonical top) (n : ℕ) (positive : 0 < n) (within : n ≤ top) (hash : String) :
    findReorgDepth client n hash =
      .ok (if lower (canonical n).blockHash = lower hash then 0 else 1) := by
  obtain ⟨n, rfl⟩ := Nat.exists_eq_add_one.mpr positive
  have served := serves.block (n + 1) within
  have back := walkBack_canonical linked serves n within 1
  simp only [findReorgDepth, Int.toNat_natCast, walkBack, served, bind, Except.bind]
  split_ifs
  · rfl
  · exact back

/-- The depth is right exactly where the client still has a block at the last known height and at most
that block was replaced. -/
theorem find_reorg_depth_iff (forked : Fork recorded canonical first known top fork)
    (serves : ServesBlocks client canonical top) :
    findReorgDepth client known (recorded known).blockHash = .ok ((known : Int) - fork) ↔
      known ≤ top ∧ known ≤ fork + 1 := by
  have recordedTo := forked.recordedTo
  have canonicalTo := forked.canonicalTo
  rcases Nat.eq_zero_or_pos known with rfl | positive
  · obtain rfl := Nat.le_zero.mp recordedTo
    exact ⟨fun _ => ⟨Nat.zero_le _, Nat.zero_le _⟩, fun _ => rfl⟩
  · by_cases within : known ≤ top
    · rw [findReorgDepth_eq forked.canonicalLinked serves known positive within, Except.ok.injEq]
      by_cases deep : fork < known
      · have differ := forked.differ known deep le_rfl within
        have other : lower (canonical known).blockHash ≠ lower (recorded known).blockHash := differ.symm
        rw [if_neg other]
        omega
      · obtain rfl : fork = known := by omega
        have same : lower (canonical fork).blockHash = lower (recorded fork).blockHash := forked.shared.symm
        rw [if_pos same]
        omega
    · obtain ⟨n, rfl⟩ := Nat.exists_eq_add_one.mpr positive
      obtain ⟨exc, raised⟩ := serves.beyond (n + 1) (by omega)
      have fails : findReorgDepth client ((n + 1 : ℕ) : Int) (recorded (n + 1)).blockHash = .error exc := by
        simp only [findReorgDepth, Int.toNat_natCast, walkBack, raised, bind, Except.bind]
      rw [fails]
      simp [within]

/-! ## Two short forks -/

/-- Blocks named by their height, and by `tag` from height `fork + 1` on. -/
def chainFrom (tag : String) (fork n : ℕ) : BlockHeader :=
  let name (n : ℕ) := if n ≤ fork then toString n else tag ++ toString n
  { blockNumber := n
    blockHash := name n
    parentHash := name (n - 1) }

def clientOf (canonical : ℕ → BlockHeader) (top : ℕ) : BlockClient := fun n =>
  if n ≤ top then .ok (canonical n.toNat) else .error (.valueError "block not found")

theorem servesBlocks_clientOf (canonical : ℕ → BlockHeader) (top : ℕ) :
    ServesBlocks (clientOf canonical top) canonical top where
  block := fun n within => by simp [clientOf, within]
  beyond := fun n above => ⟨.valueError "block not found", by simp [clientOf, above]⟩

theorem linked_chainFrom (tag : String) (fork first last : ℕ) :
    Linked hashOf parentOf (chainFrom tag fork) first last := fun _ _ _ => rfl

theorem fork_at (fork : ℕ) (small : fork ≤ 1) :
    Fork (chainFrom "a" fork) (chainFrom "b" fork) 0 2 3 fork where
  recordedLinked := linked_chainFrom "a" fork 0 2
  canonicalLinked := linked_chainFrom "b" fork 0 3
  collisionFree := by
    have each : ∀ m ≤ 2, ∀ n ≤ 3, hashOf (chainFrom "a" fork m) = hashOf (chainFrom "b" fork n) →
        parentOf (chainFrom "a" fork m) = parentOf (chainFrom "b" fork n) := by
      interval_cases fork <;> decide +kernel
    exact fun m n _ left right => each m left n right
  started := Nat.zero_le fork
  recordedTo := by omega
  canonicalTo := by omega
  shared := by simp [hashOf, chainFrom]
  parted := by interval_cases fork <;> decide +kernel

theorem find_reorg_depth_one_block :
    findReorgDepth (clientOf (chainFrom "b" 1) 3) 2 (chainFrom "a" 1 2).blockHash = .ok 1 :=
  (find_reorg_depth_iff (fork_at 1 (by decide)) (servesBlocks_clientOf _ 3)).mpr (by decide)

/-- Two blocks were replaced, and the walk reports one. -/
theorem two_blocks_reported_as_one :
    Fork (chainFrom "a" 0) (chainFrom "b" 0) 0 2 3 0 ∧
      ServesBlocks (clientOf (chainFrom "b" 0) 3) (chainFrom "b" 0) 3 ∧
      findReorgDepth (clientOf (chainFrom "b" 0) 3) 2 (chainFrom "a" 0 2).blockHash = .ok 1 ∧
      findReorgDepth (clientOf (chainFrom "b" 0) 3) 2 (chainFrom "a" 0 2).blockHash ≠ .ok (2 - 0) :=
  ⟨fork_at 0 (by decide), servesBlocks_clientOf _ 3, by decide +kernel, by decide +kernel⟩

end EconomicLedger.Ingestion
