import EconomicLedger.Lib.Intervals
import EconomicLedger.Model.ContractConfig

/-!
# Accepted phases

The two overlap checks accept the same lists, in which no block has two phases, so the first match is
the only one.
-/

namespace EconomicLedger.Registry
open Model Text Intervals

abbrev Precedes : Phase → Phase → Prop := Before Phase.fromBlock Phase.toBlock

theorem checkNeighbours_eq_ok_iff (check : Phase → Phase → Py Unit)
    (accepts : ∀ prev curr, check prev curr = .ok () ↔ Precedes prev curr) (phases : List Phase) :
    checkNeighbours check phases = .ok () ↔ phases.IsChain Precedes := by
  induction phases with
  | nil => simp [checkNeighbours]
  | cons prev rest ih =>
      cases rest with
      | nil => simp [checkNeighbours]
      | cons curr rest =>
          rw [List.isChain_cons_cons, ← ih, ← accepts, checkNeighbours]
          cases check prev curr with
          | error exc => simp [bind, Except.bind]
          | ok done => simp [bind, Except.bind]

theorem checkPhases_eq_ok_iff (address : String) (prev curr : Phase) :
    checkPhases address prev curr = .ok () ↔ Precedes prev curr := by
  unfold checkPhases Precedes Before
  cases prev.toBlock <;> simp

theorem checkNoOverlap_eq_ok_iff (prev curr : Phase) :
    checkNoOverlap prev curr = .ok () ↔ Precedes prev curr := by
  unfold checkNoOverlap Precedes Before
  cases prev.toBlock <;> simp

theorem validatePhases_eq_ok_iff (address : String) (phases : List Phase) :
    validatePhases address phases = .ok () ↔ (sortedPhases phases).IsChain Precedes :=
  checkNeighbours_eq_ok_iff _ (checkPhases_eq_ok_iff address) _

theorem ensureNoOverlap_eq_ok_iff (phases : List Phase) :
    ensureNoOverlap phases = .ok () ↔ (sortedPhases phases).IsChain Precedes :=
  checkNeighbours_eq_ok_iff _ checkNoOverlap_eq_ok_iff _

theorem sortedPhases_perm (phases : List Phase) : (sortedPhases phases).Perm phases :=
  List.perm_insertionSort _ _

theorem sortedPhases_sorted (phases : List Phase) :
    (sortedPhases phases).Pairwise (·.fromBlock ≤ ·.fromBlock) :=
  List.pairwise_insertionSort _ _

theorem atMostOne_of_accepted (address : String) (phases : List Phase)
    (accepted : validatePhases address phases = .ok ()) (block : Int) :
    AtMostOne (·.covers block) phases := by
  have chain := (validatePhases_eq_ok_iff address phases).mp accepted
  exact (atMostOne_covers chain (sortedPhases_sorted phases) block).perm (sortedPhases_perm phases)

/-! ## The two lookups -/

/-- Both registries hold the phases under the address, each in an order of its own. -/
structure Hold (contracts : ContractRegistry) (abis : AbiRegistry) (address : String)
    (phases : List Phase) (entries : List (Phase × Abi)) : Prop where
  contract : ∃ info, contracts.byAddress.get? (lower address) = some info ∧ info.phases.Perm phases
  abi : abis.phasesByAddress.get? (lower address) = some entries
  same : (entries.map Prod.fst).Perm phases

section
variable {contracts : ContractRegistry} {abis : AbiRegistry} {address : String} {block : Int}

theorem getPhase_of_find? {info : ContractMeta}
    (held : contracts.byAddress.get? (lower address) = some info) {phase : Phase}
    (found : info.phases.find? (·.covers block) = some phase) :
    contracts.getPhase address block = .ok phase := by
  simp only [ContractRegistry.getPhase, held, found]

theorem getPhase_of_none {info : ContractMeta}
    (held : contracts.byAddress.get? (lower address) = some info)
    (uncovered : info.phases.find? (·.covers block) = none) :
    ∃ detail, contracts.getPhase address block = .error (.keyError detail) := by
  simp only [ContractRegistry.getPhase, held, uncovered]
  exact ⟨_, rfl⟩

theorem get_of_find? {entries : List (Phase × Abi)}
    (held : abis.phasesByAddress.get? (lower address) = some entries) {entry : Phase × Abi}
    (found : entries.find? (·.1.covers block) = some entry) :
    abis.get address block = .ok entry.2 := by
  simp only [AbiRegistry.get, held, found]

theorem get_of_none {entries : List (Phase × Abi)}
    (held : abis.phasesByAddress.get? (lower address) = some entries)
    (uncovered : entries.find? (·.1.covers block) = none) :
    ∃ detail, abis.get address block = .error (.keyError detail) := by
  simp only [AbiRegistry.get, held, uncovered]
  exact ⟨_, rfl⟩

end

theorem find?_fst (entries : List (Phase × Abi)) (block : Int) :
    (entries.map Prod.fst).find? (·.covers block) =
      (entries.find? (·.1.covers block)).map Prod.fst := List.find?_map

/-- Whatever the orders, the two registries find one phase for the block, or both raise `KeyError`. -/
def SameLookup (address : String) (phases : List Phase) (block : Int) : Prop :=
  (∃ phase ∈ phases, ∀ contracts abis entries, Hold contracts abis address phases entries →
    contracts.getPhase address block = .ok phase ∧
      ∃ abi, (phase, abi) ∈ entries ∧ abis.get address block = .ok abi) ∨
  ∀ contracts abis entries, Hold contracts abis address phases entries →
    (∃ detail, contracts.getPhase address block = .error (.keyError detail)) ∧
      ∃ detail, abis.get address block = .error (.keyError detail)

theorem sameLookup_of_atMostOne (address : String) (phases : List Phase) (block : Int)
    (one : AtMostOne (·.covers block) phases) : SameLookup address phases block := by
  cases found : phases.find? (·.covers block) with
  | some phase =>
      refine Or.inl ⟨phase, List.mem_of_find?_eq_some found, fun contracts abis entries hold => ?_⟩
      obtain ⟨info, registered, same⟩ := hold.contract
      have inContract := (find?_perm one same.symm).trans found
      have inAbis := (find?_perm one hold.same.symm).trans found
      rw [find?_fst] at inAbis
      obtain ⟨entry, located, rfl⟩ := Option.map_eq_some_iff.mp inAbis
      exact ⟨getPhase_of_find? registered inContract, entry.2, List.mem_of_find?_eq_some located,
        get_of_find? hold.abi located⟩
  | none =>
      refine Or.inr fun contracts abis entries hold => ?_
      obtain ⟨info, registered, same⟩ := hold.contract
      have inContract := (find?_perm one same.symm).trans found
      have inAbis := (find?_perm one hold.same.symm).trans found
      rw [find?_fst] at inAbis
      exact ⟨getPhase_of_none registered inContract,
        get_of_none hold.abi (Option.map_eq_none_iff.mp inAbis)⟩

theorem accepted_phases_unique (address queried : String) (phases : List Phase) :
    (validatePhases address phases = .ok () → ∀ block,
      (phases.filter (·.covers block)).length ≤ 1 ∧ SameLookup queried phases block) ∧
    (ensureNoOverlap phases = .ok () ↔ validatePhases address phases = .ok ()) := by
  refine ⟨fun accepted block => ?_, ?_⟩
  · have one := atMostOne_of_accepted address phases accepted block
    exact ⟨one, sameLookup_of_atMostOne queried phases block one⟩
  · rw [ensureNoOverlap_eq_ok_iff, validatePhases_eq_ok_iff]

/-- An empty phase shares its first block with the phase that covers it. -/
def phasesWithEmpty : List Phase :=
  [⟨"0xaa", "v3", 20, none⟩, ⟨"0xaa", "v1", 5, some 3⟩, ⟨"0xaa", "v2", 5, some 9⟩]

theorem accepted_phases_unique_empty :
    (phasesWithEmpty.filter (·.covers 7)).length ≤ 1 ∧ SameLookup "0xAA" phasesWithEmpty 7 :=
  (accepted_phases_unique "0xaa" "0xAA" phasesWithEmpty).1 (by decide +kernel) 7

end EconomicLedger.Registry
