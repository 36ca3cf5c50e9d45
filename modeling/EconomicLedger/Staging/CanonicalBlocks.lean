import EconomicLedger.Lib.Gaps
import EconomicLedger.Model.Staging

/-!
# Canonical and shadow blocks

Every height of the raw table is canonical or in the shadow. As the table grows, a height that has
become canonical stays so, and its block gives way to a later ingestion only.
-/

namespace EconomicLedger.Staging
open Model Latest Window Gaps

/-! ## Finality -/

theorem maxBlock_mono {rawBlocks more : List BlockRow} (grown : rawBlocks ⊆ more) (nonempty : rawBlocks ≠ []) :
    (rawBlocks.map BlockRow.blockNumber).max?.getD 0 ≤ (more.map BlockRow.blockNumber).max?.getD 0 := by
  obtain ⟨top, found⟩ := Option.isSome_iff_exists.mp
    (List.isSome_max?_of_ne_nil (List.map_eq_nil_iff.not.mpr nonempty : rawBlocks.map BlockRow.blockNumber ≠ []))
  have nonempty' : more.map BlockRow.blockNumber ≠ [] := by
    obtain ⟨r, member⟩ := List.exists_mem_of_ne_nil rawBlocks nonempty
    exact List.ne_nil_of_mem (List.mem_map_of_mem (grown member))
  obtain ⟨top', found'⟩ := Option.isSome_iff_exists.mp (List.isSome_max?_of_ne_nil nonempty')
  rw [found, found']
  exact (List.max?_eq_some_iff.mp found').2 top
    ((List.map_subset BlockRow.blockNumber grown) (List.max?_eq_some_iff.mp found).1)

theorem isFinalized_mono (finalityDepth : Int) {rawBlocks more : List BlockRow} (grown : rawBlocks ⊆ more)
    (nonempty : rawBlocks ≠ []) (blockNumber : Int)
    (final : isFinalized finalityDepth rawBlocks blockNumber = true) :
    isFinalized finalityDepth more blockNumber = true := by
  have higher := maxBlock_mono grown nonempty
  simp only [isFinalized, decide_eq_true_eq] at final ⊢
  omega

theorem finalizedBlocks_mono (finalityDepth : Int) {rawBlocks more : List BlockRow} (grown : rawBlocks ⊆ more) :
    finalizedBlocks finalityDepth rawBlocks ⊆ finalizedBlocks finalityDepth more := by
  intro r member
  obtain ⟨inside, final⟩ := List.mem_filter.mp member
  exact List.mem_filter.mpr ⟨grown inside,
    isFinalized_mono finalityDepth grown (List.ne_nil_of_mem inside) r.blockNumber final⟩

/-! ## One block for each height -/

theorem height_block (r : BlockRow) : r.block.height = r.height := rfl

/-- The selected rows of `stg_canonical_blocks`, in whatever order rows of one ingestion time are numbered. -/
def IsCanonical (finalityDepth : Int) (rawBlocks chosen : List BlockRow) : Prop :=
  IsLatest BlockRow.height BlockRow.ingestedAt (finalizedBlocks finalityDepth rawBlocks) chosen

theorem latestBlocks_isCanonical (finalityDepth : Int) (rawBlocks : List BlockRow) :
    IsCanonical finalityDepth rawBlocks (latestBlocks (finalizedBlocks finalityDepth rawBlocks)) :=
  latest_isLatest BlockRow.height BlockRow.ingestedAt _

theorem stgCanonicalBlocks_unique (finalityDepth : Int) (rawBlocks : List BlockRow) :
    ((stgCanonicalBlocks finalityDepth rawBlocks).map CanonicalBlock.height).Nodup := by
  rw [stgCanonicalBlocks, List.map_map]
  exact (latestBlocks_isCanonical finalityDepth rawBlocks).unique

/-- The view with the uniqueness its readers rely on. -/
def canonicalView (finalityDepth : Int) (rawBlocks : List BlockRow) : CanonicalBlocks where
  rows := stgCanonicalBlocks finalityDepth rawBlocks
  unique := stgCanonicalBlocks_unique finalityDepth rawBlocks

theorem mem_canonical_heights (finalityDepth : Int) (rawBlocks : List BlockRow) (h : Int × Int) :
    h ∈ (stgCanonicalBlocks finalityDepth rawBlocks).map CanonicalBlock.height ↔
      isFinalized finalityDepth rawBlocks h.2 = true ∧ h ∈ rawBlocks.map BlockRow.height := by
  have selected := latestBlocks_isCanonical finalityDepth rawBlocks
  rw [stgCanonicalBlocks, List.map_map]
  constructor
  · intro member
    obtain ⟨c, isChosen, rfl⟩ := List.mem_map.mp member
    obtain ⟨inside, final⟩ := List.mem_filter.mp (selected.inside c isChosen)
    exact ⟨final, List.mem_map_of_mem inside⟩
  · rintro ⟨final, member⟩
    obtain ⟨r, inside, rfl⟩ := List.mem_map.mp member
    obtain ⟨c, isChosen, same⟩ := selected.covered r (List.mem_filter.mpr ⟨inside, final⟩)
    exact List.mem_map.mpr ⟨c, isChosen, same⟩

/-- A raw height is canonical with one block, or all its rows are in the shadow. -/
theorem canonical_or_shadow (finalityDepth : Int) (rawBlocks : List BlockRow) (h : Int × Int)
    (ingested : h ∈ rawBlocks.map BlockRow.height) :
    (∃ b, (stgCanonicalBlocks finalityDepth rawBlocks).filter (·.height = h) = [b] ∧
        (stgShadowTipBlocks finalityDepth rawBlocks).filter (·.height = h) = []) ∨
      ((stgCanonicalBlocks finalityDepth rawBlocks).filter (·.height = h) = [] ∧
        (stgShadowTipBlocks finalityDepth rawBlocks).filter (·.height = h) =
          (rawBlocks.filter (·.height = h)).map BlockRow.block) := by
  have shadow : (stgShadowTipBlocks finalityDepth rawBlocks).filter (·.height = h) =
      (rawBlocks.filter fun r => r.height = h && !isFinalized finalityDepth rawBlocks h.2).map BlockRow.block := by
    rw [stgShadowTipBlocks, List.filter_map, List.filter_filter]
    apply congrArg (List.map BlockRow.block)
    apply List.filter_congr
    intro r _
    by_cases here : r.height = h
    · subst here
      rfl
    · simp [here, height_block]
  cases final : isFinalized finalityDepth rawBlocks h.2 with
  | true =>
      obtain ⟨b, member, rfl⟩ := List.mem_map.mp
        ((mem_canonical_heights finalityDepth rawBlocks h).mpr ⟨final, ingested⟩)
      refine Or.inl ⟨b, Keyed.filter_key CanonicalBlock.height
        (stgCanonicalBlocks_unique finalityDepth rawBlocks) member, ?_⟩
      rw [shadow, final]
      simp
  | false =>
      refine Or.inr ⟨?_, ?_⟩
      · rw [List.filter_eq_nil_iff]
        intro b member here
        have canonical := (mem_canonical_heights finalityDepth rawBlocks h).mp
          (List.mem_map.mpr ⟨b, member, of_decide_eq_true here⟩)
        rw [final] at canonical
        cases canonical.1
      · rw [shadow, final]
        simp

def blockRowAt (blockNumber ingestedAt : Int) (blockHash : String) : BlockRow :=
  { chainId := 1
    blockNumber := blockNumber
    blockHash := blockHash
    parentHash := ""
    timestamp := 12 * blockNumber
    ingestedAt := ingestedAt
    runPartitionId := "r" }

/-- Height 1 is ingested twice, and height 3 is still in the shadow. -/
theorem canonical_or_shadow_reingested :
    (∃ b, (stgCanonicalBlocks 1 [blockRowAt 1 5 "0xa", blockRowAt 3 6 "0xb", blockRowAt 1 7 "0xc"]).filter
          (·.height = (1, 1)) = [b] ∧
        (stgShadowTipBlocks 1 [blockRowAt 1 5 "0xa", blockRowAt 3 6 "0xb", blockRowAt 1 7 "0xc"]).filter
          (·.height = (1, 1)) = []) ∨
      ((stgCanonicalBlocks 1 [blockRowAt 1 5 "0xa", blockRowAt 3 6 "0xb", blockRowAt 1 7 "0xc"]).filter
          (·.height = (1, 1)) = [] ∧
        (stgShadowTipBlocks 1 [blockRowAt 1 5 "0xa", blockRowAt 3 6 "0xb", blockRowAt 1 7 "0xc"]).filter
            (·.height = (1, 1)) =
          ([blockRowAt 1 5 "0xa", blockRowAt 3 6 "0xb", blockRowAt 1 7 "0xc"].filter
            (·.height = (1, 1))).map BlockRow.block) :=
  canonical_or_shadow 1 _ (1, 1) (by decide)

/-! ## A growing table -/

/-- The rows ingested by the first runs. -/
def ingestedBefore (batches : Nat → List BlockRow) (n : Nat) : List BlockRow :=
  (List.range n).flatMap batches

theorem mem_ingestedBefore (batches : Nat → List BlockRow) (n : Nat) (r : BlockRow) :
    r ∈ ingestedBefore batches n ↔ ∃ k < n, r ∈ batches k := by
  simp [ingestedBefore]

theorem ingestedBefore_mono (batches : Nat → List BlockRow) {m n : Nat} (earlier : m ≤ n) :
    ingestedBefore batches m ⊆ ingestedBefore batches n := by
  intro r member
  obtain ⟨k, before, inside⟩ := (mem_ingestedBefore batches m r).mp member
  exact (mem_ingestedBefore batches n r).mpr ⟨k, by omega, inside⟩

/-- A height that is canonical after one run is canonical after every later run. Its row is still one of
the same ingestion time, or a run in between has ingested a row no older. -/
theorem canonical_history (finalityDepth : Int) (batches : Nat → List BlockRow) (views : Nat → List BlockRow)
    (selected : ∀ n, IsCanonical finalityDepth (ingestedBefore batches n) (views n)) {m n : Nat}
    (earlier : m ≤ n) (c : BlockRow) (canonical : c ∈ views m) :
    ∃ c' ∈ views n, c'.height = c.height ∧
      ((c' ∈ ingestedBefore batches m ∧ c'.ingestedAt = c.ingestedAt) ∨
        ∃ k, m ≤ k ∧ k < n ∧ c' ∈ batches k ∧ c.ingestedAt ≤ c'.ingestedAt) := by
  have grown := ingestedBefore_mono batches earlier
  obtain ⟨c', canonical', same, later, old⟩ := (selected m).grow (selected n)
    (finalizedBlocks_mono finalityDepth grown) c canonical
  refine ⟨c', canonical', same, ?_⟩
  obtain ⟨inside, -⟩ := List.mem_filter.mp ((selected n).inside c' canonical')
  obtain ⟨k, before, here⟩ := (mem_ingestedBefore batches n c').mp inside
  by_cases known : c' ∈ ingestedBefore batches m
  · refine Or.inl ⟨known, old (List.mem_filter.mpr ⟨known, ?_⟩)⟩
    -- the height of `c` was final already
    have final := (List.mem_filter.mp ((selected m).inside c canonical)).2
    have number : c'.blockNumber = c.blockNumber := congrArg Prod.snd same
    rw [number]
    exact final
  · refine Or.inr ⟨k, ?_, before, here, later⟩
    by_contra recent
    exact known ((mem_ingestedBefore batches m c').mpr ⟨k, by omega, here⟩)

/-- Height 1 is ingested again by the second run, and later blocks by every run. -/
def reingestion (run : Nat) : List BlockRow :=
  [blockRowAt 1 run (if run = 0 then "0xa" else "0xc"), blockRowAt (run + 2) run "0xb"]

theorem canonical_history_reingestion :
    ∃ c' ∈ latestBlocks (finalizedBlocks 1 (ingestedBefore reingestion 2)),
      c'.height = (blockRowAt 1 0 "0xa").height ∧
        ((c' ∈ ingestedBefore reingestion 1 ∧ c'.ingestedAt = (blockRowAt 1 0 "0xa").ingestedAt) ∨
          ∃ k, 1 ≤ k ∧ k < 2 ∧ c' ∈ reingestion k ∧ (blockRowAt 1 0 "0xa").ingestedAt ≤ c'.ingestedAt) :=
  canonical_history 1 reingestion (fun n => latestBlocks (finalizedBlocks 1 (ingestedBefore reingestion n)))
    (fun n => latestBlocks_isCanonical 1 _) (by decide) (blockRowAt 1 0 "0xa") (by decide)

/-! ## Continuity -/

end EconomicLedger.Staging
