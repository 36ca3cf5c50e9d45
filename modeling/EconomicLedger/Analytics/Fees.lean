import EconomicLedger.Ledger.Reserves
import EconomicLedger.Lib.Rollup
import EconomicLedger.Model.Analytics

/-!
# Fee attribution

The inflow of a source is the sum over its rows. A row without a counterparty is read as one of a
source named `none`.
-/

namespace EconomicLedger.Analytics
open Model Fallible Rollup Text

def textValue : Option String → Value
  | none => .none
  | some s => .str s

/-- A row of a PA action. -/
structure FeeRow where
  row : Dict String Value
  action : PAEconomicAction
  counterparty_eq : row.get? "counterparty" = some (textValue action.counterparty)
  output_eq : row.get? "output_amount" = some (.int action.outputAmount)

def FeeRow.amount (r : FeeRow) : Int := r.action.outputAmount

/-- The lower-cased counterparty, or `none`. -/
def FeeRow.source (r : FeeRow) : String := lower (r.action.counterparty.getD "None")

def FeeRow.key (r : FeeRow) : String × String := (classifyService r.source, r.source)

def kept (rows : List FeeRow) : List FeeRow := rows.filter (·.source ≠ "")

def attribution (snapshotDate : String) (e : (String × String) × Int) : FeeAttribution :=
  { snapshotDate := snapshotDate, service := e.1.1, sourceAddress := e.1.2, inflowLink := e.2 }

theorem addInflow_eq (r : FeeRow) (bucket : Dict (String × String) Int) :
    addInflow bucket r.row =
      .ok (if r.source ≠ "" then bucket.upsert r.key fun inflow => inflow.getD 0 + r.amount else bucket) := by
  have key : counterpartyKey r.row = r.source := by
    rw [counterpartyKey, r.counterparty_eq, FeeRow.source]
    cases r.action.counterparty <;> rfl
  have inflow : inflowOf r.row = .ok r.amount := by
    rw [inflowOf, r.output_eq]
    rfl
  rw [addInflow, key, inflow]
  by_cases blank : r.source = ""
  · simp [blank]
  · simp only [blank, if_false, ok_bind, ne_eq, not_false_eq_true, if_true]
    rfl

theorem attributePaFees_eq (rows : List FeeRow) (snapshotDate : String) :
    attributePaFees (rows.map FeeRow.row) snapshotDate =
      .ok (((totals FeeRow.key FeeRow.amount (kept rows)).entries.map (attribution snapshotDate)).insertionSort
        (·.inflowLink ≥ ·.inflowLink)) := by
  have loop (bucket : Dict (String × String) Int) :
      (rows.map FeeRow.row).foldlM addInflow bucket =
        .ok (Dict.gather FeeRow.key (fun sum r => sum.getD 0 + r.amount) bucket (kept rows)) := by
    induction rows generalizing bucket with
    | nil => rfl
    | cons r rest ih =>
        rw [List.map_cons, List.foldlM_cons, addInflow_eq, ok_bind, ih, kept, kept, List.filter_cons]
        by_cases blank : r.source = ""
        · simp [blank]
        · simp [blank, Dict.gather]
  rw [attributePaFees, loop]
  rfl

/-! ## What the attributions say -/

/-- The rows that name a counterparty. -/
def named (rows : List FeeRow) : List FeeRow := rows.filter fun r => r.action.counterparty.any (· ≠ "")

structure Attributes (rows : List FeeRow) (out : List FeeAttribution) : Prop where
  distinct : (out.map fun a => (a.service, a.sourceAddress)).Nodup
  sorted : out.Pairwise (·.inflowLink ≥ ·.inflowLink)
  sources : ∀ source,
    source ∈ out.map FeeAttribution.sourceAddress ↔ source ∈ (named rows).map FeeRow.source
  inflows : ∀ a ∈ out, a.service = classifyService a.sourceAddress ∧
    a.inflowLink = (((named rows).filter (·.source = a.sourceAddress)).map FeeRow.amount).sum
  total : (out.map FeeAttribution.inflowLink).sum = ((named rows).map FeeRow.amount).sum

def ConservesFees (rows : List FeeRow) (snapshotDate : String) : Prop :=
  ∃ out, attributePaFees (rows.map FeeRow.row) snapshotDate = .ok out ∧ Attributes rows out ∧
    ∀ rows' : List FeeRow, rows'.Perm rows →
      ∃ out', attributePaFees (rows'.map FeeRow.row) snapshotDate = .ok out' ∧ out'.Perm out

def unnamed (rows : List FeeRow) : List FeeRow := rows.filter fun r => r.action.counterparty = none

/-- Rows without a counterparty bring nothing, and stand beside a counterparty `none`. -/
def UnnamedHidden (rows : List FeeRow) : Prop :=
  ((unnamed rows).map FeeRow.amount).sum = 0 ∧ "none" ∈ (named rows).map FeeRow.source

theorem kept_perm (rows : List FeeRow) : (kept rows).Perm (unnamed rows ++ named rows) := by
  have parts := List.filter_append_perm (fun r : FeeRow => decide (r.action.counterparty = none)) (kept rows)
  have left : (kept rows).filter (fun r => decide (r.action.counterparty = none)) = unnamed rows := by
    rw [kept, unnamed, List.filter_filter]
    apply List.filter_congr
    intro r _
    cases cp : r.action.counterparty with
    | none => simp [FeeRow.source, cp]
    | some s => simp
  have right : (kept rows).filter (fun r => !decide (r.action.counterparty = none)) = named rows := by
    rw [kept, named, List.filter_filter]
    apply List.filter_congr
    intro r _
    cases cp : r.action.counterparty with
    | none => simp
    | some s => simp [FeeRow.source, cp]
  rw [left, right] at parts
  exact parts.symm

theorem source_of_unnamed (rows : List FeeRow) : ∀ r ∈ unnamed rows, r.source = "none" := by
  intro r member
  rw [FeeRow.source, of_decide_eq_true (List.mem_filter.mp member).2]
  decide

/-! ## One attribution for each source -/

def inflow (rows : List FeeRow) (source : String) : Int :=
  ((rows.filter (·.source = source)).map FeeRow.amount).sum

theorem inflow_kept (rows : List FeeRow) (source : String) :
    inflow (kept rows) source =
      (if source = "none" then ((unnamed rows).map FeeRow.amount).sum else 0) + inflow (named rows) source := by
  rw [inflow, (((kept_perm rows).filter _).map FeeRow.amount).sum_eq, List.filter_append, List.map_append,
    List.sum_append]
  congr 1
  split
  next none =>
    rw [List.filter_eq_self.mpr]
    intro r member
    rw [source_of_unnamed rows r member, none]
    rfl
  next other =>
    rw [List.filter_eq_nil_iff.mpr]
    · rfl
    · intro r member
      rw [source_of_unnamed rows r member]
      simpa using Ne.symm other

theorem mem_sources_kept (rows : List FeeRow) (source : String) :
    source ∈ (kept rows).map FeeRow.source ↔
      source = "none" ∧ unnamed rows ≠ [] ∨ source ∈ (named rows).map FeeRow.source := by
  rw [((kept_perm rows).map FeeRow.source).mem_iff, List.map_append, List.mem_append]
  refine or_congr_left ⟨fun member => ?_, fun ⟨unknown, present⟩ => ?_⟩
  · obtain ⟨r, inside, rfl⟩ := List.mem_map.mp member
    exact ⟨source_of_unnamed rows r inside, List.ne_nil_of_mem inside⟩
  · obtain ⟨r, inside⟩ := List.exists_mem_of_ne_nil _ present
    exact List.mem_map.mpr ⟨r, inside, unknown ▸ source_of_unnamed rows r inside⟩

theorem key_eq_iff (r : FeeRow) (service source : String) :
    r.key = (service, source) ↔ service = classifyService source ∧ r.source = source := by
  rw [FeeRow.key, Prod.mk.injEq]
  constructor
  · rintro ⟨rfl, rfl⟩
    exact ⟨rfl, rfl⟩
  · rintro ⟨rfl, rfl⟩
    exact ⟨rfl, rfl⟩

variable (snapshotDate : String)

def attributions (rows : List FeeRow) : List FeeAttribution :=
  ((totals FeeRow.key FeeRow.amount (kept rows)).entries.map (attribution snapshotDate)).insertionSort
    (·.inflowLink ≥ ·.inflowLink)

theorem attributions_perm (rows : List FeeRow) : (attributions snapshotDate rows).Perm
    ((totals FeeRow.key FeeRow.amount (kept rows)).entries.map (attribution snapshotDate)) :=
  List.perm_insertionSort _ _

theorem mem_attributions (rows : List FeeRow) (a : FeeAttribution) :
    a ∈ attributions snapshotDate rows ↔ a.snapshotDate = snapshotDate ∧
      a.sourceAddress ∈ (kept rows).map FeeRow.source ∧ a.service = classifyService a.sourceAddress ∧
      a.inflowLink = inflow (kept rows) a.sourceAddress := by
  rw [(attributions_perm snapshotDate rows).mem_iff, List.mem_map]
  constructor
  · rintro ⟨⟨⟨service, source⟩, amount⟩, member, rfl⟩
    obtain ⟨present, sum⟩ := (mem_totals _ _ _ _ _).mp member
    obtain ⟨r, inside, own⟩ := List.mem_map.mp present
    obtain ⟨classified, same⟩ := (key_eq_iff r service source).mp own
    refine ⟨rfl, List.mem_map.mpr ⟨r, inside, same⟩, classified, sum.trans ?_⟩
    simp only [key_eq_iff, classified, true_and]
    rfl
  · rintro ⟨date, present, service, amount⟩
    obtain ⟨r, inside, own⟩ := List.mem_map.mp present
    refine ⟨((a.service, a.sourceAddress), a.inflowLink), (mem_totals _ _ _ _ _).mpr ⟨?_, ?_⟩, ?_⟩
    · exact List.mem_map.mpr ⟨r, inside, (key_eq_iff r _ _).mpr ⟨service, own⟩⟩
    · rw [amount]
      simp only [key_eq_iff, service, true_and]
      rfl
    · rw [attribution, ← date]

theorem sources_attributions (rows : List FeeRow) (source : String) :
    source ∈ (attributions snapshotDate rows).map FeeAttribution.sourceAddress ↔
      source ∈ (kept rows).map FeeRow.source := by
  constructor
  · intro member
    obtain ⟨a, inside, rfl⟩ := List.mem_map.mp member
    exact ((mem_attributions snapshotDate rows a).mp inside).2.1
  · intro member
    refine List.mem_map.mpr
      ⟨⟨snapshotDate, classifyService source, source, inflow (kept rows) source⟩, ?_, rfl⟩
    exact (mem_attributions snapshotDate rows _).mpr ⟨rfl, member, rfl, rfl⟩

theorem attributions_of_perm {rows rows' : List FeeRow} (same : rows'.Perm rows) :
    (attributions snapshotDate rows').Perm (attributions snapshotDate rows) :=
  (attributions_perm snapshotDate rows').trans
    (((totals_perm _ _ (same.filter _)).map _).trans (attributions_perm snapshotDate rows).symm)

theorem attributions_distinct (rows : List FeeRow) :
    ((attributions snapshotDate rows).map fun a => (a.service, a.sourceAddress)).Nodup := by
  rw [((attributions_perm snapshotDate rows).map _).nodup_iff, List.map_map]
  exact keys_totals_nodup FeeRow.key FeeRow.amount (kept rows)

theorem attributions_total (rows : List FeeRow) :
    ((attributions snapshotDate rows).map FeeAttribution.inflowLink).sum =
      ((unnamed rows).map FeeRow.amount).sum + ((named rows).map FeeRow.amount).sum := by
  rw [((attributions_perm snapshotDate rows).map _).sum_eq, List.map_map, ← List.sum_append, ← List.map_append,
    ← ((kept_perm rows).map FeeRow.amount).sum_eq]
  exact sum_totals FeeRow.key FeeRow.amount (kept rows)

/-! ## Conservation -/

theorem conservesFees_iff_attributes (rows : List FeeRow) :
    ConservesFees rows snapshotDate ↔ Attributes rows (attributions snapshotDate rows) := by
  constructor
  · rintro ⟨out, returned, attributes, -⟩
    rw [attributePaFees_eq] at returned
    exact (Except.ok.inj returned : attributions snapshotDate rows = out) ▸ attributes
  · intro attributes
    refine ⟨_, attributePaFees_eq rows snapshotDate, attributes, fun rows' same => ?_⟩
    exact ⟨_, attributePaFees_eq rows' snapshotDate, attributions_of_perm snapshotDate same⟩

/-- The attributions conserve the inflow exactly where rows without a counterparty do not show. -/
theorem fee_attribution_conserves_iff (rows : List FeeRow) :
    ConservesFees rows snapshotDate ↔
      (∀ r ∈ rows, r.action.counterparty ≠ none) ∨ UnnamedHidden rows := by
  have allNamed : (∀ r ∈ rows, r.action.counterparty ≠ none) ↔ unnamed rows = [] := by
    rw [unnamed, List.filter_eq_nil_iff]
    simp
  rw [conservesFees_iff_attributes, allNamed, or_iff_not_imp_left]
  constructor
  · intro attributes some
    have present : "none" ∈ (attributions snapshotDate rows).map FeeAttribution.sourceAddress :=
      (sources_attributions snapshotDate rows _).mpr ((mem_sources_kept rows _).mpr (Or.inl ⟨rfl, some⟩))
    refine ⟨?_, (attributes.sources "none").mp present⟩
    obtain ⟨a, member, own⟩ := List.mem_map.mp present
    have sum : a.inflowLink = inflow (named rows) a.sourceAddress := (attributes.inflows a member).2
    obtain ⟨-, -, -, whole⟩ := (mem_attributions snapshotDate rows a).mp member
    have parts := inflow_kept rows a.sourceAddress
    rw [if_pos own] at parts
    omega
  · intro hidden
    have nothing : ((unnamed rows).map FeeRow.amount).sum = 0 := by
      by_cases none : unnamed rows = []
      · rw [none]
        rfl
      · exact (hidden none).1
    refine ⟨attributions_distinct snapshotDate rows, List.pairwise_insertionSort _ _, ?_, ?_, ?_⟩
    · intro source
      rw [sources_attributions, mem_sources_kept]
      refine ⟨?_, Or.inr⟩
      rintro (⟨rfl, some⟩ | member)
      · exact (hidden some).2
      · exact member
    · intro a member
      obtain ⟨-, -, service, amount⟩ := (mem_attributions snapshotDate rows a).mp member
      refine ⟨service, amount.trans ?_⟩
      rw [inflow_kept, nothing, ite_self, zero_add]
      rfl
    · rw [attributions_total, nothing, zero_add]

/-! ### A deposit of no one -/

def depositRow (amount : Int) : FeeRow where
  row := Dict.ofList [("counterparty", .none), ("output_amount", .int amount)]
  action := Ledger.paActionAt "pa_reserves" .reservesDeposit amount
  counterparty_eq := rfl
  output_eq := rfl

theorem none_becomes_source :
    attributePaFees [(depositRow 5).row] "2026-05-11" =
        .ok [{ snapshotDate := "2026-05-11", service := "other", sourceAddress := "none", inflowLink := 5 }] ∧
      ¬ ConservesFees [depositRow 5] "2026-05-11" := by
  refine ⟨rfl, fun conserves => ?_⟩
  obtain ⟨out, returned, attributes, -⟩ := conserves
  obtain rfl := Except.ok.inj returned
  exact absurd attributes.total (by decide +kernel)

end EconomicLedger.Analytics
