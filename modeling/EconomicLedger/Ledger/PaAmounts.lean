import EconomicLedger.Ledger.Reserves
import EconomicLedger.Model.Rollups

/-!
# The LINK leg of a Payment Abstraction event

An event reports an amount of its source token, and a swap or a deposit may report one of LINK beside
it. The ledger keeps the LINK leg unless a reported zero is replaced by the source amount, or that amount
is of another token.
-/

namespace EconomicLedger.Ledger
open Model Fallible

variable (sha256 : Digest) (registry : ContractRegistry)

/-! ## What an event reports -/

def sourceTokenNames : List String := ["sourceToken", "tokenIn", "token"]

def reported (ev : DecodedEvent) (names : List String) : Option Int :=
  (firstPresent (nameMajor ev names)).map fun value => value.toInt.toOption.getD 0

def sourceAmountOf (ev : DecodedEvent) : Int := (reported ev sourceAmountNames).getD 0

def explicitOutput (ev : DecodedEvent) : Option Int := reported ev outputAmountNames

def foreignToken (ev : DecodedEvent) : Bool :=
  match pullToken ev sourceTokenNames with
  | some token => token ≠ linkTokenAddress
  | none => false

def sourceLeg (ev : DecodedEvent) : Option Int :=
  if foreignToken ev then none else some (sourceAmountOf ev)

def linkLeg (ev : DecodedEvent) (kind : PAActionKind) : Option Int :=
  match kind with
  | .feeReceived | .serviceFeeForwarded => sourceLeg ev
  | .swapExecuted =>
      match explicitOutput ev with
      | some output => some output
      | none => sourceLeg ev
  | .reservesDeposit =>
      match explicitOutput ev with
      | some output => if output = 0 then sourceLeg ev else some output
      | none => sourceLeg ev
  | .configChanged => none

/-- Every entry books the LINK leg. A swap books what LINK it reports, and nothing if that is zero. -/
def TracksLink (ev : DecodedEvent) (entries : List PALedgerEntry) : Prop :=
  ∀ kind, paKind registry ev = some kind →
    (∀ e ∈ entries, linkLeg ev kind = some e.amountLink) ∧
    (kind = .swapExecuted → explicitOutput ev = some 0 → entries = []) ∧
    (kind = .swapExecuted → ∀ output, explicitOutput ev = some output → 0 < output → entries ≠ [])

/-- The source amount is of LINK, or nothing is reported of it. -/
def SourceInLink (ev : DecodedEvent) : Prop := foreignToken ev = false ∨ sourceAmountOf ev ≤ 0

def LinkOnly (ev : DecodedEvent) (kind : PAActionKind) : Prop :=
  match kind with
  | .feeReceived | .serviceFeeForwarded =>
      foreignToken ev = false ∨ (sourceAmountOf ev ≤ 0 ∧ (explicitOutput ev).getD 0 ≤ 0)
  | .swapExecuted =>
      match explicitOutput ev with
      | some output => output = 0 → sourceAmountOf ev ≤ 0
      | none => SourceInLink ev
  | .reservesDeposit => (explicitOutput ev).getD 0 = 0 → SourceInLink ev
  | .configChanged => True

theorem pullAmount_eq_ok (ev : DecodedEvent) (names : List String) (amount : Int)
    (pulled : pullAmount ev names = .ok amount) : amount = (reported ev names).getD 0 := by
  unfold pullAmount at pulled
  unfold reported
  cases found : firstPresent (nameMajor ev names) with
  | none =>
      rw [found] at pulled
      cases pulled
      rfl
  | some value =>
      simp only [found] at pulled
      simp only [Option.map_some, pulled]
      rfl

/-! ## What is booked -/

/-- A property of the amounts in the entries is one of the booked amount. -/
theorem forall_entries_iff (action : PAEconomicAction) (p : Int → Prop) :
    (∀ e ∈ buildPaLedgerEntries sha256 action, p e.amountLink) ↔ (Books action → p (bookedAmount action)) := by
  by_cases books : Books action
  · obtain ⟨debited, credited, pair⟩ := buildPaLedgerEntries_booked sha256 action books
    rw [pair, bookPair, List.forall_mem_cons, List.forall_mem_singleton]
    exact ⟨fun both _ => both.1, fun booked => ⟨booked books, booked books⟩⟩
  · rw [buildPaLedgerEntries_unbooked sha256 action books]
    exact ⟨fun _ here => absurd here books, fun _ _ member => nomatch member⟩

theorem entries_eq_nil_iff (action : PAEconomicAction) :
    buildPaLedgerEntries sha256 action = [] ↔ ¬ Books action := by
  constructor
  · intro none books
    obtain ⟨debited, credited, pair⟩ := buildPaLedgerEntries_booked sha256 action books
    rw [pair] at none
    cases none
  · exact buildPaLedgerEntries_unbooked sha256 action

/-! ## The LINK leg -/

variable {sha256 registry}

theorem classified_cases {ev : DecodedEvent} {actions : List PAEconomicAction}
    (classified : classifyPaEventAsAction sha256 ev registry = .ok actions) :
    (paKind registry ev = none ∧ actions = []) ∨
    ∃ kind, paKind registry ev = some kind ∧ actions =
      [paActionOf sha256 registry ev kind (sourceAmountOf ev) ((explicitOutput ev).getD 0)] := by
  rw [classifyPaEventAsAction_eq] at classified
  cases found : paKind registry ev with
  | none =>
      rw [found] at classified
      cases classified
      exact Or.inl ⟨rfl, rfl⟩
  | some kind =>
      simp only [found, bind_eq_ok_iff, pure_eq_ok_iff] at classified
      obtain ⟨sourceAmount, pulledSource, outputAmount, pulledOutput, rfl⟩ := classified
      rw [pullAmount_eq_ok ev _ _ pulledSource, pullAmount_eq_ok ev _ _ pulledOutput]
      exact Or.inr ⟨kind, rfl, rfl⟩

theorem books_iff (ev : DecodedEvent) (kind : PAActionKind) (sourceAmount outputAmount : Int) :
    Books (paActionOf sha256 registry ev kind sourceAmount outputAmount) ↔
      kind ≠ .configChanged ∧ (0 < outputAmount ∨ 0 < sourceAmount) := by
  unfold Books paActionOf
  refine and_congr_right fun _ => ?_
  dsimp only
  split_ifs with zero <;> omega

theorem paAmount_iff (ev : DecodedEvent) (kind : PAActionKind) (action : PAEconomicAction)
    (isAction : action = paActionOf sha256 registry ev kind (sourceAmountOf ev) ((explicitOutput ev).getD 0)) :
    ((Books action → linkLeg ev kind = some (bookedAmount action)) ∧
      (kind = .swapExecuted → explicitOutput ev = some 0 → ¬ Books action) ∧
      (kind = .swapExecuted → ∀ output, explicitOutput ev = some output → 0 < output → ¬ ¬ Books action)) ↔
    LinkOnly ev kind := by
  subst isAction
  have landed (isSwap : kind = .swapExecuted) (output : Int) (reports : explicitOutput ev = some output)
      (positive : 0 < output) :
      ¬ ¬ Books (paActionOf sha256 registry ev kind (sourceAmountOf ev) ((explicitOutput ev).getD 0)) := by
    rw [not_not, books_iff, isSwap, reports]
    exact ⟨nofun, Or.inl positive⟩
  rw [and_iff_left landed, books_iff]
  cases kind with
  | feeReceived | serviceFeeForwarded =>
      simp only [linkLeg, sourceLeg, bookedAmount, paActionOf, LinkOnly]
      cases foreignToken ev with
      | false => simp
      | true =>
          simp
          omega
  | swapExecuted =>
      simp only [linkLeg, sourceLeg, bookedAmount, paActionOf, LinkOnly, SourceInLink]
      cases explicitOutput ev with
      | none => cases foreignToken ev <;> simp
      | some output =>
          by_cases zero : output = 0
          · simp [zero]
            omega
          · simp [zero]
  | reservesDeposit =>
      simp only [linkLeg, sourceLeg, bookedAmount, paActionOf, LinkOnly, SourceInLink]
      cases explicitOutput ev with
      | none => cases foreignToken ev <;> simp
      | some output =>
          by_cases zero : output = 0
          · cases foreignToken ev <;> simp [zero]
          · simp [zero]
  | configChanged => simp [LinkOnly]

variable (sha256 registry)

/-- The ledger keeps the LINK leg exactly where no zero output is overridden and no other token booked. -/
theorem pa_amounts_in_link_iff (ev : DecodedEvent) (actions : List PAEconomicAction)
    (classified : classifyPaEventAsAction sha256 ev registry = .ok actions) :
    TracksLink registry ev (paLedgerEntries sha256 actions) ↔
      ∀ kind, paKind registry ev = some kind → LinkOnly ev kind := by
  refine forall_congr' fun kind => forall_congr' fun isKind => ?_
  rcases classified_cases classified with ⟨none, -⟩ | ⟨kind', isKind', rfl⟩
  · cases none.symm.trans isKind
  · obtain rfl := Option.some.inj (isKind'.symm.trans isKind)
    rw [paLedgerEntries, List.flatMap_singleton, ne_eq, entries_eq_nil_iff,
      forall_entries_iff sha256 _ fun amount => linkLeg ev kind' = some amount]
    exact paAmount_iff ev kind' _ rfl

/-! ## A swap and a fee -/

def paRegistry : ContractRegistry := registryOf [("0xf0", "pa_fee_aggregator"), ("0xf1", "pa_swap_automator")]

def swapOf (output : Int) : DecodedEvent :=
  eventAt "0xf1" "SwapExecuted" 0
    [("tokenIn", .str "0xc1"), ("sourceAmount", .int 50), ("outputAmount", .int output)]

def feeOf (token : String) : DecodedEvent :=
  eventAt "0xf0" "FeeReceived" 1 [("token", .str token), ("amount", .int 50)]

def paActions (ev : DecodedEvent) : List PAEconomicAction := results (classifyPaEventAsAction id ev paRegistry)

theorem pa_amounts_in_link_swap : TracksLink paRegistry (swapOf 7) (paLedgerEntries id (paActions (swapOf 7))) := by
  have isSwap : paKind paRegistry (swapOf 7) = some .swapExecuted := by decide +kernel
  refine (pa_amounts_in_link_iff id paRegistry (swapOf 7) (paActions (swapOf 7)) (by decide +kernel)).mpr ?_
  intro kind isKind
  obtain rfl := Option.some.inj (isSwap.symm.trans isKind)
  intro zero
  exact absurd zero (by decide)

/-- A swap of no LINK books the source amount, and a fee of another token its own. -/
theorem other_tokens_booked :
    (paLedgerEntries id (paActions (swapOf 0))).map LedgerEntry.amountLink = [50, 50] ∧
    ¬ TracksLink paRegistry (swapOf 0) (paLedgerEntries id (paActions (swapOf 0))) ∧
    (paLedgerEntries id (paActions (feeOf "0xc1"))).map LedgerEntry.amountLink = [50, 50] ∧
    ¬ TracksLink paRegistry (feeOf "0xc1") (paLedgerEntries id (paActions (feeOf "0xc1"))) := by
  refine ⟨by decide +kernel, fun tracks => ?_, by decide +kernel, fun tracks => ?_⟩
  · have none := (tracks .swapExecuted (by decide +kernel)).2.1 rfl (by decide +kernel)
    exact absurd none (by decide +kernel)
  · have own := (tracks .feeReceived (by decide +kernel)).1
    exact absurd own (by decide +kernel)

end EconomicLedger.Ledger
