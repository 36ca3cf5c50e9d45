import EconomicLedger.Ledger.PaAmounts

/-!
# Positive amounts

Staking books no entry of zero. Payment Abstraction books an action when either of its amounts is
positive, and then one of the two.
-/

namespace EconomicLedger.Ledger
open Model Fallible

variable (sha256 : Digest) (registry : ContractRegistry)

/-! ## Unsigned amounts -/

def isUnsigned : Value → Bool
  | .none | .bool _ => true
  | .int n => 0 ≤ n
  | _ => false

/-- Every amount parameter is a non-negative integer or missing. -/
def UnsignedAmounts (ev : DecodedEvent) : Prop :=
  ∀ source ∈ [ev.indexedParams, ev.dataParams], ∀ name ∈ amountNames,
    (source.get? name).all isUnsigned = true

instance (ev : DecodedEvent) : Decidable (UnsignedAmounts ev) :=
  inferInstanceAs (Decidable (∀ source ∈ [ev.indexedParams, ev.dataParams], ∀ name ∈ amountNames,
    (source.get? name).all isUnsigned = true))

theorem isAmount_of_isUnsigned (value : Value) (unsigned : isUnsigned value = true) : isAmount value = true := by
  cases value with
  | none | bool b | int n => rfl
  | str s | bytes bs | seq vs => cases unsigned

theorem UnsignedAmounts.integral {ev : DecodedEvent} (unsigned : UnsignedAmounts ev) : IntegerAmounts ev := by
  intro source isSource name isName
  have here := unsigned source isSource name isName
  cases found : source.get? name with
  | none => rfl
  | some value =>
      rw [found, Option.all_some] at here
      rw [Option.all_some]
      exact isAmount_of_isUnsigned value here

theorem nonneg_of_isUnsigned (value : Value) (unsigned : isUnsigned value = true) (n : Int)
    (converts : value.toInt = .ok n) : 0 ≤ n := by
  cases value with
  | none => cases converts
  | bool b =>
      cases converts
      cases b <;> decide
  | int m =>
      cases converts
      exact of_decide_eq_true unsigned
  | str s | bytes bs | seq vs => cases unsigned

theorem UnsignedAmounts.nonneg {ev : DecodedEvent} (unsigned : UnsignedAmounts ev)
    (lookups : List (Dict String Value × String))
    (own : ∀ lookup ∈ lookups, lookup.1 ∈ [ev.indexedParams, ev.dataParams] ∧ lookup.2 ∈ amountNames)
    (value : Value) (found : firstPresent lookups = some value) (n : Int)
    (converts : value.toInt = .ok n) : 0 ≤ n := by
  obtain ⟨-, lookup, member, here⟩ := firstPresent_eq_some lookups value found
  obtain ⟨isSource, isName⟩ := own lookup member
  have isUnsigned := unsigned lookup.1 isSource lookup.2 isName
  rw [here, Option.all_some] at isUnsigned
  exact nonneg_of_isUnsigned value isUnsigned n converts

theorem UnsignedAmounts.reported_nonneg {ev : DecodedEvent} (unsigned : UnsignedAmounts ev)
    (names : List String) (known : names ⊆ amountNames) : 0 ≤ (reported ev names).getD 0 := by
  obtain ⟨n, pulled⟩ := pullAmount_ok ev unsigned.integral names known
  rw [← pullAmount_eq_ok ev names n pulled]
  unfold pullAmount at pulled
  cases found : firstPresent (nameMajor ev names) with
  | none =>
      rw [found] at pulled
      cases pulled
      exact le_refl 0
  | some value =>
      rw [found] at pulled
      exact unsigned.nonneg _ (mem_nameMajor ev names known) value found n pulled

theorem UnsignedAmounts.extracted_nonneg {ev : DecodedEvent} (unsigned : UnsignedAmounts ev) (n : Int)
    (extracted : extractAmountLink ev = .ok n) : 0 ≤ n := by
  unfold extractAmountLink at extracted
  cases found : firstPresent (sourceMajor ev amountLinkKeys) with
  | none =>
      rw [found] at extracted
      cases extracted
      exact le_refl 0
  | some value =>
      rw [found] at extracted
      exact unsigned.nonneg _ (mem_sourceMajor ev) value found n extracted

/-! ## What is booked -/

theorem amountLink_nonneg {ev : DecodedEvent} (unsigned : UnsignedAmounts ev) (actions : List EconomicAction)
    (classified : classifyEventAsAction sha256 ev registry = .ok actions) (action : EconomicAction)
    (member : action ∈ actions) : 0 ≤ action.amountLink := by
  rw [classifyEventAsAction_eq] at classified
  cases found : stakingKind registry ev with
  | none =>
      rw [found] at classified
      cases classified
      cases member
  | some kind =>
      obtain ⟨amount, extracted⟩ := extractAmountLink_ok ev unsigned.integral
      rw [found, extracted] at classified
      cases classified
      have nonneg := unsigned.extracted_nonneg amount extracted
      have amountOf : action.amountLink = amount := by
        unfold actionsOf at member
        split_ifs at member with migrated
        · rcases List.mem_cons.mp member with rfl | later
          · rfl
          · rw [List.mem_singleton.mp later]
            rfl
        · rw [List.mem_singleton.mp member]
          rfl
      rw [amountOf]
      exact nonneg

theorem buildLedgerEntries_positive (action : EconomicAction) (nonneg : 0 ≤ action.amountLink)
    (movements : List TokenMovement) : ∀ e ∈ buildLedgerEntries sha256 action movements, 0 < e.amountLink := by
  by_cases nothing : action.amountLink = 0
  · have none : buildLedgerEntries sha256 action movements = [] := by
      rw [buildLedgerEntries, if_pos nothing]
    rw [none]
    exact nofun
  · have positive : 0 < action.amountLink := lt_of_le_of_ne nonneg (Ne.symm nothing)
    rcases buildLedgerEntries_cases sha256 action movements with none | ⟨debited, credited, pair⟩
    · rw [none]
      exact nofun
    · rw [pair, bookPair, List.forall_mem_cons, List.forall_mem_singleton]
      exact ⟨positive, positive⟩

theorem stakingEntries_positive {ev : DecodedEvent} (unsigned : UnsignedAmounts ev)
    (actions : List EconomicAction) (classified : classifyEventAsAction sha256 ev registry = .ok actions)
    (movements : EconomicAction → List TokenMovement) :
    ∀ e ∈ ledgerEntries sha256 movements actions, 0 < e.amountLink := by
  intro e member
  obtain ⟨action, inside, isEntry⟩ := List.mem_flatMap.mp member
  have nonneg := amountLink_nonneg sha256 registry unsigned actions classified action inside
  exact buildLedgerEntries_positive sha256 action nonneg (movements action) e isEntry

def booksSource : PAActionKind → Bool
  | .feeReceived | .serviceFeeForwarded => true
  | _ => false

theorem paAmount_positive_iff (ev : DecodedEvent) (kind : PAActionKind) (sourceAmount outputAmount : Int)
    (source : 0 ≤ sourceAmount) (output : 0 ≤ outputAmount) :
    (Books (paActionOf sha256 registry ev kind sourceAmount outputAmount) →
      0 < bookedAmount (paActionOf sha256 registry ev kind sourceAmount outputAmount)) ↔
    (booksSource kind = true → sourceAmount = 0 → outputAmount = 0) := by
  rw [books_iff]
  cases kind with
  | feeReceived | serviceFeeForwarded =>
      simp only [bookedAmount, paActionOf, booksSource]
      simp
      omega
  | swapExecuted =>
      simp only [bookedAmount, paActionOf, booksSource]
      split_ifs with zero <;> simp <;> omega
  | reservesDeposit =>
      simp only [bookedAmount, paActionOf, booksSource]
      split_ifs with zero <;> simp <;> omega
  | configChanged => simp [booksSource]

/-! ## The ledgers of an event -/

def AmountsPositive (movements : EconomicAction → List TokenMovement) (ev : DecodedEvent) : Prop :=
  ∃ actions paActions, classifyEventAsAction sha256 ev registry = .ok actions ∧
    classifyPaEventAsAction sha256 ev registry = .ok paActions ∧
    (∀ e ∈ ledgerEntries sha256 movements actions, 0 < e.amountLink) ∧
    ∀ e ∈ paLedgerEntries sha256 paActions, 0 < e.amountLink

/-- Every amount is positive except where a fee reports an output and no source amount. -/
theorem ledger_amounts_positive_iff (movements : EconomicAction → List TokenMovement) (ev : DecodedEvent)
    (unsigned : UnsignedAmounts ev) :
    AmountsPositive sha256 registry movements ev ↔
      ∀ kind, paKind registry ev = some kind → booksSource kind = true →
        sourceAmountOf ev = 0 → (explicitOutput ev).getD 0 = 0 := by
  obtain ⟨actions, classified⟩ := classifyEventAsAction_ok sha256 registry ev unsigned.integral
  obtain ⟨paActions, paClassified⟩ := classifyPaEventAsAction_ok sha256 registry ev unsigned.integral
  have staking := stakingEntries_positive sha256 registry unsigned actions classified movements
  have pa : (∀ e ∈ paLedgerEntries sha256 paActions, 0 < e.amountLink) ↔
      ∀ kind, paKind registry ev = some kind → booksSource kind = true →
        sourceAmountOf ev = 0 → (explicitOutput ev).getD 0 = 0 := by
    rcases classified_cases paClassified with ⟨none, rfl⟩ | ⟨kind, isKind, rfl⟩
    · rw [none]
      exact ⟨fun _ _ => nofun, fun _ => nofun⟩
    · have source : 0 ≤ sourceAmountOf ev := unsigned.reported_nonneg _ sourceAmountNames_subset
      have output : 0 ≤ (explicitOutput ev).getD 0 := unsigned.reported_nonneg _ outputAmountNames_subset
      rw [paLedgerEntries, List.flatMap_singleton, forall_entries_iff sha256 _ fun amount => 0 < amount,
        paAmount_positive_iff sha256 registry ev kind _ _ source output, isKind]
      exact ⟨fun own kind' same => Option.some.inj same ▸ own, fun each => each kind rfl⟩
  constructor
  · rintro ⟨actions', paActions', -, paClassified', -, positive⟩
    obtain rfl := Except.ok.inj (paClassified.symm.trans paClassified')
    exact pa.mp positive
  · exact fun covered => ⟨actions, paActions, classified, paClassified, staking, pa.mpr covered⟩

/-! ## A fee in LINK -/

def feeReporting (name : String) : DecodedEvent := eventAt "0xf0" "FeeReceived" 0 [(name, .int 5)]

theorem ledger_amounts_positive_fee : AmountsPositive id paRegistry (fun _ => []) (feeReporting "amount") := by
  refine (ledger_amounts_positive_iff id paRegistry _ (feeReporting "amount") (by decide +kernel)).mpr ?_
  intro kind _ _ zero
  exact absurd zero (by decide +kernel)

/-- A fee that reports its amount as LINK is booked as zero. -/
theorem zero_fee_booked : UnsignedAmounts (feeReporting "linkAmount") ∧
    (paLedgerEntries id (paActions (feeReporting "linkAmount"))).map LedgerEntry.amountLink = [0, 0] ∧
    ¬ AmountsPositive id paRegistry (fun _ => []) (feeReporting "linkAmount") := by
  refine ⟨by decide +kernel, by decide +kernel, ?_⟩
  rintro ⟨-, paActions', -, classified, -, positive⟩
  have own : classifyPaEventAsAction id (feeReporting "linkAmount") paRegistry =
      .ok (paActions (feeReporting "linkAmount")) := by decide +kernel
  obtain rfl := Except.ok.inj (own.symm.trans classified)
  exact absurd positive (by decide +kernel)

end EconomicLedger.Ledger
