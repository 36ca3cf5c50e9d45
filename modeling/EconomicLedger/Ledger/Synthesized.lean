import EconomicLedger.Ledger.Accounts
import EconomicLedger.Ledger.Reserves
import EconomicLedger.Model.SeedToLocal

/-!
# Ledgers of LINK transfers

What a transfer of LINK to a Payment Abstraction contract books. The kind of its action decides the
direction, and only deposits and received fees credit the receiver.
-/

namespace EconomicLedger.Ledger
open Model Text Fallible Relational Keyed

variable (sha256 : Digest)

/-! ## Transfers -/

structure LinkTransfer where
  event : DecodedEvent
  sender : String
  receiver : String
  value : Int
  hasSender : event.indexedParams.get? "from" = some (.str sender)
  hasReceiver : event.indexedParams.get? "to" = some (.str receiver)
  hasValue : event.dataParams.get? "value" = some (.int value)
  named : sender ≠ ""
  unsigned : 0 ≤ value

namespace LinkTransfer

def id (t : LinkTransfer) : String := t.event.decodedEventId

def fromAddr (t : LinkTransfer) : String := lower t.sender

def toAddr (t : LinkTransfer) : String := lower t.receiver

/-- The action a transfer is booked as. -/
def action? (t : LinkTransfer) : Option PAEconomicAction :=
  if t.value ≤ 0 then none
  else (paReceiver t.toAddr).map fun (kind, role) => synthesizedAction sha256 t.event kind role t.value

theorem party_from (t : LinkTransfer) : transferParty t.event "from" = t.fromAddr := by
  rw [transferParty, t.hasSender]
  rfl

theorem party_to (t : LinkTransfer) : transferParty t.event "to" = t.toAddr := by
  rw [transferParty, t.hasReceiver]
  rfl

theorem synthesizeStep_eq (t : LinkTransfer) :
    synthesizeStep sha256 t.event = .ok (t.action? sha256).toList := by
  have amount : ((t.event.dataParams.get? "value").getD (.int 0)).toInt = .ok t.value := by
    rw [t.hasValue]
    rfl
  rw [synthesizeStep, amount, ok_bind, t.party_to, action?]
  split_ifs with nothing
  · rfl
  · cases paReceiver t.toAddr <;> rfl

end LinkTransfer

theorem synthesized_eq (transfers : List LinkTransfer) :
    synthesizePaActionsFromLinkTransfers sha256 (transfers.map LinkTransfer.event) =
      .ok (transfers.flatMap fun t => (t.action? sha256).toList) := by
  unfold synthesizePaActionsFromLinkTransfers
  induction transfers with
  | nil => rfl
  | cons t rest ih => rw [List.map_cons, flatMapM, t.synthesizeStep_eq, ok_bind, ih, ok_bind]; rfl

/-! ## Directions -/

def entriesOf (actions : List PAEconomicAction) (decodedEventId : String) : List PALedgerEntry :=
  paLedgerEntries sha256 (actions.filter (·.decodedEventId = decodedEventId))

/-- One debit names the sender and one credit the contract that receives. -/
def PointsTheWay (t : LinkTransfer) (role : String) (entries : List PALedgerEntry) : Prop :=
  ∃ debit credit label,
    entries.filter (·.direction = .debit) = [debit] ∧ entries.filter (·.direction = .credit) = [credit] ∧
    debit.account = label ++ ":" ++ t.fromAddr ∧ credit.account = role ++ ":" ++ t.toAddr ∧
    debit.amountLink = t.value ∧ credit.amountLink = t.value

def linkReceived (contract : String) (transfers : List LinkTransfer) : Int :=
  ((transfers.filter (·.toAddr = contract)).map LinkTransfer.value).sum

def BookedAsMoved (transfers : List LinkTransfer) : Prop :=
  ∃ actions,
    synthesizePaActionsFromLinkTransfers sha256 (transfers.map LinkTransfer.event) = .ok actions ∧
    (∀ t ∈ transfers, 0 < t.value → ∀ role, paRoleOf t.receiver = some role →
      PointsTheWay t role (entriesOf sha256 actions t.id)) ∧
    ∀ contract role, paRoleOf contract = some role →
      accountNet (role ++ ":" ++ lower contract) (paLedgerEntries sha256 actions) =
        linkReceived (lower contract) transfers

theorem paRoleOf_eq (address : String) : paRoleOf address = (paReceiver (lower address)).map Prod.snd := by
  unfold paRoleOf paReceiver
  dsimp only
  split_ifs <;> rfl

theorem paReceiver_cases {address role : String} {kind : PAActionKind}
    (receiver : paReceiver address = some (kind, role)) :
    (address = paReservesAddress ∧ kind = .reservesDeposit ∧ role = "pa_reserves") ∨
    (address = paFeeAggregatorAddress ∧ kind = .feeReceived ∧ role = "pa_fee_aggregator") ∨
    (address = paSwapAutomatorAddress ∧ kind = .serviceFeeForwarded ∧ role = "pa_swap_automator") := by
  unfold paReceiver at receiver
  split_ifs at receiver with reserves aggregator automator
  · cases receiver
    exact Or.inl ⟨reserves, rfl, rfl⟩
  · cases receiver
    exact Or.inr (Or.inl ⟨aggregator, rfl, rfl⟩)
  · cases receiver
    exact Or.inr (Or.inr ⟨automator, rfl, rfl⟩)

def bookedAs (t : LinkTransfer) (kind : PAActionKind) (role : String) : String × String :=
  match kind with
  | .feeReceived => ("service_contract:" ++ t.fromAddr, role ++ ":" ++ t.toAddr)
  | .serviceFeeForwarded => (role ++ ":" ++ t.toAddr, "forwarded_to:" ++ t.fromAddr)
  | _ => ("upstream:" ++ t.fromAddr, role ++ ":" ++ t.toAddr)

theorem build_synthesized (t : LinkTransfer) (pos : 0 < t.value) {kind : PAActionKind} {role : String}
    (receiver : paReceiver t.toAddr = some (kind, role)) :
    buildPaLedgerEntries sha256 (synthesizedAction sha256 t.event kind role t.value) =
      bookPair (makePaEntry sha256 (synthesizedAction sha256 t.event kind role t.value))
        (bookedAs t kind role).1 (bookedAs t kind role).2 t.value := by
  have named : ¬ t.fromAddr = "" := fun blank => t.named ((lower_eq_empty _).mp blank)
  have counterparty : orText (some t.fromAddr) "unknown" = t.fromAddr := if_neg named
  have someAmount : ¬ (t.value ≤ 0 ∧ t.value ≤ 0) := by omega
  have nonzero : ¬ t.value = 0 := by omega
  unfold buildPaLedgerEntries
  rcases paReceiver_cases receiver with ⟨-, rfl, rfl⟩ | ⟨-, rfl, rfl⟩ | ⟨-, rfl, rfl⟩
  all_goals
    simp only [synthesizedAction, t.party_from, t.party_to, counterparty, someAmount, nonzero, reduceCtorEq,
      if_false]
    rfl

def transferEntries (t : LinkTransfer) : List PALedgerEntry :=
  paLedgerEntries sha256 (t.action? sha256).toList

theorem transferEntries_unbooked (t : LinkTransfer)
    (unbooked : t.value ≤ 0 ∨ paReceiver t.toAddr = none) : transferEntries sha256 t = [] := by
  have nothing : t.action? sha256 = none := by
    unfold LinkTransfer.action?
    rcases unbooked with zero | elsewhere
    · exact if_pos zero
    · rw [elsewhere]
      exact ite_self none
  rw [transferEntries, nothing]
  rfl

theorem transferEntries_booked (t : LinkTransfer) (pos : 0 < t.value) {kind : PAActionKind} {role : String}
    (receiver : paReceiver t.toAddr = some (kind, role)) : transferEntries sha256 t =
      bookPair (makePaEntry sha256 (synthesizedAction sha256 t.event kind role t.value))
        (bookedAs t kind role).1 (bookedAs t kind role).2 t.value := by
  have booked : t.action? sha256 = some (synthesizedAction sha256 t.event kind role t.value) := by
    rw [LinkTransfer.action?, if_neg (by omega), receiver]
    rfl
  rw [transferEntries, booked, Option.toList_some, paLedgerEntries, List.flatMap_singleton,
    build_synthesized sha256 t pos receiver]

theorem entriesOf_transfer (transfers : List LinkTransfer)
    (distinct : (transfers.map LinkTransfer.id).Nodup) (t : LinkTransfer) (member : t ∈ transfers) :
    entriesOf sha256 (transfers.flatMap fun t => (t.action? sha256).toList) t.id =
      transferEntries sha256 t := by
  rw [entriesOf, transferEntries]
  apply congrArg (paLedgerEntries sha256)
  apply filter_flatMap_key LinkTransfer.id PAEconomicAction.decodedEventId _ distinct _ member
  intro t' _ action booked
  rw [Option.mem_toList, LinkTransfer.action?] at booked
  split_ifs at booked with nothing
  obtain ⟨receiver, -, rfl⟩ := Option.map_eq_some_iff.mp booked
  rfl

theorem account_ne {label label' : String} {c c' : Char} (rest rest' : String)
    (begins : label.toList.head? = some c) (begins' : label'.toList.head? = some c') (differ : c ≠ c') :
    label ++ rest ≠ label' ++ rest' := by
  intro same
  have first := congrArg (fun account : String => account.toList.head?) same
  simp only [String.toList_append, List.head?_append, begins, begins', Option.some_or] at first
  exact differ (Option.some.inj first)

theorem pointsTheWay_iff (t : LinkTransfer) (pos : 0 < t.value) {kind : PAActionKind} {role : String}
    (receiver : paReceiver t.toAddr = some (kind, role)) :
    PointsTheWay t role (transferEntries sha256 t) ↔ t.toAddr ≠ paSwapAutomatorAddress := by
  let make := makePaEntry sha256 (synthesizedAction sha256 t.event kind role t.value)
  let debit := make 0 (bookedAs t kind role).1 .debit t.value
  let credit := make 1 (bookedAs t kind role).2 .credit t.value
  have pair : transferEntries sha256 t = [debit, credit] := transferEntries_booked sha256 t pos receiver
  have debits : [debit, credit].filter (·.direction = .debit) = [debit] := rfl
  have credits : [debit, credit].filter (·.direction = .credit) = [credit] := rfl
  rw [pair, PointsTheWay, debits, credits]
  constructor
  · rintro ⟨debit', credit', label, -, one, -, credited, -, -⟩ automator
    obtain rfl := List.singleton_inj.mp one
    rcases paReceiver_cases receiver with ⟨here, -, -⟩ | ⟨here, -, -⟩ | ⟨-, rfl, rfl⟩
    · exact absurd (here.symm.trans automator) (by decide)
    · exact absurd (here.symm.trans automator) (by decide)
    · exact account_ne t.fromAddr _ rfl rfl (by decide) credited
  · intro elsewhere
    rcases paReceiver_cases receiver with ⟨-, rfl, rfl⟩ | ⟨-, rfl, rfl⟩ | ⟨here, -, -⟩
    · exact ⟨debit, credit, "upstream", rfl, rfl, rfl, rfl, rfl, rfl⟩
    · exact ⟨debit, credit, "service_contract", rfl, rfl, rfl, rfl, rfl, rfl⟩
    · exact absurd here elsewhere

/-! ## Net credits -/

theorem roleAccount_inj {address contract role role' : String} {kind kind' : PAActionKind}
    (receiver : paReceiver address = some (kind', role')) (known : paReceiver contract = some (kind, role)) :
    role' ++ ":" ++ address = role ++ ":" ++ contract ↔ address = contract := by
  constructor
  · intro same
    rcases paReceiver_cases receiver with ⟨rfl, -, rfl⟩ | ⟨rfl, -, rfl⟩ | ⟨rfl, -, rfl⟩ <;>
      rcases paReceiver_cases known with ⟨rfl, -, rfl⟩ | ⟨rfl, -, rfl⟩ | ⟨rfl, -, rfl⟩ <;>
      first | rfl | exact absurd same (by decide +kernel)
  · rintro rfl
    rw [receiver] at known
    cases known
    rfl

theorem accountNet_transfer (t : LinkTransfer) (elsewhere : 0 < t.value → t.toAddr ≠ paSwapAutomatorAddress)
    {contract role : String} {kind : PAActionKind} (known : paReceiver contract = some (kind, role)) :
    accountNet (role ++ ":" ++ contract) (transferEntries sha256 t) =
      if t.toAddr = contract then t.value else 0 := by
  by_cases pos : 0 < t.value
  · cases receiver : paReceiver t.toAddr with
    | none =>
        have other : t.toAddr ≠ contract := by
          rintro rfl
          rw [receiver] at known
          cases known
        rw [transferEntries_unbooked sha256 t (Or.inr receiver), if_neg other]
        rfl
    | some booked =>
        obtain ⟨kind', role'⟩ := booked
        have begins : role.toList.head? = some 'p' := by
          rcases paReceiver_cases known with ⟨-, -, rfl⟩ | ⟨-, -, rfl⟩ | ⟨-, -, rfl⟩ <;> rfl
        -- what is debited names no contract account
        have booked : (bookedAs t kind' role').1 ≠ role ++ ":" ++ contract ∧
            (bookedAs t kind' role').2 = role' ++ ":" ++ t.toAddr := by
          have account : role ++ ":" ++ contract = role ++ (":" ++ contract) := String.append_assoc
          rw [account]
          rcases paReceiver_cases receiver with ⟨-, rfl, rfl⟩ | ⟨-, rfl, rfl⟩ | ⟨here, -, -⟩
          · exact ⟨account_ne t.fromAddr _ rfl begins (by decide), rfl⟩
          · exact ⟨account_ne t.fromAddr _ rfl begins (by decide), rfl⟩
          · exact absurd here (elsewhere pos)
        obtain ⟨debited, credited⟩ := booked
        rw [transferEntries_booked sha256 t pos receiver,
          accountNet_bookPair _ _ (fun _ _ _ _ => ⟨rfl, rfl, rfl⟩), if_neg debited, credited, sub_zero]
        simp only [roleAccount_inj receiver known]
  · have zero : t.value = 0 := le_antisymm (not_lt.mp pos) t.unsigned
    rw [transferEntries_unbooked sha256 t (Or.inl zero.le), zero, ite_self]
    rfl

theorem accountNet_transfers (account : String) (amount : LinkTransfer → Int) (transfers : List LinkTransfer)
    (each : ∀ t ∈ transfers, accountNet account (transferEntries sha256 t) = amount t) :
    accountNet account (paLedgerEntries sha256 (transfers.flatMap fun t => (t.action? sha256).toList)) =
      (transfers.map amount).sum := by
  induction transfers with
  | nil => rfl
  | cons t rest ih =>
      obtain ⟨first, later⟩ := List.forall_mem_cons.mp each
      rw [List.flatMap_cons, paLedgerEntries, List.flatMap_append, accountNet_append, ← paLedgerEntries,
        ← paLedgerEntries, ih later, ← transferEntries, first, List.map_cons, List.sum_cons]

/-! ## The direction of the ledger -/

/-- The ledger follows the LINK exactly where nothing reaches the swap automator. -/
theorem synthesized_booked_iff (transfers : List LinkTransfer)
    (distinct : (transfers.map LinkTransfer.id).Nodup) :
    BookedAsMoved sha256 transfers ↔
      ∀ t ∈ transfers, 0 < t.value → t.toAddr ≠ paSwapAutomatorAddress := by
  have roleOf (t : LinkTransfer) (role : String) (isPa : paRoleOf t.receiver = some role) :
      ∃ kind, paReceiver t.toAddr = some (kind, role) := by
    rw [paRoleOf_eq, Option.map_eq_some_iff] at isPa
    obtain ⟨⟨kind, role⟩, receiver, rfl⟩ := isPa
    exact ⟨kind, receiver⟩
  constructor
  · rintro ⟨actions, synthesized, each, -⟩ t member pos automator
    rw [synthesized_eq] at synthesized
    cases synthesized
    have isPa : paRoleOf t.receiver = some "pa_swap_automator" := by
      rw [paRoleOf_eq, ← LinkTransfer.toAddr, automator]
      rfl
    obtain ⟨kind, receiver⟩ := roleOf t _ isPa
    have points := each t member pos _ isPa
    rw [entriesOf_transfer sha256 transfers distinct t member] at points
    exact (pointsTheWay_iff sha256 t pos receiver).mp points automator
  · intro elsewhere
    refine ⟨_, synthesized_eq sha256 transfers, ?_, ?_⟩
    · intro t member pos role isPa
      obtain ⟨kind, receiver⟩ := roleOf t role isPa
      rw [entriesOf_transfer sha256 transfers distinct t member]
      exact (pointsTheWay_iff sha256 t pos receiver).mpr (elsewhere t member pos)
    · intro contract role isPa
      rw [paRoleOf_eq, Option.map_eq_some_iff] at isPa
      obtain ⟨⟨kind, role⟩, known, rfl⟩ := isPa
      rw [linkReceived, sum_where]
      refine accountNet_transfers sha256 _ _ transfers fun t member => ?_
      rw [accountNet_transfer sha256 t (elsewhere t member) known]
      simp only [decide_eq_true_eq]

/-! ## Two transfers -/

def transferEvent (sender receiver : String) (logIndex value : Int) : DecodedEvent :=
  { eventAt linkTokenAddress "Transfer" logIndex [("value", .int value)] with
    eventSignature := erc20TransferTopic0
    indexedParams := Dict.ofList [("from", .str sender), ("to", .str receiver)] }

def linkTransfer (sender receiver : String) (logIndex value : Int) (named : sender ≠ "")
    (unsigned : 0 ≤ value) : LinkTransfer where
  event := transferEvent sender receiver logIndex value
  sender := sender
  receiver := receiver
  value := value
  hasSender := rfl
  hasReceiver := rfl
  hasValue := rfl
  named := named
  unsigned := unsigned

def toReserves (logIndex : Int) : LinkTransfer :=
  linkTransfer paSwapAutomatorAddress paReservesAddress logIndex 5 (by decide) (by decide)

def toSwapAutomator : LinkTransfer :=
  linkTransfer paFeeAggregatorAddress paSwapAutomatorAddress 0 5 (by decide) (by decide)

theorem synthesized_booked_toReserves : BookedAsMoved id [toReserves 1] :=
  (synthesized_booked_iff id [toReserves 1] (List.nodup_singleton _)).mpr (by decide +kernel)

theorem automator_debited : synthesizePaActionsFromLinkTransfers id [toSwapAutomator.event] =
      .ok [synthesizedAction id toSwapAutomator.event .serviceFeeForwarded "pa_swap_automator" 5] ∧
    (transferEntries id toSwapAutomator).map (fun e => (e.direction, e.account, e.amountLink)) =
      [(.debit, "pa_swap_automator:" ++ paSwapAutomatorAddress, 5),
        (.credit, "forwarded_to:" ++ paFeeAggregatorAddress, 5)] ∧
    ¬ BookedAsMoved id [toSwapAutomator] := by
  have receiver : paReceiver toSwapAutomator.toAddr = some (.serviceFeeForwarded, "pa_swap_automator") := by
    decide +kernel
  have points : toSwapAutomator.toAddr = paSwapAutomatorAddress := by decide +kernel
  refine ⟨by decide +kernel, by decide +kernel, ?_⟩
  rintro ⟨actions, synthesized, each, -⟩
  have booked := each toSwapAutomator List.mem_cons_self (by decide) "pa_swap_automator" (by decide +kernel)
  rw [synthesized_eq] at synthesized
  cases synthesized
  rw [entriesOf_transfer id [toSwapAutomator] (List.nodup_singleton _) _ List.mem_cons_self] at booked
  exact (pointsTheWay_iff id toSwapAutomator (by decide) receiver).mp booked points

end EconomicLedger.Ledger
