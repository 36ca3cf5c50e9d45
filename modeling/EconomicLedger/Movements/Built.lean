import EconomicLedger.Lib.Fallible
import EconomicLedger.Lib.Radix
import EconomicLedger.Movements.Unify
import Mathlib.Data.List.Infix

/-!
# Built movements

What the two builders return, and when two built movements have one identifier: what they move reads
alike, and so do their occurrence indices. The index of a log movement is its log index, that of a
trace movement its trace address read as a numeral, and the two share one number space.
-/

namespace EconomicLedger.Movements
open Model Text Fallible

/-! ## Occurrence indices -/

def addressDigits (address : List Int) : List Nat :=
  address.map fun component => component.toNat % 65536

/-- The numeral that a trace address spells. -/
def packed (address : List Int) : Nat := Radix.value 65536 (addressDigits address)

theorem packComponent_eq (n component : Nat) :
    packComponent n component = 65536 * n + component % 65536 := by
  have mask : component &&& 0xFFFF = component % 2 ^ 16 := Nat.and_two_pow_sub_one_eq_mod component 16
  have small : component % 2 ^ 16 < 2 ^ 16 := Nat.mod_lt _ (by decide)
  rw [packComponent, mask, ← Nat.shiftLeft_add_eq_or_of_lt small, Nat.shiftLeft_eq, mul_comm]
  rfl

theorem packFrom_eq_ok_iff (n index : Nat) (address : List Int) :
    packFrom n address = .ok index ↔
      (∀ component ∈ address, 0 ≤ component) ∧
        index = (addressDigits address).foldl (fun n d => 65536 * n + d) n := by
  induction address generalizing n with
  | nil => simp [packFrom, addressDigits, eq_comm]
  | cons component rest ih =>
      by_cases negative : component < 0
      · simp [packFrom, negative]
      · simp only [packFrom, negative, if_false, ih, packComponent_eq, List.forall_mem_cons,
          not_lt.mp negative, true_and]
        rfl

theorem traceAddressToIndex_eq_ok_iff (address : List Int) (index : Nat) :
    traceAddressToIndex address = .ok index ↔
      (∀ component ∈ address, 0 ≤ component) ∧ index = packed address :=
  packFrom_eq_ok_iff 0 index address

theorem packed_eq_iff (address address' : List Int) :
    packed address = packed address' ↔
      Radix.significant (addressDigits address) = Radix.significant (addressDigits address') := by
  have small (address : List Int) : ∀ d ∈ addressDigits address, d < 65536 := by
    intro d member
    obtain ⟨component, -, rfl⟩ := List.mem_map.mp member
    exact Nat.mod_lt _ (by decide)
  exact Radix.value_eq_iff 65536 (by decide) _ _ (small address) (small address')

/-! ## Identifiers -/

variable {sha256 : Digest}

theorem computeMovementId_inj (injective : Function.Injective sha256) (chainId chainId' : Int)
    (txHash txHash' fromAddr fromAddr' toAddr toAddr' : String) (amount amount' occ occ' : Int) :
    computeMovementId sha256 chainId txHash fromAddr toAddr amount occ =
        computeMovementId sha256 chainId' txHash' fromAddr' toAddr' amount' occ' ↔
      joinBar (movementStem chainId txHash fromAddr toAddr amount) =
        joinBar (movementStem chainId' txHash' fromAddr' toAddr' amount') ∧ occ = occ' := by
  unfold computeMovementId
  rw [injective.eq_iff, joinBar_concat_inj (barFree_int occ) (barFree_int occ')
    (by simp [movementStem]) (by simp [movementStem]), toString_int_inj]

theorem joinBar_movementStem_inj (chainId chainId' : Int)
    (txHash txHash' fromAddr fromAddr' toAddr toAddr' : String) (amount amount' : Int)
    (freeFrom : BarFree fromAddr) (freeFrom' : BarFree fromAddr') (freeTo : BarFree toAddr)
    (freeTo' : BarFree toAddr') :
    joinBar (movementStem chainId txHash fromAddr toAddr amount) =
        joinBar (movementStem chainId' txHash' fromAddr' toAddr' amount') ↔
      chainId = chainId' ∧ lower txHash = lower txHash' ∧ lower fromAddr = lower fromAddr' ∧
        lower toAddr = lower toAddr' ∧ amount = amount' := by
  have fields (txHash fromAddr toAddr amount : String) :
      [txHash, fromAddr, toAddr, amount] = [txHash, fromAddr, toAddr] ++ [amount] := rfl
  have addresses (txHash fromAddr toAddr : String) :
      [txHash, fromAddr, toAddr] = [txHash, fromAddr] ++ [toAddr] := rfl
  have hash (txHash fromAddr : String) : [txHash, fromAddr] = [txHash] ++ [fromAddr] := rfl
  unfold movementStem
  rw [joinBar_cons_inj (by decide) (by decide) (by simp) (by simp),
    joinBar_cons_inj (barFree_int chainId) (barFree_int chainId') (by simp) (by simp), fields, fields,
    joinBar_concat_inj (barFree_int amount) (barFree_int amount') (by simp) (by simp), addresses, addresses,
    joinBar_concat_inj ((barFree_lower _).mpr freeTo) ((barFree_lower _).mpr freeTo') (by simp) (by simp),
    hash, hash,
    joinBar_concat_inj ((barFree_lower _).mpr freeFrom) ((barFree_lower _).mpr freeFrom') (by simp) (by simp),
    toString_int_inj, toString_int_inj]
  simp only [joinBar, true_and, and_assoc]

/-! ## The builders -/

variable (sha256)

def amountOf (ev : DecodedEvent) : Int := ev.transferAmount.toOption.getD 0

def builtLog (ev : DecodedEvent) : TokenMovement := logMovement sha256 ev (amountOf ev)

def builtTrace (call : TraceTokenCall) : TokenMovement := traceMovement sha256 call (packed call.traceAddress)

theorem amountOf_eq (ev : DecodedEvent) (amount : Int) (converts : ev.transferAmount = .ok amount) :
    amountOf ev = amount := by
  rw [amountOf, converts]
  rfl

theorem buildMovementsFromTransferLogs_eq_ok_iff (events : List DecodedEvent) (logs : List TokenMovement) :
    buildMovementsFromTransferLogs sha256 events = .ok logs ↔
      (∀ ev ∈ events.filter (·.isTransfer), ∃ amount, ev.transferAmount = .ok amount) ∧
        logs = (events.filter (·.isTransfer)).map (builtLog sha256) := by
  induction events generalizing logs with
  | nil => simp [buildMovementsFromTransferLogs, eq_comm]
  | cons ev rest ih =>
      cases isTransfer : ev.isTransfer with
      | false => simpa [buildMovementsFromTransferLogs, isTransfer] using ih logs
      | true =>
          simp only [buildMovementsFromTransferLogs, isTransfer, if_true, bind_eq_ok_iff,
            pure_eq_ok_iff, ih, List.filter_cons_of_pos, List.forall_mem_cons, List.map_cons]
          constructor
          · rintro ⟨amount, converts, others, ⟨each, rfl⟩, rfl⟩
            exact ⟨⟨⟨amount, converts⟩, each⟩, by rw [builtLog, amountOf_eq ev amount converts]⟩
          · rintro ⟨⟨⟨amount, converts⟩, each⟩, rfl⟩
            exact ⟨amount, converts, _, ⟨each, rfl⟩, by rw [builtLog, amountOf_eq ev amount converts]⟩

theorem buildMovementsFromTraceCalls_eq_ok_iff (calls : List TraceTokenCall) (traces : List TokenMovement) :
    buildMovementsFromTraceCalls sha256 calls = .ok traces ↔
      (∀ call ∈ calls, ∀ component ∈ call.traceAddress, 0 ≤ component) ∧
        traces = calls.map (builtTrace sha256) := by
  induction calls generalizing traces with
  | nil => simp [buildMovementsFromTraceCalls, eq_comm]
  | cons call rest ih =>
      simp only [buildMovementsFromTraceCalls, bind_eq_ok_iff, pure_eq_ok_iff, ih,
        traceAddressToIndex_eq_ok_iff, List.forall_mem_cons, List.map_cons]
      constructor
      · rintro ⟨_, ⟨nonneg, rfl⟩, _, ⟨each, rfl⟩, rfl⟩
        exact ⟨⟨nonneg, each⟩, rfl⟩
      · rintro ⟨⟨nonneg, each⟩, rfl⟩
        exact ⟨_, ⟨nonneg, rfl⟩, _, ⟨each, rfl⟩, rfl⟩

theorem built_sources (events : List DecodedEvent) (calls : List TraceTokenCall)
    (distinct : (ids (events.map (builtLog sha256))).Nodup) :
    Sources (events.map (builtLog sha256)) (calls.map (builtTrace sha256)) where
  distinct := distinct
  fromLogs := fun m member => by
    obtain ⟨ev, -, rfl⟩ := List.mem_map.mp member
    rfl
  fromTraces := fun t member => by
    obtain ⟨call, -, rfl⟩ := List.mem_map.mp member
    rfl

end EconomicLedger.Movements
