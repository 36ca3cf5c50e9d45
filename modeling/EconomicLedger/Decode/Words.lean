import EconomicLedger.Lib.Fallible
import EconomicLedger.Model.Types

/-!
# Static words

`eth_abi.decode` on `address` and `uint256`: every value is one word of 32 bytes, an address the
last 20 bytes of a word that starts with 12 zero bytes.
-/

namespace EconomicLedger.Decode
open Model Fallible

def bigEndian (bytes : List UInt8) : Nat := bytes.foldl (fun n b => 256 * n + b.toNat) 0

def wordValue (type : String) (word : List UInt8) : Except String Value :=
  if type = "uint256" then .ok (.int (bigEndian word))
  else if type = "address" then
    if (word.take 12).all (· = 0) then .ok (.str ("0x" ++ toHex (word.drop 12)))
    else .error "Padding bytes were not empty"
  else .error "not a static word"

def wordDecode : List String → List UInt8 → Except String (List Value)
  | [], _ => .ok []
  | type :: types, data =>
      if data.length < 32 then .error "Tried to read 32 bytes"
      else do
        let value ← wordValue type (data.take 32)
        let values ← wordDecode types (data.drop 32)
        return value :: values

theorem wordDecode_cons (type : String) (types : List String) (data : List UInt8) (values : List Value)
    (decoded : wordDecode (type :: types) data = .ok values) :
    ∃ value rest, wordValue type (data.take 32) = .ok value ∧
      wordDecode types (data.drop 32) = .ok rest ∧ values = value :: rest := by
  unfold wordDecode at decoded
  split_ifs at decoded
  obtain ⟨value, head, decoded⟩ := (bind_eq_ok_iff _ _ _).mp decoded
  obtain ⟨rest, tail, decoded⟩ := (bind_eq_ok_iff _ _ _).mp decoded
  exact ⟨value, rest, head, tail, ((pure_eq_ok_iff _ _).mp decoded).symm⟩

theorem wordValue_address (word : List UInt8) (value : Value)
    (decoded : wordValue "address" word = .ok value) : ∃ bytes, value = .str ("0x" ++ toHex bytes) := by
  simp only [wordValue, String.reduceEq, if_false, if_true] at decoded
  split_ifs at decoded
  exact ⟨_, (Except.ok.inj decoded).symm⟩

theorem wordValue_uint256 (word : List UInt8) (value : Value)
    (decoded : wordValue "uint256" word = .ok value) : ∃ n : Nat, value = .int n :=
  ⟨_, (Except.ok.inj decoded).symm⟩

theorem wordDecode_transfer (data : List UInt8) (values : List Value)
    (decoded : wordDecode ["address", "uint256"] data = .ok values) :
    ∃ (recipient : List UInt8) (amount : Nat),
      values = [.str ("0x" ++ toHex recipient), .int amount] := by
  obtain ⟨_, _, head, tail, rfl⟩ := wordDecode_cons _ _ _ _ decoded
  obtain ⟨_, _, head', tail', rfl⟩ := wordDecode_cons _ _ _ _ tail
  obtain ⟨recipient, rfl⟩ := wordValue_address _ _ head
  obtain ⟨amount, rfl⟩ := wordValue_uint256 _ _ head'
  obtain rfl := Except.ok.inj tail'
  exact ⟨recipient, amount, rfl⟩

theorem wordDecode_transferFrom (data : List UInt8) (values : List Value)
    (decoded : wordDecode ["address", "address", "uint256"] data = .ok values) :
    ∃ (sender recipient : List UInt8) (amount : Nat),
      values = [.str ("0x" ++ toHex sender), .str ("0x" ++ toHex recipient), .int amount] := by
  obtain ⟨_, _, head, tail, rfl⟩ := wordDecode_cons _ _ _ _ decoded
  obtain ⟨sender, rfl⟩ := wordValue_address _ _ head
  obtain ⟨recipient, amount, rfl⟩ := wordDecode_transfer _ _ tail
  exact ⟨sender, recipient, amount, rfl⟩

/-! ## What the ABI specification says of static arguments -/

def OfType (type : String) (value : Value) : Prop :=
  (type = "address" → ∃ text, value = .str text ∧ text ≠ "") ∧
  (type = "uint256" → ∃ n : Int, value = .int n)

/-- There is one value of each type, and static arguments are read from the head alone. -/
structure AbiSpec (libs : ExternalLibs) : Prop where
  values : ∀ types data values, libs.abiDecode types data = .ok values →
    List.Forall₂ OfType types values
  head : ∀ types, (∀ type ∈ types, type = "address" ∨ type = "uint256") → ∀ data,
    32 * types.length ≤ data.length →
      libs.abiDecode types data = libs.abiDecode types (data.take (32 * types.length))

theorem wordDecode_values (types : List String) (data : List UInt8) (values : List Value)
    (decoded : wordDecode types data = .ok values) : List.Forall₂ OfType types values := by
  induction types generalizing data values with
  | nil =>
      cases decoded
      exact List.Forall₂.nil
  | cons type rest ih =>
      obtain ⟨value, values, head, tail, rfl⟩ := wordDecode_cons _ _ _ _ decoded
      refine List.Forall₂.cons ⟨?_, ?_⟩ (ih _ _ tail)
      · rintro rfl
        obtain ⟨bytes, rfl⟩ := wordValue_address _ _ head
        refine ⟨_, rfl, fun blank => ?_⟩
        have digits := congrArg String.toList blank
        simp at digits
      · rintro rfl
        obtain ⟨n, rfl⟩ := wordValue_uint256 _ _ head
        exact ⟨n, rfl⟩

theorem wordDecode_head (types : List String) (data : List UInt8)
    (long : 32 * types.length ≤ data.length) :
    wordDecode types data = wordDecode types (data.take (32 * types.length)) := by
  induction types generalizing data with
  | nil => rfl
  | cons type rest ih =>
      rw [List.length_cons] at long ⊢
      have whole : ¬ data.length < 32 := by omega
      have cut : ¬ (data.take (32 * (rest.length + 1))).length < 32 := by
        rw [List.length_take]
        omega
      have first : (data.take (32 * (rest.length + 1))).take 32 = data.take 32 := by
        rw [List.take_take, Nat.min_eq_left (by omega)]
      have others : (data.take (32 * (rest.length + 1))).drop 32 =
          (data.drop 32).take (32 * rest.length) := by
        rw [List.drop_take]
        congr 1
      rw [wordDecode, wordDecode, if_neg whole, if_neg cut, first, others,
        ih (data.drop 32) (by rw [List.length_drop]; omega)]

theorem wordDecode_spec (keccak : String → String) : AbiSpec ⟨wordDecode, keccak⟩ where
  values := wordDecode_values
  head := fun types _ data => wordDecode_head types data

def knownDigest (text : String) : String :=
  if text = "Staked(address,uint256)" then
    "9e71bc8eea02a63969f509818f2dafb9254532904319f9dbda79b67bd34a5f3d"
  else ""

def wordLibs : ExternalLibs := ⟨wordDecode, knownDigest⟩

end EconomicLedger.Decode
