import EconomicLedger.Model.Types

/-!
# Registries (`decoder/abi_registry.py`, `decoder/contract_registry.py`)
-/

namespace EconomicLedger.Model
open Text

/-! ## Canonical signatures -/

mutual
/-- A `tuple` type is spelled by its components; its array suffix is kept. -/
def canonicalType : AbiInput → String
  | ⟨_, type, _, components⟩ =>
      if startsWith type "tuple" then
        "(" ++ canonicalTypes components ++ ")" ++ sliceFrom type "tuple".length
      else type
def canonicalTypes : List AbiInput → String
  | [] => ""
  | [input] => canonicalType input
  | input :: next :: rest => canonicalType input ++ "," ++ canonicalTypes (next :: rest)
end

def canonicalSignature (name : String) (inputs : List AbiInput) : String :=
  name ++ "(" ++ canonicalTypes inputs ++ ")"

def Abi.entryNamed? (abi : Abi) (kind name : String) : Option AbiEntry :=
  abi.jsonAbi.find? fun entry => entry.type = some kind ∧ entry.name = some name

def eventSignature (libs : ExternalLibs) (abi : Abi) (eventName : String) : Py String :=
  match abi.entryNamed? "event" eventName with
  | some entry => .ok ("0x" ++ libs.keccak (canonicalSignature eventName entry.inputs))
  | none => .error (.keyError ("event " ++ reprText eventName ++ " not in ABI " ++ abi.abiVersion))

def methodSelector (libs : ExternalLibs) (abi : Abi) (methodName : String) : Py String :=
  match abi.entryNamed? "function" methodName with
  | some entry =>
      .ok ("0x" ++ sliceTo (libs.keccak (canonicalSignature methodName entry.inputs)) 8)
  | none => .error (.keyError ("method " ++ reprText methodName ++ " not in ABI " ++ abi.abiVersion))

/-! ## Lookup -/

structure AbiRegistry where
  phasesByAddress : Dict String (List (Phase × Abi))

def AbiRegistry.empty : AbiRegistry := ⟨Dict.empty⟩

def Phase.covers (phase : Phase) (blockNumber : Int) : Bool :=
  phase.fromBlock ≤ blockNumber && phase.toBlock.all (blockNumber ≤ ·)

/-- The ABI of the first phase that covers the block. -/
def AbiRegistry.get (registry : AbiRegistry) (contractAddress : String) (blockNumber : Int) :
    Py Abi :=
  let addr := lower contractAddress
  match registry.phasesByAddress.get? addr with
  | none => .error (.keyError ("address " ++ reprText addr ++ " not in ABI registry"))
  | some phases =>
      match phases.find? (·.1.covers blockNumber) with
      | some (_, abi) => .ok abi
      | none => .error (.keyError
          ("no ABI phase covers block " ++ toString blockNumber ++ " for address " ++ reprText addr))

structure ContractRegistry where
  byAddress : Dict String ContractMeta

def ContractRegistry.role (registry : ContractRegistry) (address : String) : Option String :=
  (registry.byAddress.get? (lower address)).map ContractMeta.role

end EconomicLedger.Model
