import EconomicLedger.Lib.Fallible
import EconomicLedger.Model.Checkpoint
import EconomicLedger.Model.Registry
import Mathlib.Data.List.Sort

/-!
# Loading the registries (`decoder/contract_registry.py`, `decoder/abi_registry.py`)

A YAML document is represented by the values `yaml.safe_load` reads from it, and the directory of the
ABIs by its readable files.
-/

namespace EconomicLedger.Model
open Text Fallible

/-! ## Phases -/

def sortedPhases (phases : List Phase) : List Phase :=
  phases.insertionSort (·.fromBlock ≤ ·.fromBlock)

def checkNeighbours (check : Phase → Phase → Py Unit) : List Phase → Py Unit
  | prev :: curr :: rest => do
      check prev curr
      checkNeighbours check (curr :: rest)
  | _ => .ok ()

def overlap (address : String) (prev curr : Phase) (prevEnd : String) : PyError :=
  .valueError ("overlapping phases for " ++ address ++ ": " ++ prev.abiVersion ++ " ends at " ++
    prevEnd ++ ", " ++ curr.abiVersion ++ " starts at " ++ toString curr.fromBlock)

/-- An open-ended phase cannot be followed by another one. -/
def checkPhases (address : String) (prev curr : Phase) : Py Unit :=
  match prev.toBlock with
  | none => .error (.valueError ("phase overlap for " ++ address ++ ": " ++ prev.abiVersion ++
      " is open-ended but " ++ curr.abiVersion ++ " follows"))
  | some prevEnd =>
      if curr.fromBlock ≤ prevEnd then .error (overlap address prev curr (toString prevEnd))
      else .ok ()

def validatePhases (address : String) (phases : List Phase) : Py Unit :=
  checkNeighbours (checkPhases address) (sortedPhases phases)

/-- A missing end is compared as infinity. -/
def checkNoOverlap (prev curr : Phase) : Py Unit :=
  match prev.toBlock with
  | none => .error (overlap curr.contractAddress prev curr "inf")
  | some prevEnd =>
      if curr.fromBlock ≤ prevEnd then
        .error (overlap curr.contractAddress prev curr (toString prevEnd))
      else .ok ()

def ensureNoOverlap (phases : List Phase) : Py Unit :=
  checkNeighbours checkNoOverlap (sortedPhases phases)

def ContractRegistry.getPhase (registry : ContractRegistry) (contractAddress : String)
    (blockNumber : Int) : Py Phase :=
  let addr := lower contractAddress
  match registry.byAddress.get? addr with
  | none => .error (.keyError ("contract " ++ reprText addr ++ " not registered"))
  | some info =>
      match info.phases.find? (·.covers blockNumber) with
      | some phase => .ok phase
      | none => .error (.keyError
          ("no phase covers block " ++ toString blockNumber ++ " for " ++ reprText addr))

/-! ## Configuration files -/

def Json.truthy : Json → Bool
  | .null => false
  | .bool b => b
  | .num n => n ≠ 0
  | .str s => s ≠ ""
  | .arr items => !items.isEmpty
  | .obj members => !members.isEmpty

structure ConfigFile where
  stem : String
  document : Json

/-- `yaml.safe_load(f) or {}`. -/
def ConfigFile.doc (file : ConfigFile) : Json :=
  if file.document.truthy then file.document else .obj []

def ConfigFile.contracts (file : ConfigFile) : Py (List Json) := do
  let contracts ← file.doc.member? "contracts"
  (contracts.getD (.arr [])).iterate

/-- The entries of all files, in the order of the file names, each with the stem of its file. -/
def contractsOf (files : List ConfigFile) : Py (List (String × Json)) :=
  flatMapM (fun file => do
    let contracts ← file.contracts
    return contracts.map fun contract => (file.stem, contract)) files

/-- What both loaders do for every entry of every file. -/
def loadFiles {α : Type} (load : String → Json → Py α) (files : List ConfigFile) : Py (List α) :=
  flatMapM (fun file => do
    let contracts ← file.contracts
    contracts.mapM (load file.stem)) files

def contractAddress (contract : Json) : Py String := do
  let address ← contract.member "address"
  return lower address.text

/-- `str(contract.get("role", yaml_file.stem))`. -/
def contractRole (stem : String) (contract : Json) : Py String := do
  let role ← contract.member? "role"
  return (role.map Json.text).getD stem

def phaseDefs (contract : Json) : Py (List Json) := do
  let phases ← contract.member? "phases"
  (phases.getD (.arr [])).iterate

def optionalInt : Json → Py (Option Int)
  | .null => .ok none
  | j => do
      let n ← j.toInt
      return some n

def loadPhase (address : String) (phaseDef : Json) : Py Phase := do
  let abiVersion ← phaseDef.member "abi_version"
  let fromBlock ← phaseDef.member "from_block"
  let fromBlock ← fromBlock.toInt
  let toBlock ← phaseDef.member? "to_block"
  let toBlock ← optionalInt (toBlock.getD .null)
  return {
    contractAddress := address
    abiVersion := abiVersion.text
    fromBlock := fromBlock
    toBlock := toBlock }

/-! ## `ContractRegistry.load` -/

def loadContract (stem : String) (contract : Json) : Py ContractMeta := do
  let address ← contractAddress contract
  let role ← contractRole stem contract
  let deployBlock ← contract.member? "deployed_block"
  let deployBlock ← (deployBlock.getD (.num 0)).toInt
  let phases ← phaseDefs contract
  let phases ← phases.mapM (loadPhase address)
  validatePhases address phases
  return {
    contractAddress := address
    role := role
    deployedBlock := deployBlock
    phases := phases }

/-- A later entry with the same address takes the place of an earlier one. -/
def ContractRegistry.load (files : List ConfigFile) : Py ContractRegistry := do
  let loaded ← loadFiles loadContract files
  return ⟨Dict.index ContractMeta.contractAddress loaded⟩

/-! ## `AbiRegistry.load_from_config` -/

structure AbiDir where
  /-- `str(abis_path / name)`. -/
  path : String → String
  /-- `json.load` of a file, if there is one. -/
  file : String → Option (Py (List AbiEntry))

/-- `phase_def.get("abi_file") or f"{role}.json"`; a name has to be text. -/
def abiFileName (role : String) (phaseDef : Json) : Py String := do
  let abiFile ← phaseDef.member? "abi_file"
  match abiFile with
  | some (.str name) => return if name = "" then role ++ ".json" else name
  | some other =>
      if other.truthy then .error (.typeError "unsupported operand type(s) for /")
      else return role ++ ".json"
  | none => return role ++ ".json"

def loadAbiPhase (abis : AbiDir) (address role : String) (phaseDef : Json) : Py (Phase × Abi) := do
  let phase ← loadPhase address phaseDef
  let name ← abiFileName role phaseDef
  match abis.file name with
  | none => .error (.fileNotFound ("ABI file '" ++ abis.path name ++ "' missing for " ++ address ++ "@" ++
      phase.abiVersion))
  | some content => do
      let jsonAbi ← content
      return (phase, ⟨phase.abiVersion, jsonAbi⟩)

def loadContractAbis (abis : AbiDir) (stem : String) (contract : Json) :
    Py (String × List (Phase × Abi)) := do
  let address ← contractAddress contract
  let role ← contractRole stem contract
  let phases ← phaseDefs contract
  let phases ← phases.mapM (loadAbiPhase abis address role)
  return (address, phases)

def AbiRegistry.loadFromConfig (abis : AbiDir) (files : List ConfigFile) : Py AbiRegistry := do
  let loaded ← loadFiles (loadContractAbis abis) files
  return ⟨Dict.ofList loaded⟩

end EconomicLedger.Model
