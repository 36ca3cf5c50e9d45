import EconomicLedger.Trace.Ingestion

/-!
# Token calls under a registered ABI

With the ABI of the token in the registry the arguments of a call are read through `decode_calldata`,
which asks for whole words, and not through the ERC-20 fast path, which asks for enough of them.
-/

namespace EconomicLedger.Trace
open Model Text Fallible Decode

/-! ## `config/abis/link_token.json` -/

def addressInput (name : String) (indexed : Bool) : AbiInput := ⟨name, "address", indexed, []⟩

def uint256Input (name : String) : AbiInput := ⟨name, "uint256", false, []⟩

def transferEntry : AbiEntry :=
  ⟨some "function", some "transfer", false, [addressInput "to" false, uint256Input "value"]⟩

def transferFromEntry : AbiEntry :=
  ⟨some "function", some "transferFrom", false,
    [addressInput "from" false, addressInput "to" false, uint256Input "value"]⟩

def linkTokenEntries : List AbiEntry :=
  [⟨some "event", some "Transfer", false,
      [addressInput "from" true, addressInput "to" true, uint256Input "value"]⟩,
    ⟨some "event", some "Approval", false,
      [addressInput "owner" true, addressInput "spender" true, uint256Input "value"]⟩,
    transferEntry, transferFromEntry,
    ⟨some "function", some "transferAndCall", false,
      [addressInput "to" false, uint256Input "value", ⟨"data", "bytes", false, []⟩]⟩]

variable (sha256 : Digest) (libs : ExternalLibs)

/-- The two transfer selectors find the functions of `link_token.json`. -/
structure HasTransfers (abi : Abi) : Prop where
  transfer : findMethodBySelector libs abi erc20TransferSelector = some transferEntry
  transferFrom : findMethodBySelector libs abi erc20TransferFromSelector = some transferFromEntry

def Erc20Digests (libs : ExternalLibs) : Prop :=
  sliceTo (libs.keccak "transfer(address,uint256)") 8 = "a9059cbb" ∧
  sliceTo (libs.keccak "transferFrom(address,address,uint256)") 8 = "23b872dd"

theorem linkToken_hasTransfers (digests : Erc20Digests libs) (abi : Abi)
    (entries : abi.jsonAbi = linkTokenEntries) : HasTransfers libs abi := by
  have transfer : methodSelector libs abi "transfer" = .ok erc20TransferSelector := by
    have signature : canonicalSignature "transfer" transferEntry.inputs = "transfer(address,uint256)" := by
      decide
    have named : abi.entryNamed? "function" "transfer" = some transferEntry := by
      rw [Abi.entryNamed?, entries]
      rfl
    rw [methodSelector, named]
    simp only
    rw [signature, digests.1]
    rfl
  have transferFrom : methodSelector libs abi "transferFrom" = .ok erc20TransferFromSelector := by
    have signature : canonicalSignature "transferFrom" transferFromEntry.inputs =
        "transferFrom(address,address,uint256)" := by
      decide
    have named : abi.entryNamed? "function" "transferFrom" = some transferFromEntry := by
      rw [Abi.entryNamed?, entries]
      rfl
    rw [methodSelector, named]
    simp only
    rw [signature, digests.2]
    rfl
  have apart : lower erc20TransferSelector ≠ lower erc20TransferFromSelector := by decide
  constructor
  · simp [findMethodBySelector, entries, linkTokenEntries, transferEntry, transfer]
  · simp [findMethodBySelector, entries, linkTokenEntries, transferEntry, transferFromEntry, transfer,
      transferFrom, apart]

theorem findMethodBySelector_some {abi : Abi} {selector : String} {method : AbiEntry}
    (found : findMethodBySelector libs abi selector = some method) :
    ∃ name own, method.name = some name ∧ methodSelector libs abi name = .ok own ∧
      lower own = lower selector := by
  have holds := List.find?_some found
  simp only [Bool.and_eq_true] at holds
  obtain ⟨-, holds⟩ := holds
  cases named : method.name with
  | none => simp [named] at holds
  | some name =>
      cases computed : methodSelector libs abi name with
      | error e => simp [named, computed] at holds
      | ok own => exact ⟨name, own, rfl, computed, by simpa [named, computed] using holds⟩

theorem selector_of_name {abi : Abi} {selector selector' : String} {method method' : AbiEntry}
    (found : findMethodBySelector libs abi selector = some method)
    (found' : findMethodBySelector libs abi selector' = some method')
    (same : method.name = method'.name) : lower selector = lower selector' := by
  obtain ⟨name, own, named, computed, equal⟩ := findMethodBySelector_some libs found
  obtain ⟨name', own', named', computed', equal'⟩ := findMethodBySelector_some libs found'
  obtain rfl : name = name' := Option.some.inj (named.symm.trans (same.trans named'))
  obtain rfl : own = own' := Except.ok.inj (computed.symm.trans computed')
  exact equal.symm.trans equal'

theorem lower_extractMethodSelector (calldata : String) :
    lower (extractMethodSelector calldata) = extractMethodSelector calldata := by
  unfold extractMethodSelector
  split_ifs
  · rfl
  · rfl
  · rw [lower_append, lower_lower]
    rfl

theorem name_of_otherSelector {abi : Abi} (link : HasTransfers libs abi) {calldata : String}
    {method : AbiEntry}
    (found : findMethodBySelector libs abi (extractMethodSelector calldata) = some method)
    (other : isErc20Selector (extractMethodSelector calldata) = false) :
    method.name ≠ some "transfer" ∧ method.name ≠ some "transferFrom" := by
  have own := lower_extractMethodSelector calldata
  simp only [isErc20Selector, Bool.or_eq_false_iff, decide_eq_false_iff_not] at other
  constructor
  · intro named
    have equal := selector_of_name libs found link.transfer named
    exact other.1 (own.symm.trans equal)
  · intro named
    have equal := selector_of_name libs found link.transferFrom named
    exact other.2 (own.symm.trans equal)

/-! ## Arguments -/

def argumentBytes (node : RawTrace) : List UInt8 := results (calldataBody node.inputData)

def WholeWords (node : RawTrace) : Prop := (argumentBytes node).length % 32 = 0

instance (node : RawTrace) : Decidable (WholeWords node) :=
  inferInstanceAs (Decidable ((argumentBytes node).length % 32 = 0))

def readArguments (selector : String) (data : List UInt8) : Option Erc20Transfer :=
  match libs.abiDecode (erc20ArgumentTypes selector) data with
  | .ok [.str recipient, .int amount] => some ⟨.transfer, none, lower recipient, amount⟩
  | .ok [.str sender, .str recipient, .int amount] =>
      some ⟨.transferFrom, some (lower sender), lower recipient, amount⟩
  | _ => none

theorem values_transfer {libs : ExternalLibs} (spec : AbiSpec libs) (data : List UInt8)
    (values : List Value) (decoded : libs.abiDecode ["address", "uint256"] data = .ok values) :
    ∃ recipient amount, values = [.str recipient, .int amount] ∧ recipient ≠ "" := by
  cases spec.values _ _ _ decoded with
  | cons recipient rest =>
      cases rest with
      | cons amount rest =>
          cases rest
          obtain ⟨text, rfl, nonempty⟩ := recipient.1 rfl
          obtain ⟨n, rfl⟩ := amount.2 rfl
          exact ⟨text, n, rfl, nonempty⟩

theorem values_transferFrom {libs : ExternalLibs} (spec : AbiSpec libs) (data : List UInt8)
    (values : List Value) (decoded : libs.abiDecode ["address", "address", "uint256"] data = .ok values) :
    ∃ sender recipient amount, values = [.str sender, .str recipient, .int amount] ∧
      recipient ≠ "" := by
  cases spec.values _ _ _ decoded with
  | cons sender rest =>
      cases rest with
      | cons recipient rest =>
          cases rest with
          | cons amount rest =>
              cases rest
              obtain ⟨source, rfl, -⟩ := sender.1 rfl
              obtain ⟨text, rfl, nonempty⟩ := recipient.1 rfl
              obtain ⟨n, rfl⟩ := amount.2 rfl
              exact ⟨source, text, n, rfl, nonempty⟩

theorem typedAbi_of_spec {libs : ExternalLibs} (spec : AbiSpec libs) : TypedAbi libs where
  transfer := fun data values decoded => by
    obtain ⟨recipient, amount, same, -⟩ := values_transfer spec data values decoded
    exact ⟨recipient, amount, same⟩
  transferFrom := fun data values decoded => by
    obtain ⟨sender, recipient, amount, same, -⟩ := values_transferFrom spec data values decoded
    exact ⟨sender, recipient, amount, same⟩

theorem argsOf_read (typed : TypedAbi libs) (node : RawTrace) (readable : Readable node.inputData)
    (erc20 : isErc20Selector (extractMethodSelector node.inputData) = true) :
    argsOf libs node =
      let selector := extractMethodSelector node.inputData
      let size := 32 * (erc20ArgumentTypes selector).length
      if size ≤ (argumentBytes node).length then
        readArguments libs selector ((argumentBytes node).take size)
      else none := by
  obtain ⟨body, read⟩ := readable
  simp only [isErc20Selector, Bool.or_eq_true, decide_eq_true_eq] at erc20
  unfold argsOf
  simp only [decodeErc20TransferCalldata, argumentBytes, read, results_ok, ok_bind, readArguments]
  by_cases transfer : extractMethodSelector node.inputData = erc20TransferSelector
  · have types : erc20ArgumentTypes erc20TransferSelector = ["address", "uint256"] := rfl
    simp only [transfer, types, if_true, List.length_cons, List.length_nil]
    by_cases short : body.length < 64
    · simp [short, pure, Except.pure]
    · rw [if_neg short, if_pos (by omega)]
      cases decoded : libs.abiDecode ["address", "uint256"] (body.take 64) with
      | error e => simp [pure, Except.pure]
      | ok values =>
          obtain ⟨recipient, amount, rfl⟩ := typed.transfer _ _ decoded
          simp [Value.lowered, Value.toInt, pure, Except.pure, bind, Except.bind]
  · have transferFrom := erc20.resolve_left transfer
    have types : erc20ArgumentTypes erc20TransferFromSelector = ["address", "address", "uint256"] := rfl
    have other : erc20TransferFromSelector ≠ erc20TransferSelector := by decide
    simp only [transferFrom, types, other, if_false, if_true, List.length_cons, List.length_nil]
    by_cases short : body.length < 96
    · simp [short, pure, Except.pure]
    · rw [if_neg short, if_pos (by omega)]
      cases decoded : libs.abiDecode ["address", "address", "uint256"] (body.take 96) with
      | error e => simp [pure, Except.pure]
      | ok values =>
          obtain ⟨sender, recipient, amount, rfl⟩ := typed.transferFrom _ _ decoded
          simp [Value.lowered, Value.toInt, pure, Except.pure, bind, Except.bind]

theorem readArguments_spec (spec : AbiSpec libs) (selector : String) (data : List UInt8)
    (erc20 : isErc20Selector selector = true) :
    ∀ transfer ∈ readArguments libs selector data,
      FitsSelector selector transfer ∧ transfer.toAddr ≠ "" := by
  intro transfer read
  simp only [isErc20Selector, Bool.or_eq_true, decide_eq_true_eq] at erc20
  unfold readArguments at read
  rcases erc20 with rfl | rfl
  · cases decoded : libs.abiDecode (erc20ArgumentTypes erc20TransferSelector) data with
    | error e => simp [decoded] at read
    | ok values =>
        obtain ⟨recipient, amount, rfl, nonempty⟩ := values_transfer spec _ _ decoded
        simp only [decoded, Option.mem_def, Option.some.injEq] at read
        subst read
        exact ⟨Or.inl ⟨rfl, rfl, rfl⟩, by simpa using nonempty⟩
  · cases decoded : libs.abiDecode (erc20ArgumentTypes erc20TransferFromSelector) data with
    | error e => simp [decoded] at read
    | ok values =>
        obtain ⟨sender, recipient, amount, rfl, nonempty⟩ := values_transferFrom spec _ _ decoded
        simp only [decoded, Option.mem_def, Option.some.injEq] at read
        subst read
        exact ⟨Or.inr ⟨rfl, rfl, rfl⟩, by simpa using nonempty⟩

/-! ## Arguments under the registered ABI -/

def methodParams (method : AbiEntry) (body : List UInt8) : Dict String Value :=
  if body.length % 32 ≠ 0 then Dict.empty
  else
    match if method.inputs = [] then .ok []
        else libs.abiDecode (method.inputs.map AbiInput.type) body with
    | .error _ => Dict.empty
    | .ok values =>
        Dict.ofList ((method.inputs.zip values).map fun (input, value) =>
          (input.name, calldataParam input value))

theorem fromHex_drop (calldata : String) :
    fromHex ((rawDigits calldata).toList.drop 8) = calldataBody calldata := by
  unfold calldataBody
  split_ifs with long
  · rfl
  · rw [List.drop_eq_nil_of_le (by rw [String.length_toList]; omega)]
    rfl

theorem decodeCalldata_found (spec : AbiSpec libs) {calldata : String} {abi : Abi} {method : AbiEntry}
    {body : List UInt8} (read : calldataBody calldata = .ok body)
    (found : findMethodBySelector libs abi (extractMethodSelector calldata) = some method) :
    ∃ result, decodeCalldata libs calldata abi = .ok result ∧
      (result.decoded.map DecodedCall.params).getD Dict.empty = methodParams libs method body := by
  simp only [decodeCalldata, found, fromHex_drop, read, ok_bind, methodParams]
  by_cases ragged : body.length % 32 ≠ 0
  · have nonempty : body ≠ [] := by
      rintro rfl
      exact ragged rfl
    rw [if_pos ⟨nonempty, ragged⟩, if_pos ragged]
    exact ⟨_, rfl, rfl⟩
  · rw [if_neg fun both => ragged both.2, if_neg ragged]
    cases decoded : (if method.inputs = [] then .ok []
        else libs.abiDecode (method.inputs.map AbiInput.type) body) with
    | error e => exact ⟨_, rfl, rfl⟩
    | ok values =>
        have arity : values.length = method.inputs.length := by
          by_cases none : method.inputs = []
          · rw [if_pos none] at decoded
            cases decoded
            rw [none]
            rfl
          · rw [if_neg none] at decoded
            have typed := spec.values _ _ _ decoded
            rw [← typed.length_eq, List.length_map]
        simp only [arity, ne_eq, not_true_eq_false, if_false]
        exact ⟨_, rfl, rfl⟩

def linkParams (transfer : Erc20Transfer) : Dict String Value :=
  Dict.ofList ((transfer.fromAddr.map fun addr => ("from", Value.str addr)).toList ++
    [("to", .str transfer.toAddr), ("value", .int transfer.amount)])

def linkEntry (selector : String) : AbiEntry :=
  if selector = erc20TransferSelector then transferEntry else transferFromEntry

def registeredArgs (node : RawTrace) : Option Erc20Transfer :=
  if WholeWords node then
    readArguments libs (extractMethodSelector node.inputData) (argumentBytes node)
  else none

theorem methodParams_link (spec : AbiSpec libs) (node : RawTrace)
    (erc20 : isErc20Selector (extractMethodSelector node.inputData) = true) :
    methodParams libs (linkEntry (extractMethodSelector node.inputData)) (argumentBytes node) =
      ((registeredArgs libs node).map linkParams).getD Dict.empty := by
  simp only [isErc20Selector, Bool.or_eq_true, decide_eq_true_eq] at erc20
  unfold methodParams registeredArgs
  by_cases whole : WholeWords node
  case neg =>
    rw [if_pos (show (argumentBytes node).length % 32 ≠ 0 from whole), if_neg whole]
    rfl
  case pos =>
    rw [if_neg (show ¬ (argumentBytes node).length % 32 ≠ 0 from not_not.mpr whole), if_pos whole]
    unfold readArguments
    rcases erc20 with selector | selector
    · rw [selector]
      have types : transferEntry.inputs.map AbiInput.type = ["address", "uint256"] := rfl
      have inputs : transferEntry.inputs ≠ [] := by simp [transferEntry]
      have entry : linkEntry erc20TransferSelector = transferEntry := rfl
      have arguments : erc20ArgumentTypes erc20TransferSelector = ["address", "uint256"] := rfl
      rw [entry, if_neg inputs, types, arguments]
      cases decoded : libs.abiDecode ["address", "uint256"] (argumentBytes node) with
      | error e => rfl
      | ok values =>
          obtain ⟨recipient, amount, rfl, -⟩ := values_transfer spec _ _ decoded
          rfl
    · rw [selector]
      have types : transferFromEntry.inputs.map AbiInput.type = ["address", "address", "uint256"] := rfl
      have inputs : transferFromEntry.inputs ≠ [] := by simp [transferFromEntry]
      have entry : linkEntry erc20TransferFromSelector = transferFromEntry := rfl
      have arguments : erc20ArgumentTypes erc20TransferFromSelector =
          ["address", "address", "uint256"] := rfl
      rw [entry, if_neg inputs, types, arguments]
      cases decoded : libs.abiDecode ["address", "address", "uint256"] (argumentBytes node) with
      | error e => rfl
      | ok values =>
          obtain ⟨sender, recipient, amount, rfl, -⟩ := values_transferFrom spec _ _ decoded
          rfl

theorem registeredArgs_of_argsOf (spec : AbiSpec libs) (node : RawTrace)
    (readable : Readable node.inputData)
    (erc20 : isErc20Selector (extractMethodSelector node.inputData) = true) (args : Erc20Transfer)
    (direct : argsOf libs node = some args) :
    registeredArgs libs node = if WholeWords node then some args else none := by
  rw [argsOf_read libs (typedAbi_of_spec spec) node readable erc20] at direct
  simp only at direct
  split_ifs at direct with long
  have static : ∀ type ∈ erc20ArgumentTypes (extractMethodSelector node.inputData),
      type = "address" ∨ type = "uint256" := by
    unfold erc20ArgumentTypes
    split_ifs <;> simp
  rw [registeredArgs]
  split_ifs with whole
  · rw [readArguments, spec.head _ static _ long]
    exact direct
  · rfl

/-! ## Frames under the registry -/

variable (registry : AbiRegistry) (tokenAddress : String) (receiptsByTx : Dict String Receipt)

def Registers (blockNumber : Int) : Prop :=
  ∃ abi, registry.get tokenAddress blockNumber = .ok abi ∧ HasTransfers libs abi

theorem findMethodBySelector_link {abi : Abi} (link : HasTransfers libs abi) (selector : String)
    (erc20 : isErc20Selector selector = true) :
    findMethodBySelector libs abi selector = some (linkEntry selector) := by
  simp only [isErc20Selector, Bool.or_eq_true, decide_eq_true_eq] at erc20
  rcases erc20 with rfl | rfl
  · exact link.transfer
  · exact link.transferFrom

def explanation (node : RawTrace) : Option AbiEntry :=
  match node.toAddr with
  | none => none
  | some addr =>
      match registry.get (lower addr) node.blockNumber with
      | .error _ => none
      | .ok abi => findMethodBySelector libs abi (extractMethodSelector node.inputData)

def explainedMethod (node : RawTrace) : String × Dict String Value :=
  match explanation libs registry node with
  | none => (unknownMethod, Dict.empty)
  | some method => (method.name.getD "<unnamed>", methodParams libs method (argumentBytes node))

theorem registeredMethod_eq (spec : AbiSpec libs) (node : RawTrace) (readable : Readable node.inputData) :
    registeredMethod libs registry node = .ok (explainedMethod libs registry node) := by
  obtain ⟨body, read⟩ := readable
  have bytes : argumentBytes node = body := by rw [argumentBytes, read, results_ok]
  have readCalldata : calldataBody node.calldata = .ok body := by rw [calldataBody_calldata, read]
  unfold registeredMethod explainedMethod explanation
  cases node.toAddr with
  | none => rfl
  | some addr =>
      simp only
      cases registry.get (lower addr) node.blockNumber with
      | error e => rfl
      | ok abi =>
          simp only [← extractMethodSelector_calldata node]
          cases found : findMethodBySelector libs abi (extractMethodSelector node.calldata) with
          | none => rfl
          | some method =>
              obtain ⟨result, decoded, params⟩ := decodeCalldata_found libs spec readCalldata found
              simp only [decoded, ok_bind, params, bytes]
              rfl

theorem argsOf_otherSelector (typed : TypedAbi libs) (node : RawTrace)
    (readable : Readable node.inputData)
    (other : isErc20Selector (extractMethodSelector node.inputData) = false) :
    argsOf libs node = none := by
  have fits := (argsOf_spec libs typed node readable).2
  cases args : argsOf libs node with
  | none => rfl
  | some transfer =>
      rcases fits transfer args with ⟨selector, -⟩ | ⟨selector, -⟩ <;>
        rw [selector] at other <;> cases other

theorem methodOf_eq (spec : AbiSpec libs) (node : RawTrace) (readable : Readable node.inputData) :
    methodOf libs registry node =
      .ok (if (explainedMethod libs registry node).1 = unknownMethod then
          ((argsOf libs node).map fun transfer => (transfer.method.name, transfer.params)).getD
            (explainedMethod libs registry node)
        else explainedMethod libs registry node) := by
  have fast := (argsOf_spec libs (typedAbi_of_spec spec) node readable).1
  rw [methodOf, registeredMethod_eq libs registry spec node readable, ok_bind]
  simp only [fast, ok_bind]
  split_ifs with unknown
  · cases argsOf libs node <;> rfl
  · rfl

section Token
variable {node : RawTrace} {addr : String} (callee : node.toAddr = some addr)
  (isToken : lower addr = lower tokenAddress)
  (registers : Registers libs registry tokenAddress node.blockNumber)
include callee isToken registers

theorem explanation_token : ∃ abi, HasTransfers libs abi ∧ explanation libs registry node =
    findMethodBySelector libs abi (extractMethodSelector node.inputData) := by
  obtain ⟨abi, known, link⟩ := registers
  have here : registry.get (lower addr) node.blockNumber = .ok abi := by
    rw [isToken, ← known, AbiRegistry.get, AbiRegistry.get, lower_lower]
  refine ⟨abi, link, ?_⟩
  simp only [explanation, callee, here]

theorem methodOf_transfer (spec : AbiSpec libs) (readable : Readable node.inputData)
    (erc20 : isErc20Selector (extractMethodSelector node.inputData) = true) :
    methodOf libs registry node =
      .ok ((linkEntry (extractMethodSelector node.inputData)).name.getD "<unnamed>",
        ((registeredArgs libs node).map linkParams).getD Dict.empty) := by
  obtain ⟨abi, link, explained⟩ := explanation_token libs registry tokenAddress callee isToken registers
  have known : (linkEntry (extractMethodSelector node.inputData)).name.getD "<unnamed>" ≠ unknownMethod := by
    unfold linkEntry
    split_ifs <;> decide
  have method : explainedMethod libs registry node =
      ((linkEntry (extractMethodSelector node.inputData)).name.getD "<unnamed>",
        ((registeredArgs libs node).map linkParams).getD Dict.empty) := by
    simp only [explainedMethod, explained, findMethodBySelector_link libs link _ erc20,
      methodParams_link libs spec node erc20]
  rw [methodOf_eq libs registry spec node readable, method, if_neg known]

theorem methodOf_other (spec : AbiSpec libs) (readable : Readable node.inputData)
    (other : isErc20Selector (extractMethodSelector node.inputData) = false) :
    methodOf libs registry node = .ok (explainedMethod libs registry node) ∧
      (explainedMethod libs registry node).1 ≠ "transfer" ∧
      (explainedMethod libs registry node).1 ≠ "transferFrom" := by
  obtain ⟨abi, link, explained⟩ := explanation_token libs registry tokenAddress callee isToken registers
  have noArgs := argsOf_otherSelector libs (typedAbi_of_spec spec) node readable other
  constructor
  · rw [methodOf_eq libs registry spec node readable, noArgs]
    exact congrArg Except.ok (ite_self _)
  · unfold explainedMethod
    rw [explained]
    cases found : findMethodBySelector libs abi (extractMethodSelector node.inputData) with
    | none => exact ⟨show unknownMethod ≠ "transfer" by decide, show unknownMethod ≠ "transferFrom" by decide⟩
    | some method =>
        obtain ⟨notTransfer, notTransferFrom⟩ := name_of_otherSelector libs link found other
        obtain ⟨name, -, named, -⟩ := findMethodBySelector_some libs found
        rw [named] at notTransfer notTransferFrom
        simp only [named, Option.getD_some]
        exact ⟨fun same => notTransfer (same ▸ rfl), fun same => notTransferFrom (same ▸ rfl)⟩

end Token

/-! ## Token calls under the registry -/

/-- The token call of a frame, with the arguments read under the registered ABI. -/
def registeredTokenCall (frame : Frame) : TraceTokenCall :=
  { frameTokenCall sha256 libs tokenAddress frame with
    fromAddr := lower (((registeredArgs libs frame.node).bind Erc20Transfer.fromAddr).getD "")
    toAddr := lower (((registeredArgs libs frame.node).map Erc20Transfer.toAddr).getD "")
    amount := ((registeredArgs libs frame.node).map Erc20Transfer.amount).getD 0 }

theorem linkParams_get (transfer : Erc20Transfer) :
    (linkParams transfer).get? "amount" = none ∧
    (linkParams transfer).get? "value" = some (.int transfer.amount) ∧
    (linkParams transfer).get? "to" = some (.str transfer.toAddr) ∧
    (linkParams transfer).get? "from" = transfer.fromAddr.map .str := by
  cases sender : transfer.fromAddr <;>
    simp [linkParams, Dict.ofList, Dict.get?_set, sender]

theorem tokenCallOf_registered (frame : Frame)
    (erc20 : isErc20Selector (extractMethodSelector frame.node.inputData) = true) :
    tokenCallOf tokenAddress { frameCall sha256 libs frame with
        methodName := (linkEntry (extractMethodSelector frame.node.inputData)).name.getD "<unnamed>"
        params := ((registeredArgs libs frame.node).map linkParams).getD Dict.empty } =
      .ok (registeredTokenCall sha256 libs tokenAddress frame) := by
  simp only [isErc20Selector, Bool.or_eq_true, decide_eq_true_eq] at erc20
  have other : erc20TransferFromSelector ≠ erc20TransferSelector := by decide
  unfold tokenCallOf registeredTokenCall frameTokenCall frameCall
  cases args : registeredArgs libs frame.node with
  | none =>
      rcases erc20 with selector | selector <;>
        simp [selector, other, linkEntry, transferFromEntry, Value.toInt, textParam, Value.text, bind,
          Except.bind, pure, Except.pure]
  | some transfer =>
      obtain ⟨amount, value, toAddr, fromAddr⟩ := linkParams_get transfer
      rcases erc20 with selector | selector <;>
        simp [selector, other, linkEntry, transferFromEntry, amount, value, toAddr, fromAddr,
          Value.toInt, textParam, Value.text, bind, Except.bind, pure, Except.pure]

theorem decodeFrame_of_method (frame : Frame) (methodName : String) (params : Dict String Value)
    (method : methodOf libs registry frame.node = .ok (methodName, params)) :
    decodeFrame sha256 libs registry frame =
      .ok { frameCall sha256 libs frame with methodName := methodName, params := params } := by
  rw [decodeFrame, decodeNode, method, ok_bind, extractMethodSelector_calldata]
  rfl

theorem isTokenCall_of_method (address : tokenAddress ≠ "") (frame : Frame) (methodName : String)
    (params : Dict String Value) :
    isTokenCall tokenAddress receiptsByTx
        { frameCall sha256 libs frame with methodName := methodName, params := params } =
      (frame.node.toAddr.any (fun addr => lower addr = lower tokenAddress) &&
        (methodName = "transfer" || methodName = "transferFrom" ||
          isErc20Selector (extractMethodSelector frame.node.inputData)) &&
        (frame.node.succeeded && allSucceeded frame.ancestors) &&
        (receiptsByTx.get? (lower frame.node.txHash)).any (·.status = 1)) := by
  rw [← contractAddress_frameCall sha256 libs tokenAddress address]
  simp only [isTokenCall, frameCall, lower_lower]

theorem decodeFrame_registered (spec : AbiSpec libs) (address : tokenAddress ≠ "") (frame : Frame)
    (readable : Readable frame.node.inputData)
    (registers : frame.node.toAddr.any (fun addr => lower addr = lower tokenAddress) = true →
      Registers libs registry tokenAddress frame.node.blockNumber) :
    ∃ call, decodeFrame sha256 libs registry frame = .ok call ∧
      isTokenCall tokenAddress receiptsByTx call = observed tokenAddress receiptsByTx frame ∧
      (observed tokenAddress receiptsByTx frame = true →
        tokenCallOf tokenAddress call = .ok (registeredTokenCall sha256 libs tokenAddress frame)) := by
  -- whatever its method, the call has the other fields of the frame
  have decoded := decodeFrame_of_method sha256 libs registry frame
  have fields := isTokenCall_of_method sha256 libs tokenAddress receiptsByTx address frame
  unfold observed
  cases onToken : frame.node.toAddr.any (fun addr => lower addr = lower tokenAddress) with
  | false =>
      have method := methodOf_eq libs registry spec frame.node readable
      refine ⟨_, decoded _ _ method, ?_, ?_⟩
      · rw [fields, onToken]
        rfl
      · intro other
        cases other
  | true =>
      obtain ⟨addr, callee, isToken⟩ : ∃ addr, frame.node.toAddr = some addr ∧
          lower addr = lower tokenAddress := by
        cases callee : frame.node.toAddr with
        | none => simp [callee] at onToken
        | some addr => exact ⟨addr, rfl, by simpa [callee] using onToken⟩
      cases erc20 : isErc20Selector (extractMethodSelector frame.node.inputData) with
      | true =>
          have method := methodOf_transfer libs registry tokenAddress callee isToken (registers onToken)
            spec readable erc20
          refine ⟨_, decoded _ _ method, ?_, fun _ => ?_⟩
          · rw [fields, onToken, erc20, Bool.or_true]
          · exact tokenCallOf_registered sha256 libs tokenAddress frame erc20
      | false =>
          obtain ⟨method, notTransfer, notTransferFrom⟩ :=
            methodOf_other libs registry tokenAddress callee isToken (registers onToken) spec readable erc20
          refine ⟨_, decoded (explainedMethod libs registry frame.node).1
            (explainedMethod libs registry frame.node).2 method, ?_, ?_⟩
          · rw [fields, onToken, erc20]
            simp [notTransfer, notTransferFrom]
          · intro other
            cases other

section
variable {libs}

theorem readable_of_decodeErc20 {node : RawTrace} {args : Option Erc20Transfer}
    (decoded : decodeErc20TransferCalldata libs node.calldata = .ok args) : Readable node.inputData := by
  simp only [decodeErc20TransferCalldata, bind_eq_ok_iff] at decoded
  obtain ⟨body, read, -⟩ := decoded
  exact ⟨body, by rw [← calldataBody_calldata, read]⟩

theorem readable_of_decodeCalldata {node : RawTrace} {abi : Abi} {method : AbiEntry}
    (found : findMethodBySelector libs abi (extractMethodSelector node.calldata) = some method)
    {result : DecodeResult DecodedCall} (decoded : decodeCalldata libs node.calldata abi = .ok result) :
    Readable node.inputData := by
  simp only [decodeCalldata, found, fromHex_drop, bind_eq_ok_iff] at decoded
  obtain ⟨body, read, -⟩ := decoded
  exact ⟨body, by rw [← calldataBody_calldata, read]⟩

theorem readable_of_methodOf {registry : AbiRegistry} {node : RawTrace}
    {method : String × Dict String Value} (returned : methodOf libs registry node = .ok method) :
    Readable node.inputData := by
  rw [methodOf, bind_eq_ok_iff] at returned
  obtain ⟨⟨methodName, params⟩, registered, fast⟩ := returned
  by_cases unknown : methodName = unknownMethod
  · simp only [if_pos unknown, bind_eq_ok_iff] at fast
    obtain ⟨args, decoded, -⟩ := fast
    exact readable_of_decodeErc20 decoded
  · unfold registeredMethod at registered
    split at registered
    · cases registered
      exact absurd rfl unknown
    · split at registered
      · cases registered
        exact absurd rfl unknown
      · split at registered
        · cases registered
          exact absurd rfl unknown
        next found =>
          obtain ⟨result, decoded, -⟩ := (bind_eq_ok_iff _ _ _).mp registered
          exact readable_of_decodeCalldata found decoded

theorem readable_of_decodeFrame {registry : AbiRegistry} {frame : Frame} {call : DecodedCall}
    (decoded : decodeFrame sha256 libs registry frame = .ok call) : Readable frame.node.inputData := by
  rw [decodeFrame, decodeNode, bind_eq_ok_iff] at decoded
  obtain ⟨method, returned, -⟩ := decoded
  exact readable_of_methodOf returned

theorem readable_of_decoded {registry : AbiRegistry} {tree : RawTrace} {decoded : List DecodedCall}
    (returned : decodeTraceCalls sha256 libs tree registry = .ok decoded) :
    ∀ frame ∈ frames [] tree, Readable frame.node.inputData := by
  intro frame member
  rw [decodeTraceCalls_eq] at returned
  obtain ⟨call, computed⟩ := ok_of_mem_mapM _ returned frame member
  exact readable_of_decodeFrame sha256 computed

end

theorem registeredTokenCall_eq_iff (spec : AbiSpec libs) (frame : Frame)
    (readable : Readable frame.node.inputData)
    (erc20 : isErc20Selector (extractMethodSelector frame.node.inputData) = true)
    (decodes : (argsOf libs frame.node).isSome = true) :
    registeredTokenCall sha256 libs tokenAddress frame =
      frameTokenCall sha256 libs tokenAddress frame ↔ WholeWords frame.node := by
  obtain ⟨args, direct⟩ := Option.isSome_iff_exists.mp decodes
  have registered := registeredArgs_of_argsOf libs spec frame.node readable erc20 args direct
  unfold registeredTokenCall
  rw [registered]
  by_cases whole : WholeWords frame.node
  · simp [whole, frameTokenCall, direct]
  · simp only [whole, if_false, iff_false]
    intro same
    have recipient : args.toAddr ≠ "" := by
      rw [argsOf_read libs (typedAbi_of_spec spec) frame.node readable erc20] at direct
      simp only at direct
      split_ifs at direct
      exact (readArguments_spec libs spec _ _ erc20 args direct).2
    have noRecipient := congrArg TraceTokenCall.toAddr same
    simp only [frameTokenCall, direct, Option.map_none, Option.map_some, Option.getD_none,
      Option.getD_some, lower_empty] at noRecipient
    exact recipient ((lower_eq_empty _).mp noRecipient.symm)

/-- Under the registry the tree yields a call for every observed frame, and where the arguments
decode without the registry it is the call they give. -/
def KeepsTransfers (tree : RawTrace) : Prop :=
  ∃ calls, tokenCallsOf sha256 libs registry tokenAddress receiptsByTx tree = .ok calls ∧
    List.Forall₂ (fun frame call => (argsOf libs frame.node).isSome = true →
        call = frameTokenCall sha256 libs tokenAddress frame)
      ((frames [] tree).filter (observed tokenAddress receiptsByTx)) calls

theorem tokenCallsOf_empty (typed : TypedAbi libs) (address : tokenAddress ≠ "") (tree : RawTrace)
    (readable : ∀ frame ∈ frames [] tree, Readable frame.node.inputData) :
    tokenCallsOf sha256 libs AbiRegistry.empty tokenAddress receiptsByTx tree =
      .ok (((frames [] tree).filter (observed tokenAddress receiptsByTx)).map
        (frameTokenCall sha256 libs tokenAddress)) := by
  rw [tokenCallsOf, decodeTraceCalls_empty sha256 libs typed tree readable, ok_bind]
  exact extract_frames sha256 libs tokenAddress receiptsByTx address typed _ readable

section Tree
variable (spec : AbiSpec libs) (address : tokenAddress ≠ "") (tree : RawTrace)
  (readable : ∀ frame ∈ frames [] tree, Readable frame.node.inputData)
  (registers : ∀ frame ∈ frames [] tree,
    frame.node.toAddr.any (fun addr => lower addr = lower tokenAddress) = true →
      Registers libs registry tokenAddress frame.node.blockNumber)
include spec address readable registers

theorem tokenCallsOf_registered :
    tokenCallsOf sha256 libs registry tokenAddress receiptsByTx tree =
      .ok (((frames [] tree).filter (observed tokenAddress receiptsByTx)).map
        (registeredTokenCall sha256 libs tokenAddress)) := by
  obtain ⟨calls, decoded, each⟩ := exists_mapM (decodeFrame sha256 libs registry) _ (frames [] tree)
    fun frame member => decodeFrame_registered sha256 libs registry tokenAddress receiptsByTx spec
      address frame (readable frame member) (registers frame member)
  rw [tokenCallsOf, decodeTraceCalls_eq, decoded, ok_bind]
  exact extract_of_each tokenAddress receiptsByTx _ each

theorem keepsTransfers_iff :
    KeepsTransfers sha256 libs registry tokenAddress receiptsByTx tree ↔
      ∀ frame ∈ (frames [] tree).filter (observed tokenAddress receiptsByTx),
        (argsOf libs frame.node).isSome = true → WholeWords frame.node := by
  have run := tokenCallsOf_registered sha256 libs registry tokenAddress receiptsByTx spec address tree
    readable registers
  simp only [KeepsTransfers, run, Except.ok.injEq, exists_eq_left']
  rw [List.forall₂_map_right_iff, List.forall₂_same]
  apply forall₂_congr
  intro frame member
  obtain ⟨inTree, isObserved⟩ := List.mem_filter.mp member
  have erc20 : isErc20Selector (extractMethodSelector frame.node.inputData) = true := by
    simp only [observed, Bool.and_eq_true] at isObserved
    exact isObserved.1.1.2
  exact imp_congr_right fun decodes =>
    registeredTokenCall_eq_iff sha256 libs tokenAddress spec frame (readable frame inTree) erc20 decodes

end Tree

/-- Registering the token's ABI keeps the transfers exactly when their arguments are whole words. -/
theorem registering_keeps_transfers_iff (spec : AbiSpec libs) (address : tokenAddress ≠ "")
    (tree : RawTrace) (registers : ∀ frame ∈ frames [] tree,
      frame.node.toAddr.any (fun addr => lower addr = lower tokenAddress) = true →
        Registers libs registry tokenAddress frame.node.blockNumber)
    (direct : List TraceTokenCall)
    (returned : tokenCallsOf sha256 libs AbiRegistry.empty tokenAddress receiptsByTx tree = .ok direct) :
    direct = ((frames [] tree).filter (observed tokenAddress receiptsByTx)).map
        (frameTokenCall sha256 libs tokenAddress) ∧
    (KeepsTransfers sha256 libs registry tokenAddress receiptsByTx tree ↔
      ∀ frame ∈ (frames [] tree).filter (observed tokenAddress receiptsByTx),
        (argsOf libs frame.node).isSome = true → WholeWords frame.node) := by
  obtain ⟨decoded, decodes, -⟩ := (bind_eq_ok_iff _ _ _).mp returned
  have readable := readable_of_decoded sha256 decodes
  constructor
  · rw [tokenCallsOf_empty sha256 libs tokenAddress receiptsByTx (typedAbi_of_spec spec) address tree
      readable] at returned
    exact (Except.ok.inj returned).symm
  · exact keepsTransfers_iff sha256 libs registry tokenAddress receiptsByTx spec address tree readable
      registers

/-! ### A transfer with a trailing byte -/

def transferDigest (text : String) : String :=
  if text = "transfer(address,uint256)" then
    "a9059cbb2ab09eb219583f4a59a5d0623ade346d962bcd4e46b11da047c9049b"
  else if text = "transferFrom(address,address,uint256)" then
    "23b872dd7302113369cda2901243429419bec145408fa8b352b3dd92b66c680b"
  else ""

def transferLibs : ExternalLibs := ⟨wordDecode, transferDigest⟩

def linkAbi : Abi := ⟨"erc20_v1", linkTokenEntries⟩

def linkRegistry : AbiRegistry :=
  ⟨Dict.ofList [(linkToken, [(⟨linkToken, "erc20_v1", 0, none⟩, linkAbi)])]⟩

theorem linkRegistry_registers : Registers transferLibs linkRegistry linkToken 100 := by
  have digests : Erc20Digests transferLibs := ⟨by decide, by decide⟩
  refine ⟨linkAbi, ?_, linkToken_hasTransfers transferLibs digests linkAbi rfl⟩
  have lowered : lower linkToken = linkToken := by decide
  simp [AbiRegistry.get, linkRegistry, lowered, Dict.ofList, Dict.get?_set, Phase.covers]

def tokenCall (inputData : String) : RawTrace := callTo "0xaa" linkToken inputData none []

theorem frames_tokenCall (inputData : String) :
    frames [] (tokenCall inputData) = [⟨[], tokenCall inputData⟩] := by
  rw [frames_eq]
  rfl

theorem registers_tokenCall (inputData : String) : ∀ frame ∈ frames [] (tokenCall inputData),
    frame.node.toAddr.any (fun addr => lower addr = lower linkToken) = true →
      Registers transferLibs linkRegistry linkToken frame.node.blockNumber := by
  rw [frames_tokenCall]
  intro frame member _
  rw [List.mem_singleton.mp member]
  exact linkRegistry_registers

theorem readable_tokenCall (inputData : String) (hex : HexInput inputData) :
    ∀ frame ∈ frames [] (tokenCall inputData), Readable frame.node.inputData := by
  rw [frames_tokenCall]
  intro frame member
  rw [List.mem_singleton.mp member]
  exact hex.readable

theorem tokenCallsOf_tokenCall (inputData : String) (hex : HexInput inputData) :
    tokenCallsOf id transferLibs AbiRegistry.empty linkToken successfulReceipt (tokenCall inputData) =
      .ok (((frames [] (tokenCall inputData)).filter (observed linkToken successfulReceipt)).map
        (frameTokenCall id transferLibs linkToken)) :=
  tokenCallsOf_empty id transferLibs linkToken successfulReceipt
    (typedAbi_of_spec (wordDecode_spec transferDigest)) (by decide) (tokenCall inputData)
    (readable_tokenCall inputData hex)

theorem registering_keeps_transfers_seven :
    ∃ direct, tokenCallsOf id transferLibs AbiRegistry.empty linkToken successfulReceipt
        (tokenCall transferSeven) = .ok direct ∧
      direct = ((frames [] (tokenCall transferSeven)).filter (observed linkToken successfulReceipt)).map
          (frameTokenCall id transferLibs linkToken) ∧
      KeepsTransfers id transferLibs linkRegistry linkToken successfulReceipt (tokenCall transferSeven) := by
  have returned := tokenCallsOf_tokenCall transferSeven
    (hexInput_calldataOf transferDigits (by decide +kernel) (by decide +kernel))
  obtain ⟨same, keeps⟩ := registering_keeps_transfers_iff id transferLibs linkRegistry linkToken
    successfulReceipt (wordDecode_spec transferDigest) (by decide) (tokenCall transferSeven)
    (registers_tokenCall transferSeven) _ returned
  refine ⟨_, returned, same, keeps.mpr ?_⟩
  rw [frames_tokenCall]
  intro frame member _
  rw [List.mem_singleton.mp (List.mem_filter.mp member).1]
  decide +kernel

def longDigits : List Char := transferDigits ++ ['0', '0']

/-- `transfer(0xcc…cc, 7)` and one byte more. -/
def transferAndByte : String := calldataOf longDigits

def moved (run : Py (List TraceTokenCall)) : Option (List (String × Int)) :=
  run.toOption.map fun calls => calls.map fun call => (call.toAddr, call.amount)

theorem moved_single (tokenCallOf : Frame → TraceTokenCall) (frame : Frame) :
    moved (.ok ([frame].map tokenCallOf)) =
      some [((tokenCallOf frame).toAddr, (tokenCallOf frame).amount)] := rfl

theorem transferAndByte_selector : extractMethodSelector transferAndByte = erc20TransferSelector :=
  (extractMethodSelector_calldataOf longDigits (by decide +kernel)).trans (by decide +kernel)

theorem transferAndByte_body : calldataBody transferAndByte = fromHex (longDigits.drop 8) :=
  calldataBody_calldataOf longDigits (by decide +kernel)

theorem argsOf_transferAndByte : argsOf transferLibs (tokenCall transferAndByte) =
    some ⟨.transfer, none, "0xcccccccccccccccccccccccccccccccccccccccc", 7⟩ := by
  refine argsOf_eq transferLibs (tokenCall transferAndByte) _ transferAndByte rfl ?_
  rw [decodeErc20TransferCalldata, transferAndByte_selector, transferAndByte_body]
  decide +kernel

theorem ragged_transferAndByte : ¬ WholeWords (tokenCall transferAndByte) := by
  have bytes : argumentBytes (tokenCall transferAndByte) = results (fromHex (longDigits.drop 8)) :=
    congrArg results transferAndByte_body
  rw [WholeWords, bytes]
  decide +kernel

theorem trailing_byte_loses_transfer :
    (∀ frame ∈ frames [] (tokenCall transferAndByte),
      frame.node.toAddr.any (fun addr => lower addr = lower linkToken) = true →
        Registers transferLibs linkRegistry linkToken frame.node.blockNumber) ∧
    moved (tokenCallsOf id transferLibs AbiRegistry.empty linkToken successfulReceipt
      (tokenCall transferAndByte)) = some [("0xcccccccccccccccccccccccccccccccccccccccc", 7)] ∧
    moved (tokenCallsOf id transferLibs linkRegistry linkToken successfulReceipt
      (tokenCall transferAndByte)) = some [("", 0)] := by
  have registers := registers_tokenCall transferAndByte
  have hex : HexInput transferAndByte :=
    hexInput_calldataOf longDigits (by decide +kernel) (by decide +kernel)
  have observedFrames : (frames [] (tokenCall transferAndByte)).filter
      (observed linkToken successfulReceipt) = [⟨[], tokenCall transferAndByte⟩] := by
    rw [frames_tokenCall]
    exact List.filter_cons_of_pos
      (observed_callTo transferAndByte (by rw [transferAndByte_selector]; decide))
  refine ⟨registers, ?_, ?_⟩
  · have recipient : (frameTokenCall id transferLibs linkToken ⟨[], tokenCall transferAndByte⟩).toAddr =
        "0xcccccccccccccccccccccccccccccccccccccccc" := by
      rw [frameTokenCall, argsOf_transferAndByte]
      decide
    have amount : (frameTokenCall id transferLibs linkToken ⟨[], tokenCall transferAndByte⟩).amount = 7 := by
      rw [frameTokenCall, argsOf_transferAndByte]
      rfl
    rw [tokenCallsOf_tokenCall transferAndByte hex, observedFrames, moved_single, recipient, amount]
  · have nothing : registeredArgs transferLibs (tokenCall transferAndByte) = none :=
      if_neg ragged_transferAndByte
    have recipient : (registeredTokenCall id transferLibs linkToken
        ⟨[], tokenCall transferAndByte⟩).toAddr = "" := by
      rw [registeredTokenCall, nothing]
      rfl
    have amount : (registeredTokenCall id transferLibs linkToken
        ⟨[], tokenCall transferAndByte⟩).amount = 0 := by
      rw [registeredTokenCall, nothing]
      rfl
    rw [tokenCallsOf_registered id transferLibs linkRegistry linkToken successfulReceipt
      (wordDecode_spec transferDigest) (by decide) _ (readable_tokenCall transferAndByte hex) registers,
      observedFrames, moved_single, recipient, amount]

end EconomicLedger.Trace
