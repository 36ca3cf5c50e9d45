import EconomicLedger.Decode.Words
import EconomicLedger.Trace.Frames

/-!
# Which frames are extracted as token calls

With no registered ABI every frame of a well-formed tree decodes, and the extraction keeps exactly
the successful ERC-20 calls on the token whose ancestors all succeeded.
-/

namespace EconomicLedger.Trace
open Model Text Fallible

variable (sha256 : Digest) (libs : ExternalLibs)

/-! ## Well-formed inputs -/

def HexInput (s : String) : Prop :=
  startsWith s "0x" = true ∧ s.toList.length % 2 = 0 ∧
    ∀ c ∈ s.toList.drop 2, (hexDigit? c).isSome = true

instance (s : String) : Decidable (HexInput s) :=
  @instDecidableAnd _ _ _ (@instDecidableAnd _ _ _ (List.decidableBAll _ _))

/-- `eth_abi` decodes an `address` to text and a `uint256` to an integer. -/
structure TypedAbi (libs : ExternalLibs) : Prop where
  transfer : ∀ data values, libs.abiDecode ["address", "uint256"] data = .ok values →
    ∃ recipient amount, values = [.str recipient, .int amount]
  transferFrom : ∀ data values, libs.abiDecode ["address", "address", "uint256"] data = .ok values →
    ∃ sender recipient amount, values = [.str sender, .str recipient, .int amount]

theorem not_space_of_hexDigit (c : Char) (digit : (hexDigit? c).isSome = true) : isSpace c = false := by
  have bounds : ∀ lo hi : Char, lo ≤ c ∧ c ≤ hi → lo.toNat ≤ c.toNat ∧ c.toNat ≤ hi.toNat :=
    fun lo hi h => h
  have code : 48 ≤ c.toNat := by
    unfold hexDigit? at digit
    split_ifs at digit with decimal small large
    · exact (bounds '0' '9' decimal).1
    · exact le_trans (by decide) (bounds 'a' 'f' small).1
    · exact le_trans (by decide) (bounds 'A' 'F' large).1
    · cases digit
  have notBlank : c ≠ ' ' := by
    rintro rfl
    exact absurd code (by decide)
  simp only [isSpace, notBlank, false_or, decide_eq_false_iff_not, not_and, not_le]
  omega

theorem fromHex_ok (digits : List Char) (even : digits.length % 2 = 0)
    (hex : ∀ c ∈ digits, (hexDigit? c).isSome = true) : ∃ bytes, fromHex digits = .ok bytes := by
  match digits with
  | [] => exact ⟨[], rfl⟩
  | [c] => simp at even
  | high :: low :: rest =>
      have highHex := hex high (by simp)
      have lowHex := hex low (by simp)
      obtain ⟨bytes, below⟩ := fromHex_ok rest
        (by simp only [List.length_cons] at even; omega) fun c member => hex c (by simp [member])
      obtain ⟨h, isHigh⟩ := Option.isSome_iff_exists.mp highHex
      obtain ⟨l, isLow⟩ := Option.isSome_iff_exists.mp lowHex
      refine ⟨UInt8.ofNat (16 * h + l) :: bytes, ?_⟩
      rw [fromHex, if_neg (by simp [not_space_of_hexDigit high highHex]), isHigh, isLow, below]
      rfl

def Readable (s : String) : Prop := ∃ body, calldataBody s = .ok body

theorem HexInput.readable {s : String} (hex : HexInput s) : Readable s := by
  obtain ⟨isPrefixed, even, digits⟩ := hex
  have raw : (rawDigits s).toList = s.toList.drop 2 := by
    simp [rawDigits, isPrefixed, sliceFrom]
  unfold Readable calldataBody
  split_ifs with large
  · rw [raw, List.drop_drop]
    apply fromHex_ok
    · rw [List.length_drop]
      have : 8 ≤ s.toList.length - 2 := by
        rw [← List.length_drop, ← raw, String.length_toList]
        exact large
      omega
    · exact fun c member => digits c (List.mem_of_mem_drop (by rwa [← List.drop_drop] at member))
  · exact ⟨[], rfl⟩

/-! Empty input data stands for `0x`, which has no selector and no arguments either. -/

theorem extractMethodSelector_calldata (node : RawTrace) :
    extractMethodSelector node.calldata = extractMethodSelector node.inputData := by
  unfold RawTrace.calldata
  split_ifs with empty
  · rw [empty]
    rfl
  · rfl

theorem calldataBody_calldata (node : RawTrace) :
    calldataBody node.calldata = calldataBody node.inputData := by
  unfold RawTrace.calldata
  split_ifs with empty
  · rw [empty]
    rfl
  · rfl

theorem decodeErc20TransferCalldata_calldata (node : RawTrace) :
    decodeErc20TransferCalldata libs node.calldata =
      decodeErc20TransferCalldata libs node.inputData := by
  unfold RawTrace.calldata
  split_ifs with empty
  · rw [empty]
    rfl
  · rfl

/-! ## ERC-20 arguments -/

def FitsSelector (selector : String) (transfer : Erc20Transfer) : Prop :=
  (selector = erc20TransferSelector ∧ transfer.method = .transfer ∧ transfer.fromAddr = none) ∨
  (selector = erc20TransferFromSelector ∧ transfer.method = .transferFrom ∧
    transfer.fromAddr.isSome = true)

theorem decodeErc20TransferCalldata_ok (typed : TypedAbi libs) (s : String) (readable : Readable s) :
    ∃ args, decodeErc20TransferCalldata libs s = .ok args ∧
      ∀ transfer ∈ args, FitsSelector (extractMethodSelector s) transfer := by
  obtain ⟨body, read⟩ := readable
  simp only [decodeErc20TransferCalldata, read, bind, Except.bind, erc20ArgumentTypes]
  by_cases isTransfer : extractMethodSelector s = erc20TransferSelector
  · simp only [if_pos isTransfer]
    split_ifs
    · exact ⟨none, rfl, by simp⟩
    · cases decoded : libs.abiDecode ["address", "uint256"] (body.take 64) with
      | error exc => exact ⟨none, rfl, by simp⟩
      | ok values =>
          obtain ⟨recipient, amount, rfl⟩ := typed.transfer _ _ decoded
          refine ⟨some ⟨.transfer, none, lower recipient, amount⟩, rfl, ?_⟩
          rintro _ ⟨⟩
          exact Or.inl ⟨isTransfer, rfl, rfl⟩
  · simp only [if_neg isTransfer]
    by_cases isTransferFrom : extractMethodSelector s = erc20TransferFromSelector
    · simp only [if_pos isTransferFrom]
      split_ifs
      · exact ⟨none, rfl, by simp⟩
      · cases decoded : libs.abiDecode ["address", "address", "uint256"] (body.take 96) with
        | error exc => exact ⟨none, rfl, by simp⟩
        | ok values =>
            obtain ⟨sender, recipient, amount, rfl⟩ := typed.transferFrom _ _ decoded
            refine ⟨some ⟨.transferFrom, some (lower sender), lower recipient, amount⟩, rfl, ?_⟩
            rintro _ ⟨⟩
            exact Or.inr ⟨isTransferFrom, rfl, rfl⟩
    · simp only [if_neg isTransferFrom]
      exact ⟨none, rfl, by simp⟩

def argsOf (node : RawTrace) : Option Erc20Transfer :=
  match decodeErc20TransferCalldata libs node.inputData with
  | .ok args => args
  | .error _ => none

theorem argsOf_spec (typed : TypedAbi libs) (node : RawTrace) (readable : Readable node.inputData) :
    decodeErc20TransferCalldata libs node.calldata = .ok (argsOf libs node) ∧
      ∀ transfer ∈ argsOf libs node, FitsSelector (extractMethodSelector node.inputData) transfer := by
  obtain ⟨args, decoded, fits⟩ := decodeErc20TransferCalldata_ok libs typed node.inputData readable
  rw [decodeErc20TransferCalldata_calldata]
  unfold argsOf
  rw [decoded]
  exact ⟨rfl, fits⟩

theorem params_get (transfer : Erc20Transfer) :
    transfer.params.get? "amount" = some (.int transfer.amount) ∧
    transfer.params.get? "to" = some (.str transfer.toAddr) ∧
    transfer.params.get? "from" = transfer.fromAddr.map .str := by
  cases sender : transfer.fromAddr <;>
    simp [Erc20Transfer.params, Dict.ofList, Dict.get?_set, sender]

/-! ## Decoded frames -/

def frameCall (frame : Frame) : DecodedCall :=
  { rawTraceCallId := computeRawTraceCallId sha256 frame.node.txHash frame.node.traceAddress
    chainId := frame.node.chainId
    blockNumber := frame.node.blockNumber
    txHash := lower frame.node.txHash
    traceAddress := frame.node.traceAddress
    contractAddress := frame.node.toAddr.bind fun addr => if addr = "" then none else some (lower addr)
    methodName := ((argsOf libs frame.node).map (·.method.name)).getD unknownMethod
    methodSelector := extractMethodSelector frame.node.inputData
    params := ((argsOf libs frame.node).map Erc20Transfer.params).getD Dict.empty
    success := frame.node.succeeded
    parentSuccess := allSucceeded frame.ancestors }

theorem registeredMethod_empty (node : RawTrace) :
    registeredMethod libs AbiRegistry.empty node = .ok (unknownMethod, Dict.empty) := by
  unfold registeredMethod
  cases node.toAddr with
  | none => rfl
  | some addr => rfl

theorem decodeFrame_empty (typed : TypedAbi libs) (frame : Frame)
    (readable : Readable frame.node.inputData) :
    decodeFrame sha256 libs AbiRegistry.empty frame = .ok (frameCall sha256 libs frame) := by
  have decoded := (argsOf_spec libs typed frame.node readable).1
  unfold decodeFrame decodeNode methodOf frameCall
  rw [registeredMethod_empty, extractMethodSelector_calldata]
  simp only [bind, Except.bind, if_true, decoded]
  cases argsOf libs frame.node <;> rfl

theorem decodeTraceCalls_empty (typed : TypedAbi libs) (tree : RawTrace)
    (readable : ∀ frame ∈ frames [] tree, Readable frame.node.inputData) :
    decodeTraceCalls sha256 libs tree AbiRegistry.empty =
      .ok ((frames [] tree).map (frameCall sha256 libs)) := by
  rw [decodeTraceCalls_eq, mapM_eq_ok_iff, List.forall₂_map_right_iff, List.forall₂_same]
  exact fun frame member => decodeFrame_empty sha256 libs typed frame (readable frame member)

/-! ## Extracted calls -/

variable (tokenAddress : String) (receiptsByTx : Dict String Receipt)

/-- A successful ERC-20 call on the token, below successful frames only, in a transaction whose
receipt has status 1. -/
def observed (frame : Frame) : Bool :=
  frame.node.toAddr.any (fun addr => lower addr = lower tokenAddress) &&
  isErc20Selector (extractMethodSelector frame.node.inputData) &&
  (frame.node.succeeded && allSucceeded frame.ancestors) &&
  (receiptsByTx.get? (lower frame.node.txHash)).any (·.status = 1)

/-- The token call of a frame; `transfer` does not say who sends. -/
def frameTokenCall (frame : Frame) : TraceTokenCall :=
  { rawTraceCallId := computeRawTraceCallId sha256 frame.node.txHash frame.node.traceAddress
    chainId := frame.node.chainId
    blockNumber := frame.node.blockNumber
    txHash := lower frame.node.txHash
    traceAddress := frame.node.traceAddress
    tokenAddress := lower tokenAddress
    methodName :=
      if extractMethodSelector frame.node.inputData = erc20TransferSelector then .transfer
      else .transferFrom
    fromAddr := lower (((argsOf libs frame.node).bind Erc20Transfer.fromAddr).getD "")
    toAddr := lower (((argsOf libs frame.node).map Erc20Transfer.toAddr).getD "")
    amount := ((argsOf libs frame.node).map Erc20Transfer.amount).getD 0 }

theorem contractAddress_frameCall (address : tokenAddress ≠ "") (frame : Frame) :
    (frameCall sha256 libs frame).contractAddress.any (fun addr => lower addr = lower tokenAddress) =
      frame.node.toAddr.any fun addr => lower addr = lower tokenAddress := by
  unfold frameCall
  cases callee : frame.node.toAddr with
  | none => rfl
  | some addr =>
      by_cases blank : addr = ""
      · have other : ¬ "" = lower tokenAddress := fun same => address ((lower_eq_empty _).mp same.symm)
        simp [blank, other]
      · simp [blank]

theorem isTokenCall_frameCall (address : tokenAddress ≠ "") (typed : TypedAbi libs) (frame : Frame)
    (readable : Readable frame.node.inputData) :
    isTokenCall tokenAddress receiptsByTx (frameCall sha256 libs frame) =
      observed tokenAddress receiptsByTx frame := by
  have fits := (argsOf_spec libs typed frame.node readable).2
  have method : ((frameCall sha256 libs frame).methodName = "transfer" ||
      (frameCall sha256 libs frame).methodName = "transferFrom" ||
      isErc20Selector (frameCall sha256 libs frame).methodSelector) =
      isErc20Selector (extractMethodSelector frame.node.inputData) := by
    unfold frameCall
    cases args : argsOf libs frame.node with
    | none => simp [unknownMethod]
    | some transfer =>
        have known : isErc20Selector (extractMethodSelector frame.node.inputData) = true := by
          rcases fits transfer args with ⟨selector, -, -⟩ | ⟨selector, -, -⟩ <;>
            simp [isErc20Selector, selector]
        simp [known]
  unfold isTokenCall
  rw [contractAddress_frameCall sha256 libs tokenAddress address, method]
  simp only [frameCall, lower_lower]
  rfl

theorem tokenCallOf_frameCall (typed : TypedAbi libs) (frame : Frame)
    (readable : Readable frame.node.inputData) :
    tokenCallOf tokenAddress (frameCall sha256 libs frame) =
      .ok (frameTokenCall sha256 libs tokenAddress frame) := by
  have fits := (argsOf_spec libs typed frame.node readable).2
  unfold tokenCallOf frameCall frameTokenCall
  cases args : argsOf libs frame.node with
  | none => simp [Value.toInt, textParam, Value.text, unknownMethod, bind, Except.bind, pure, Except.pure]
  | some transfer =>
      obtain ⟨amount, toAddr, fromAddr⟩ := params_get transfer
      rcases fits transfer args with ⟨selector, method, sender⟩ | ⟨selector, method, sender⟩
      · simp [amount, toAddr, fromAddr, selector, method, sender, Value.toInt, textParam, Value.text,
          bind, Except.bind, pure, Except.pure]
      · obtain ⟨addr, sender⟩ := Option.isSome_iff_exists.mp sender
        simp [amount, toAddr, fromAddr, selector, method, sender, Value.toInt, textParam, Value.text,
          bind, Except.bind, pure, Except.pure, TokenMethod.name, erc20TransferSelector,
          erc20TransferFromSelector]

theorem extract_of_each (tokenCall : Frame → TraceTokenCall) {fs : List Frame} {calls : List DecodedCall}
    (each : List.Forall₂ (fun frame call =>
      isTokenCall tokenAddress receiptsByTx call = observed tokenAddress receiptsByTx frame ∧
      (observed tokenAddress receiptsByTx frame = true →
        tokenCallOf tokenAddress call = .ok (tokenCall frame))) fs calls) :
    extractErc20TransferCalls tokenAddress receiptsByTx calls =
      .ok ((fs.filter (observed tokenAddress receiptsByTx)).map tokenCall) := by
  induction each with
  | nil => rfl
  | @cons frame call rest others here _ ih =>
      rw [extractErc20TransferCalls, here.1, ih]
      cases kept : observed tokenAddress receiptsByTx frame with
      | false => simp [kept]
      | true =>
          rw [List.filter_cons_of_pos kept, if_pos rfl, here.2 kept]
          rfl

theorem extract_frames (address : tokenAddress ≠ "") (typed : TypedAbi libs) (fs : List Frame)
    (readable : ∀ frame ∈ fs, Readable frame.node.inputData) :
    extractErc20TransferCalls tokenAddress receiptsByTx (fs.map (frameCall sha256 libs)) =
      .ok ((fs.filter (observed tokenAddress receiptsByTx)).map
        (frameTokenCall sha256 libs tokenAddress)) := by
  apply extract_of_each
  rw [List.forall₂_map_right_iff, List.forall₂_same]
  intro frame member
  have here := readable frame member
  exact ⟨isTokenCall_frameCall sha256 libs tokenAddress receiptsByTx address typed frame here,
    fun _ => tokenCallOf_frameCall sha256 libs tokenAddress typed frame here⟩

/-- The extraction emits the observed frames in pre-order, each once, and the flag of every decoded
call is the success of all its proper ancestors. -/
theorem ancestor_success_law (address : tokenAddress ≠ "") (typed : TypedAbi libs) (tree : RawTrace)
    (assigned : Assigned tree) (hex : ∀ frame ∈ frames [] tree, HexInput frame.node.inputData) :
    ∃ decoded calls,
      decodeTraceCalls sha256 libs tree AbiRegistry.empty = .ok decoded ∧
      List.Forall₂ (fun frame call =>
        call.rawTraceCallId = computeRawTraceCallId sha256 frame.node.txHash frame.address ∧
        call.success = frame.node.succeeded ∧
        (call.parentSuccess = true ↔
          ∀ above ∈ frame.ancestors, above.error = none ∧ above.revertReason = none))
        (frames [] tree) decoded ∧
      extractErc20TransferCalls tokenAddress receiptsByTx decoded = .ok calls ∧
      calls = ((frames [] tree).filter (observed tokenAddress receiptsByTx)).map
        (frameTokenCall sha256 libs tokenAddress) ∧
      (calls.map TraceTokenCall.traceAddress).Pairwise (· < ·) ∧
      ∀ frame, frame ∈ frames [] tree ↔ Below tree frame.ancestors frame.node := by
  have readable : ∀ frame ∈ frames [] tree, Readable frame.node.inputData :=
    fun frame member => (hex frame member).readable
  refine ⟨_, _, decodeTraceCalls_empty sha256 libs typed tree readable, ?_,
    extract_frames sha256 libs tokenAddress receiptsByTx address typed _ readable, rfl, ?_,
    mem_frames_iff tree⟩
  · rw [List.forall₂_map_right_iff, List.forall₂_same]
    intro frame _
    refine ⟨rfl, rfl, ?_⟩
    simp [frameCall, allSucceeded, RawTrace.succeeded]
  · rw [List.map_map, List.pairwise_map]
    exact (frames_sorted tree assigned).sublist List.filter_sublist

/-! ### A revert beside a transfer -/

theorem wordLibs_typed : TypedAbi Decode.wordLibs where
  transfer := fun data values decoded => by
    obtain ⟨recipient, amount, same⟩ := Decode.wordDecode_transfer data values decoded
    exact ⟨_, amount, same⟩
  transferFrom := fun data values decoded => by
    obtain ⟨sender, recipient, amount, same⟩ := Decode.wordDecode_transferFrom data values decoded
    exact ⟨_, _, amount, same⟩

def linkToken : String := "0x514910771af9ca656af840dff83e8264ecf986ca"

def callTo (fromAddr toAddr inputData : String) (error : Option String) (calls : List RawTrace) :
    RawTrace :=
  { chainId := 1
    blockNumber := 100
    txHash := "0xAB"
    type := "CALL"
    fromAddr := fromAddr
    toAddr := some toAddr
    value := 0
    gas := 0
    gasUsed := 0
    inputData := inputData
    output := "0x"
    error := error
    revertReason := none
    calls := calls
    traceAddress := [] }

def calldataOf (digits : List Char) : String := String.ofList ('0' :: 'x' :: digits)

def hexWord (digits : List Char) : List Char := List.replicate (64 - digits.length) '0' ++ digits

theorem hexInput_calldataOf (digits : List Char) (even : digits.length % 2 = 0)
    (hex : digits.all (fun c => (hexDigit? c).isSome) = true) : HexInput (calldataOf digits) := by
  have text : (calldataOf digits).toList = '0' :: 'x' :: digits := String.toList_ofList
  refine ⟨?_, ?_, ?_⟩
  · simp [startsWith, text]
  · rw [text, List.length_cons, List.length_cons]
    omega
  · rw [text]
    exact List.all_eq_true.mp hex

theorem rawDigits_calldataOf (digits : List Char) : rawDigits (calldataOf digits) = String.ofList digits := by
  have text : (calldataOf digits).toList = '0' :: 'x' :: digits := String.toList_ofList
  simp [rawDigits, startsWith, sliceFrom, text]

theorem extractMethodSelector_calldataOf (digits : List Char) (long : 8 ≤ digits.length) :
    extractMethodSelector (calldataOf digits) = "0x" ++ lower (String.ofList (digits.take 8)) := by
  have text : (calldataOf digits).toList = '0' :: 'x' :: digits := String.toList_ofList
  have notBare : ¬ (calldataOf digits = "" ∨ calldataOf digits = "0x" ∨ calldataOf digits = "0X") := by
    intro bare
    have short : (calldataOf digits).toList.length ≤ 2 := by
      rcases bare with same | same | same <;> rw [same] <;> decide
    rw [text, List.length_cons, List.length_cons] at short
    omega
  have notShort : ¬ digits.length < 8 := by omega
  rw [extractMethodSelector, if_neg notBare, rawDigits_calldataOf]
  simp [sliceTo, notShort]

theorem calldataBody_calldataOf (digits : List Char) (long : 8 ≤ digits.length) :
    calldataBody (calldataOf digits) = fromHex (digits.drop 8) := by
  simp [calldataBody, rawDigits_calldataOf, long]

def transferDigits : List Char :=
  "a9059cbb".toList ++ hexWord (List.replicate 40 'c') ++ hexWord ['7']

def transferSeven : String := calldataOf transferDigits

theorem argsOf_eq (node : RawTrace) (args : Option Erc20Transfer) (calldata : String)
    (input : node.inputData = calldata) (decoded : decodeErc20TransferCalldata libs calldata = .ok args) :
    argsOf libs node = args := by
  unfold argsOf
  rw [input, decoded]

def revertBesideTransfer : RawTrace :=
  assignTraceAddresses [] (callTo "0xaa" "0xb0" "0x" none
    [callTo "0xb0" "0xb1" "0x" (some "execution reverted")
      [callTo "0xb1" linkToken transferSeven none []],
    callTo "0xb0" linkToken transferSeven none []])

def successfulReceipt : Dict String Receipt := Dict.ofList [("0xab", { txHash := "0xab", status := 1 })]

theorem observed_callTo (inputData : String)
    (selector : isErc20Selector (extractMethodSelector inputData) = true) :
    observed linkToken successfulReceipt ⟨[], callTo "0xaa" linkToken inputData none []⟩ = true := by
  have receipt : (successfulReceipt.get? (lower "0xAB")).any (·.status = 1) = true := by
    have hash : lower "0xAB" = "0xab" := by decide
    rw [hash]
    decide
  unfold observed callTo
  rw [receipt, selector]
  rfl

theorem hexInput_revertBesideTransfer :
    ∀ frame ∈ frames [] revertBesideTransfer, HexInput frame.node.inputData := by
  have inputs : (frames [] revertBesideTransfer).map (·.node.inputData) =
      ["0x", "0x", transferSeven, transferSeven] := rfl
  have transfer : HexInput transferSeven := hexInput_calldataOf transferDigits (by decide +kernel) (by decide +kernel)
  have bare : HexInput "0x" := by decide
  have each : ∀ input ∈ (frames [] revertBesideTransfer).map (·.node.inputData), HexInput input := by
    rw [inputs]
    simp [bare, transfer]
  exact fun frame member => each _ (List.mem_map_of_mem member)

theorem ancestor_success_law_revert :
    ∃ decoded calls,
      decodeTraceCalls id Decode.wordLibs revertBesideTransfer AbiRegistry.empty = .ok decoded ∧
      List.Forall₂ (fun frame call =>
        call.rawTraceCallId = computeRawTraceCallId id frame.node.txHash frame.address ∧
        call.success = frame.node.succeeded ∧
        (call.parentSuccess = true ↔
          ∀ above ∈ frame.ancestors, above.error = none ∧ above.revertReason = none))
        (frames [] revertBesideTransfer) decoded ∧
      extractErc20TransferCalls linkToken successfulReceipt decoded = .ok calls ∧
      calls = ((frames [] revertBesideTransfer).filter (observed linkToken successfulReceipt)).map
        (frameTokenCall id Decode.wordLibs linkToken) ∧
      (calls.map TraceTokenCall.traceAddress).Pairwise (· < ·) ∧
      ∀ frame, frame ∈ frames [] revertBesideTransfer ↔
        Below revertBesideTransfer frame.ancestors frame.node :=
  ancestor_success_law id Decode.wordLibs linkToken successfulReceipt (by decide) wordLibs_typed
    revertBesideTransfer rfl hexInput_revertBesideTransfer

end EconomicLedger.Trace
