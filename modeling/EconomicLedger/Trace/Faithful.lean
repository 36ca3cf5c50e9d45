import EconomicLedger.Trace.Registered

/-!
# Token calls and the calldata they come from

A call is kept by the name of its method or by its selector, and what it moves is read from whatever
parameters its decoding left. Both are right when the calldata hold the arguments of the selector and
the registry, where it explains the call, names the method and its parameters accordingly.
-/

namespace EconomicLedger.Trace
open Model Text Fallible Decode

variable (sha256 : Digest) (libs : ExternalLibs)

/-- The arguments of a transfer selector, decoded from as many words as it has arguments. -/
def decodedArguments (node : RawTrace) : Option Erc20Transfer :=
  let selector := extractMethodSelector node.inputData
  let size := 32 * (erc20ArgumentTypes selector).length
  if isErc20Selector selector = true ∧ size ≤ (argumentBytes node).length then
    readArguments libs selector ((argumentBytes node).take size)
  else none

theorem argsOf_eq_decodedArguments (typed : TypedAbi libs) (node : RawTrace)
    (readable : Readable node.inputData) : argsOf libs node = decodedArguments libs node := by
  unfold decodedArguments
  cases erc20 : isErc20Selector (extractMethodSelector node.inputData) with
  | false =>
      rw [argsOf_otherSelector libs typed node readable erc20]
      simp [erc20]
  | true =>
      rw [argsOf_read libs typed node readable erc20]
      simp [erc20]

theorem decodedArguments_spec (spec : AbiSpec libs) (node : RawTrace) (args : Erc20Transfer)
    (decoded : decodedArguments libs node = some args) :
    FitsSelector (extractMethodSelector node.inputData) args ∧ lower args.toAddr = args.toAddr := by
  unfold decodedArguments at decoded
  simp only at decoded
  split_ifs at decoded with given
  refine ⟨(readArguments_spec libs spec _ _ given.1 args decoded).1, ?_⟩
  unfold readArguments at decoded
  split at decoded
  · cases decoded
    exact lower_lower _
  · cases decoded
    exact lower_lower _
  · cases decoded

/-! ## One frame -/

variable (registry : AbiRegistry) (tokenAddress : String) (receiptsByTx : Dict String Receipt)

/-- The number a token call reads from the parameters. -/
def amountParam (params : Dict String Value) : Py Int :=
  ((params.get? "amount").getD ((params.get? "value").getD (.int 0))).toInt

/-- The parameters hold the arguments under the names that a token call reads. -/
def Carries (params : Dict String Value) (args : Erc20Transfer) : Prop :=
  textParam params "to" = args.toAddr ∧ amountParam params = .ok args.amount

/-- The calldata hold the arguments of a transfer selector, and a method that the registry has for it
is named and parametrised accordingly. -/
def Trustworthy (node : RawTrace) : Prop :=
  ∃ args, decodedArguments libs node = some args ∧
    ∀ method, explanation libs registry node = some method → method.name ≠ some unknownMethod →
      method.name = some args.method.name ∧
        Carries (methodParams libs method (argumentBytes node)) args

/-- The call is of the selector's own method and moves what the arguments say. -/
structure FaithfulTo (node : RawTrace) (decoded : DecodedCall) (call : TraceTokenCall) : Prop where
  method : (decoded.methodSelector = erc20TransferSelector ∧ decoded.methodName = "transfer" ∧
      call.methodName = .transfer) ∨
    (decoded.methodSelector = erc20TransferFromSelector ∧ decoded.methodName = "transferFrom" ∧
      call.methodName = .transferFrom)
  arguments : ∃ args, decodedArguments libs node = some args ∧
    call.toAddr = args.toAddr ∧ call.amount = args.amount

theorem tokenCallOf_fields {decoded : DecodedCall} {call : TraceTokenCall}
    (returned : tokenCallOf tokenAddress decoded = .ok call) :
    call.methodName = (if decoded.methodSelector = erc20TransferSelector ∨
      decoded.methodName = "transfer" then .transfer else .transferFrom) ∧
    call.toAddr = textParam decoded.params "to" ∧ amountParam decoded.params = .ok call.amount := by
  rw [tokenCallOf, bind_eq_ok_iff] at returned
  obtain ⟨amount, read, rest⟩ := returned
  obtain rfl := (pure_eq_ok_iff _ _).mp rest
  exact ⟨rfl, rfl, read⟩

theorem faithfulTo_iff (spec : AbiSpec libs) (node : RawTrace) (decoded : DecodedCall)
    (selector : decoded.methodSelector = extractMethodSelector node.inputData) (call : TraceTokenCall)
    (returned : tokenCallOf tokenAddress decoded = .ok call) :
    FaithfulTo libs node decoded call ↔ ∃ args, decodedArguments libs node = some args ∧
      decoded.methodName = args.method.name ∧ Carries decoded.params args := by
  obtain ⟨method, toAddr, amount⟩ := tokenCallOf_fields tokenAddress returned
  have apart : erc20TransferFromSelector ≠ erc20TransferSelector := by decide
  constructor
  · rintro ⟨named, args, arguments, sameTo, sameAmount⟩
    refine ⟨args, arguments, ?_, toAddr.symm.trans sameTo, sameAmount ▸ amount⟩
    rw [selector] at named
    rcases (decodedArguments_spec libs spec node args arguments).1 with ⟨own, kind, -⟩ | ⟨own, kind, -⟩
    · rcases named with ⟨-, name, -⟩ | ⟨other, -, -⟩
      · rw [name, kind]
        rfl
      · exact absurd (other.symm.trans own) apart
    · rcases named with ⟨other, -, -⟩ | ⟨-, name, -⟩
      · exact absurd (own.symm.trans other) apart
      · rw [name, kind]
        rfl
  · rintro ⟨args, arguments, name, sameTo, sameAmount⟩
    refine ⟨?_, args, arguments, toAddr.trans sameTo, Except.ok.inj (amount.symm.trans sameAmount)⟩
    rw [method, name, selector]
    rcases (decodedArguments_spec libs spec node args arguments).1 with ⟨own, kind, -⟩ | ⟨own, kind, -⟩
    · exact Or.inl ⟨own, by rw [kind]; rfl, if_pos (Or.inl own)⟩
    · refine Or.inr ⟨own, by rw [kind]; rfl, if_neg ?_⟩
      rw [own, kind, not_or]
      exact ⟨apart, by decide⟩

theorem carries_params (spec : AbiSpec libs) (node : RawTrace) (args : Erc20Transfer)
    (arguments : decodedArguments libs node = some args) : Carries args.params args := by
  obtain ⟨amount, toAddr, -⟩ := params_get args
  have lowered := (decodedArguments_spec libs spec node args arguments).2
  exact ⟨by rw [textParam, toAddr]; exact lowered, by rw [amountParam, amount]; rfl⟩

/-- The method and the parameters that a node is decoded with. -/
def methodUsed (node : RawTrace) : String × Dict String Value :=
  let explained := explainedMethod libs registry node
  if explained.1 = unknownMethod then
    ((decodedArguments libs node).map fun args => (args.method.name, args.params)).getD explained
  else explained

theorem methodOf_used (spec : AbiSpec libs) (node : RawTrace) (readable : Readable node.inputData) :
    methodOf libs registry node = .ok (methodUsed libs registry node) := by
  rw [methodOf_eq libs registry spec node readable,
    argsOf_eq_decodedArguments libs (typedAbi_of_spec spec) node readable]
  rfl

theorem explanation_name {node : RawTrace} {method : AbiEntry}
    (explained : explanation libs registry node = some method) : ∃ name, method.name = some name := by
  unfold explanation at explained
  split at explained
  · cases explained
  · split at explained
    · cases explained
    · obtain ⟨name, -, named, -⟩ := findMethodBySelector_some libs explained
      exact ⟨name, named⟩

theorem trustworthy_iff (spec : AbiSpec libs) (node : RawTrace) :
    (∃ args, decodedArguments libs node = some args ∧
      (methodUsed libs registry node).1 = args.method.name ∧
      Carries (methodUsed libs registry node).2 args) ↔ Trustworthy libs registry node := by
  apply exists_congr
  intro args
  apply and_congr_right
  intro arguments
  have carries := carries_params libs spec node args arguments
  cases explained : explanation libs registry node with
  | none =>
      have used : methodUsed libs registry node = (args.method.name, args.params) := by
        simp [methodUsed, explainedMethod, explained, arguments]
      rw [used]
      exact iff_of_true ⟨rfl, carries⟩ fun method none => by cases none
  | some method =>
      obtain ⟨name, named⟩ := explanation_name libs registry explained
      have own : explainedMethod libs registry node =
          (name, methodParams libs method (argumentBytes node)) := by
        simp [explainedMethod, explained, named]
      by_cases unknown : name = unknownMethod
      · have used : methodUsed libs registry node = (args.method.name, args.params) := by
          simp [methodUsed, own, unknown, arguments]
        rw [used]
        refine iff_of_true ⟨rfl, carries⟩ fun method' same known => ?_
        cases same
        exact absurd (unknown ▸ named) known
      · have used : methodUsed libs registry node =
            (name, methodParams libs method (argumentBytes node)) := by
          simp [methodUsed, own, unknown]
        rw [used]
        dsimp only
        constructor
        · rintro ⟨same, reads⟩ method' equal -
          cases equal
          exact ⟨same ▸ named, reads⟩
        · intro trusted
          have known : method.name ≠ some unknownMethod := by
            rw [named]
            exact fun same => unknown (Option.some.inj same)
          obtain ⟨same, reads⟩ := trusted method rfl known
          exact ⟨Option.some.inj (named.symm.trans same), reads⟩

/-! ## What goes wrong with a call -/

/-- The name of the method of a transfer selector. -/
def ownName (selector : String) : String :=
  if selector = erc20TransferSelector then "transfer" else "transferFrom"

/-- The ways in which the calldata of a node, or the function that the registry has for its selector, spoil a
token call. -/
inductive Spoiled (node : RawTrace) : Prop
  /-- Another selector, whose function is called like a transfer. -/
  | borrowed (method : AbiEntry) (explained : explanation libs registry node = some method)
      (other : isErc20Selector (extractMethodSelector node.inputData) = false)
      (named : method.name = some "transfer" ∨ method.name = some "transferFrom")
  /-- Too few bytes for the arguments. -/
  | short (erc20 : isErc20Selector (extractMethodSelector node.inputData) = true)
      (few : (argumentBytes node).length <
        32 * (erc20ArgumentTypes (extractMethodSelector node.inputData)).length)
  /-- The words of the arguments do not decode. -/
  | dirty (erc20 : isErc20Selector (extractMethodSelector node.inputData) = true) (failure : String)
      (refused : libs.abiDecode (erc20ArgumentTypes (extractMethodSelector node.inputData))
        ((argumentBytes node).take
          (32 * (erc20ArgumentTypes (extractMethodSelector node.inputData)).length)) = .error failure)
  /-- The function has another name. -/
  | renamed (method : AbiEntry) (explained : explanation libs registry node = some method)
      (known : method.name ≠ some unknownMethod)
      (erc20 : isErc20Selector (extractMethodSelector node.inputData) = true)
      (other : method.name ≠ some (ownName (extractMethodSelector node.inputData)))
  /-- `decode_calldata` reads whole words only. -/
  | ragged (method : AbiEntry) (explained : explanation libs registry node = some method)
      (known : method.name ≠ some unknownMethod)
      (erc20 : isErc20Selector (extractMethodSelector node.inputData) = true)
      (parts : ¬ WholeWords node)
  /-- The inputs that the function calls `to` and `amount`, or `value`, are not the arguments. -/
  | misplaced (method : AbiEntry) (explained : explanation libs registry node = some method)
      (known : method.name ≠ some unknownMethod) (args : Erc20Transfer)
      (arguments : decodedArguments libs node = some args)
      (other : ¬ Carries (methodParams libs method (argumentBytes node)) args)

theorem ownName_of_arguments (spec : AbiSpec libs) {node : RawTrace} {args : Erc20Transfer}
    (arguments : decodedArguments libs node = some args) :
    args.method.name = ownName (extractMethodSelector node.inputData) := by
  have apart : erc20TransferFromSelector ≠ erc20TransferSelector := by decide
  rcases (decodedArguments_spec libs spec node args arguments).1 with ⟨own, kind, -⟩ | ⟨own, kind, -⟩
  · rw [ownName, own, kind, if_pos rfl]
    rfl
  · rw [ownName, own, kind, if_neg apart]
    rfl

theorem erc20_of_arguments {node : RawTrace} {args : Erc20Transfer}
    (arguments : decodedArguments libs node = some args) :
    isErc20Selector (extractMethodSelector node.inputData) = true := by
  unfold decodedArguments at arguments
  simp only at arguments
  split_ifs at arguments with given
  exact given.1

theorem recipient_of_arguments (spec : AbiSpec libs) {node : RawTrace} {args : Erc20Transfer}
    (arguments : decodedArguments libs node = some args) : args.toAddr ≠ "" := by
  have erc20 := erc20_of_arguments libs arguments
  unfold decodedArguments at arguments
  simp only at arguments
  split_ifs at arguments
  exact (readArguments_spec libs spec _ _ erc20 args arguments).2

/-- The arguments are missing or do not decode. -/
theorem decodedArguments_none_iff (spec : AbiSpec libs) (node : RawTrace)
    (erc20 : isErc20Selector (extractMethodSelector node.inputData) = true) :
    decodedArguments libs node = none ↔
      (argumentBytes node).length <
        32 * (erc20ArgumentTypes (extractMethodSelector node.inputData)).length ∨
      ∃ failure, libs.abiDecode (erc20ArgumentTypes (extractMethodSelector node.inputData))
        ((argumentBytes node).take
          (32 * (erc20ArgumentTypes (extractMethodSelector node.inputData)).length)) = .error failure := by
  have either := erc20
  simp only [isErc20Selector, Bool.or_eq_true, decide_eq_true_eq] at either
  unfold decodedArguments
  simp only [erc20, true_and]
  by_cases long : 32 * (erc20ArgumentTypes (extractMethodSelector node.inputData)).length ≤
      (argumentBytes node).length
  · rw [if_pos long, or_iff_right (not_lt.mpr long)]
    generalize (argumentBytes node).take _ = data
    unfold readArguments
    rcases either with selector | selector
    · have types : erc20ArgumentTypes erc20TransferSelector = ["address", "uint256"] := rfl
      rw [selector, types]
      cases decoded : libs.abiDecode ["address", "uint256"] data with
      | error failure => simp
      | ok values =>
          obtain ⟨recipient, amount, rfl, -⟩ := values_transfer spec _ _ decoded
          simp
    · have types : erc20ArgumentTypes erc20TransferFromSelector = ["address", "address", "uint256"] := rfl
      rw [selector, types]
      cases decoded : libs.abiDecode ["address", "address", "uint256"] data with
      | error failure => simp
      | ok values =>
          obtain ⟨sender, recipient, amount, rfl, -⟩ := values_transferFrom spec _ _ decoded
          simp
  · rw [if_neg long]
    exact iff_of_true rfl (Or.inl (not_le.mp long))

theorem wholeWords_of_carries (spec : AbiSpec libs) {node : RawTrace} {args : Erc20Transfer}
    (arguments : decodedArguments libs node = some args) {method : AbiEntry}
    (carries : Carries (methodParams libs method (argumentBytes node)) args) : WholeWords node := by
  by_contra ragged
  have nothing : methodParams libs method (argumentBytes node) = Dict.empty := if_pos ragged
  have recipient := carries.1
  rw [nothing] at recipient
  exact recipient_of_arguments libs spec arguments recipient.symm

/-- An ERC-20 selector or a function called like a transfer. -/
def taken (node : RawTrace) : Bool :=
  isErc20Selector (extractMethodSelector node.inputData) ||
    (explanation libs registry node).any fun method =>
      method.name = some "transfer" || method.name = some "transferFrom"

theorem trustworthy_iff_unspoiled (spec : AbiSpec libs) (node : RawTrace) :
    (taken libs registry node = true → Trustworthy libs registry node) ↔ ¬ Spoiled libs registry node := by
  constructor
  · intro trusted spoiled
    cases spoiled with
    | borrowed method explained other named =>
        have isTaken : taken libs registry node = true := by
          rcases named with named | named <;> simp [taken, explained, named]
        obtain ⟨args, arguments, -⟩ := trusted isTaken
        exact absurd (erc20_of_arguments libs arguments) (by simp [other])
    | short erc20 few =>
        obtain ⟨args, arguments, -⟩ := trusted (by simp [taken, erc20])
        have none := (decodedArguments_none_iff libs spec node erc20).mpr (Or.inl few)
        cases none.symm.trans arguments
    | dirty erc20 failure refused =>
        obtain ⟨args, arguments, -⟩ := trusted (by simp [taken, erc20])
        have none := (decodedArguments_none_iff libs spec node erc20).mpr (Or.inr ⟨failure, refused⟩)
        cases none.symm.trans arguments
    | renamed method explained known erc20 other =>
        obtain ⟨args, arguments, own⟩ := trusted (by simp [taken, erc20])
        have named := (own method explained known).1
        exact other (ownName_of_arguments libs spec arguments ▸ named)
    | ragged method explained known erc20 parts =>
        obtain ⟨args, arguments, own⟩ := trusted (by simp [taken, erc20])
        exact parts (wholeWords_of_carries libs spec arguments (own method explained known).2)
    | misplaced method explained known args arguments other =>
        obtain ⟨args', arguments', own⟩ := trusted (by simp [taken, erc20_of_arguments libs arguments])
        obtain rfl : args' = args := Option.some.inj (arguments'.symm.trans arguments)
        exact other (own method explained known).2
  · intro sound isTaken
    cases erc20 : isErc20Selector (extractMethodSelector node.inputData) with
    | false =>
        rw [taken, erc20, Bool.false_or, Option.any_eq_true] at isTaken
        obtain ⟨method, explained, named⟩ := isTaken
        rw [Bool.or_eq_true, decide_eq_true_eq, decide_eq_true_eq] at named
        exact absurd (Spoiled.borrowed method explained erc20 named) sound
    | true =>
        cases arguments : decodedArguments libs node with
        | none =>
            rcases (decodedArguments_none_iff libs spec node erc20).mp arguments with few | ⟨failure, refused⟩
            · exact absurd (Spoiled.short erc20 few) sound
            · exact absurd (Spoiled.dirty erc20 failure refused) sound
        | some args =>
            refine ⟨args, arguments, fun method explained known => ⟨?_, ?_⟩⟩
            · rw [ownName_of_arguments libs spec arguments]
              by_contra other
              exact sound (.renamed method explained known erc20 other)
            · by_contra other
              exact sound (.misplaced method explained known args arguments other)

/-! ## The calls of a tree -/

/-- A successful call of the token below successful calls, in a transaction whose receipt has status 1. -/
def settled (frame : Frame) : Bool :=
  frame.node.toAddr.any (fun addr => addr ≠ "" && lower addr = lower tokenAddress) &&
  (frame.node.succeeded && allSucceeded frame.ancestors) &&
  (receiptsByTx.get? (lower frame.node.txHash)).any (·.status = 1)

/-- The call is read off the decoding of the frame. -/
def ComesFrom (frame : Frame) (call : TraceTokenCall) : Prop :=
  ∃ decoded, decodeFrame sha256 libs registry frame = .ok decoded ∧
    tokenCallOf tokenAddress decoded = .ok call

def FaithfulCall (frame : Frame) (call : TraceTokenCall) : Prop :=
  ∃ decoded, decodeFrame sha256 libs registry frame = .ok decoded ∧
    FaithfulTo libs frame.node decoded call

theorem decodeFrame_fields (spec : AbiSpec libs) {frame : Frame} {decoded : DecodedCall}
    (own : decodeFrame sha256 libs registry frame = .ok decoded) :
    decoded = { frameCall sha256 libs frame with
      methodName := (methodUsed libs registry frame.node).1
      params := (methodUsed libs registry frame.node).2 } := by
  have method := methodOf_used libs registry spec frame.node (readable_of_decodeFrame sha256 own)
  have fields := decodeFrame_of_method sha256 libs registry frame (methodUsed libs registry frame.node).1
    (methodUsed libs registry frame.node).2 method
  exact Except.ok.inj (own.symm.trans fields)

theorem taken_iff (node : RawTrace) :
    ((methodUsed libs registry node).1 = "transfer" || (methodUsed libs registry node).1 = "transferFrom" ||
      isErc20Selector (extractMethodSelector node.inputData)) = taken libs registry node := by
  cases erc20 : isErc20Selector (extractMethodSelector node.inputData) with
  | true => simp [taken, erc20]
  | false =>
      have noArguments : decodedArguments libs node = none := by
        unfold decodedArguments
        simp [erc20]
      have used : methodUsed libs registry node = explainedMethod libs registry node := by
        simp [methodUsed, noArguments]
      rw [used, taken, erc20, Bool.or_false, Bool.false_or, explainedMethod]
      cases explained : explanation libs registry node with
      | none => simp [unknownMethod]
      | some method =>
          obtain ⟨name, named⟩ := explanation_name libs registry explained
          simp [named]

theorem isTokenCall_settled (spec : AbiSpec libs) {frame : Frame} {decoded : DecodedCall}
    (own : decodeFrame sha256 libs registry frame = .ok decoded) :
    isTokenCall tokenAddress receiptsByTx decoded =
      (settled tokenAddress receiptsByTx frame && taken libs registry frame.node) := by
  rw [decodeFrame_fields sha256 libs registry spec own, isTokenCall, ← taken_iff]
  have callee : (frame.node.toAddr.bind fun addr => if addr = "" then none else some (lower addr)).any
      (fun addr => lower addr = lower tokenAddress) =
        frame.node.toAddr.any fun addr => addr ≠ "" && lower addr = lower tokenAddress := by
    cases frame.node.toAddr with
    | none => rfl
    | some addr => by_cases blank : addr = "" <;> simp [blank]
  simp only [frameCall, callee, settled, lower_lower]
  ac_rfl

theorem extract_comesFrom (spec : AbiSpec libs) {fs : List Frame} {decoded : List DecodedCall}
    {calls : List TraceTokenCall}
    (each : List.Forall₂ (fun frame call => decodeFrame sha256 libs registry frame = .ok call) fs decoded)
    (returned : extractErc20TransferCalls tokenAddress receiptsByTx decoded = .ok calls) :
    List.Forall₂ (ComesFrom sha256 libs registry tokenAddress)
      (fs.filter fun frame => settled tokenAddress receiptsByTx frame && taken libs registry frame.node)
      calls := by
  induction each generalizing calls with
  | nil =>
      cases returned
      exact .nil
  | @cons frame first fs rest own _ ih =>
      have kept := isTokenCall_settled sha256 libs registry tokenAddress receiptsByTx spec own
      rw [extractErc20TransferCalls] at returned
      rw [List.filter_cons, ← kept]
      split_ifs at returned ⊢ with isCall
      · obtain ⟨call, read, returned⟩ := (bind_eq_ok_iff _ _ _).mp returned
        obtain ⟨others, extracted, returned⟩ := (bind_eq_ok_iff _ _ _).mp returned
        obtain rfl := (pure_eq_ok_iff _ _).mp returned
        exact .cons ⟨first, own, read⟩ (ih extracted)
      · exact ih returned

theorem faithfulCall_iff (spec : AbiSpec libs) (frame : Frame) (call : TraceTokenCall)
    (comesFrom : ComesFrom sha256 libs registry tokenAddress frame call) :
    FaithfulCall sha256 libs registry frame call ↔ Trustworthy libs registry frame.node := by
  obtain ⟨decoded, own, read⟩ := comesFrom
  have fields := decodeFrame_fields sha256 libs registry spec own
  have selector : decoded.methodSelector = extractMethodSelector frame.node.inputData := by rw [fields]; rfl
  have methodName : decoded.methodName = (methodUsed libs registry frame.node).1 := by rw [fields]
  have params : decoded.params = (methodUsed libs registry frame.node).2 := by rw [fields]
  have faithful := faithfulTo_iff libs tokenAddress spec frame.node decoded selector call read
  rw [methodName, params, trustworthy_iff libs registry spec frame.node] at faithful
  simp only [FaithfulCall, own, Except.ok.injEq, exists_eq_left', faithful]

/-- The emitted calls are those of the settled frames that are taken for transfers, and all are faithful exactly
when no settled frame is spoiled. -/
theorem extracted_calls_faithful_iff (spec : AbiSpec libs) (tree : RawTrace) (calls : List TraceTokenCall)
    (returned : tokenCallsOf sha256 libs registry tokenAddress receiptsByTx tree = .ok calls) :
    let settledFrames := (frames [] tree).filter (settled tokenAddress receiptsByTx)
    let emitted := settledFrames.filter fun frame => taken libs registry frame.node
    List.Forall₂ (ComesFrom sha256 libs registry tokenAddress) emitted calls ∧
      (List.Forall₂ (FaithfulCall sha256 libs registry) emitted calls ↔
        ∀ frame ∈ settledFrames, ¬ Spoiled libs registry frame.node) := by
  intro settledFrames emitted
  obtain ⟨decoded, walked, extracted⟩ := (bind_eq_ok_iff _ _ _).mp returned
  rw [decodeTraceCalls_eq, mapM_eq_ok_iff] at walked
  have comesFrom := extract_comesFrom sha256 libs registry tokenAddress receiptsByTx spec walked extracted
  have same : (frames [] tree).filter (fun frame =>
      settled tokenAddress receiptsByTx frame && taken libs registry frame.node) = emitted := by
    refine Eq.trans ?_ List.filter_filter.symm
    exact List.filter_congr fun frame _ => Bool.and_comm _ _
  rw [same] at comesFrom
  refine ⟨comesFrom, ?_⟩
  rw [forall₂_iff_left comesFrom fun frame call =>
    faithfulCall_iff sha256 libs registry tokenAddress spec frame call, List.forall_mem_filter]
  exact forall₂_congr fun frame _ => trustworthy_iff_unspoiled libs registry spec frame.node

/-- Whole words that decode are read alike under the ABI of LINK. -/
theorem unspoiled_registered (spec : AbiSpec libs) {node : RawTrace} {addr : String}
    (callee : node.toAddr = some addr) (isToken : lower addr = lower tokenAddress)
    (registers : Registers libs registry tokenAddress node.blockNumber) (readable : Readable node.inputData)
    {args : Erc20Transfer} (arguments : decodedArguments libs node = some args) (whole : WholeWords node) :
    ¬ Spoiled libs registry node := by
  have erc20 := erc20_of_arguments libs arguments
  obtain ⟨abi, link, explained⟩ := explanation_token libs registry tokenAddress callee isToken registers
  rw [findMethodBySelector_link libs link _ erc20] at explained
  have direct := (argsOf_eq_decodedArguments libs (typedAbi_of_spec spec) node readable).trans arguments
  have registered := registeredArgs_of_argsOf libs spec node readable erc20 args direct
  have params : methodParams libs (linkEntry (extractMethodSelector node.inputData)) (argumentBytes node) =
      linkParams args := by
    rw [methodParams_link libs spec node erc20, registered, if_pos whole]
    rfl
  refine (trustworthy_iff_unspoiled libs registry spec node).mp fun _ => ⟨args, arguments, ?_⟩
  intro method own _
  obtain rfl : linkEntry (extractMethodSelector node.inputData) = method :=
    Option.some.inj (explained.symm.trans own)
  obtain ⟨amount, value, toAddr, -⟩ := linkParams_get args
  refine ⟨?_, ?_, ?_⟩
  · rw [ownName_of_arguments libs spec arguments, ownName, linkEntry]
    split_ifs <;> rfl
  · rw [params, textParam, toAddr]
    exact (decodedArguments_spec libs spec node args arguments).2
  · rw [params, amountParam, amount, value]
    rfl

/-! ### A selector without arguments, and one with -/

theorem settled_tokenCall (inputData : String) :
    (frames [] (tokenCall inputData)).filter (settled linkToken successfulReceipt) =
      [⟨[], tokenCall inputData⟩] := by
  have here : settled linkToken successfulReceipt ⟨[], tokenCall ""⟩ = true := by decide
  rw [frames_tokenCall]
  exact List.filter_cons_of_pos here

theorem unspoiled_seven : ¬ Spoiled transferLibs linkRegistry (tokenCall transferSeven) := by
  have spec : AbiSpec transferLibs := wordDecode_spec transferDigest
  have readable : Readable transferSeven :=
    (hexInput_calldataOf transferDigits (by decide +kernel) (by decide +kernel)).readable
  have selector : extractMethodSelector transferSeven = erc20TransferSelector :=
    (extractMethodSelector_calldataOf transferDigits (by decide +kernel)).trans (by decide +kernel)
  have body : calldataBody transferSeven = fromHex (transferDigits.drop 8) :=
    calldataBody_calldataOf transferDigits (by decide +kernel)
  have direct : argsOf transferLibs (tokenCall transferSeven) =
      some ⟨.transfer, none, "0xcccccccccccccccccccccccccccccccccccccccc", 7⟩ := by
    refine argsOf_eq transferLibs (tokenCall transferSeven) _ transferSeven rfl ?_
    rw [decodeErc20TransferCalldata, selector, body]
    decide +kernel
  have whole : WholeWords (tokenCall transferSeven) := by
    have bytes : argumentBytes (tokenCall transferSeven) = results (fromHex (transferDigits.drop 8)) :=
      congrArg results body
    rw [WholeWords, bytes]
    decide +kernel
  have arguments := (argsOf_eq_decodedArguments transferLibs (typedAbi_of_spec spec) (tokenCall transferSeven)
    readable).symm.trans direct
  exact unspoiled_registered transferLibs linkRegistry linkToken spec rfl rfl linkRegistry_registers readable
    arguments whole

theorem extracted_calls_faithful_seven :
    ∃ calls, tokenCallsOf id transferLibs linkRegistry linkToken successfulReceipt
        (tokenCall transferSeven) = .ok calls ∧
      (∀ frame ∈ (frames [] (tokenCall transferSeven)).filter (settled linkToken successfulReceipt),
        ¬ Spoiled transferLibs linkRegistry frame.node) ∧
      List.Forall₂ (FaithfulCall id transferLibs linkRegistry)
        (((frames [] (tokenCall transferSeven)).filter (settled linkToken successfulReceipt)).filter
          fun frame => taken transferLibs linkRegistry frame.node) calls := by
  have hex : HexInput transferSeven :=
    hexInput_calldataOf transferDigits (by decide +kernel) (by decide +kernel)
  have returned := tokenCallsOf_registered id transferLibs linkRegistry linkToken successfulReceipt
    (wordDecode_spec transferDigest) (by decide) _ (readable_tokenCall transferSeven hex)
    (registers_tokenCall transferSeven)
  have unspoiled : ∀ frame ∈ (frames [] (tokenCall transferSeven)).filter
      (settled linkToken successfulReceipt), ¬ Spoiled transferLibs linkRegistry frame.node := by
    rw [settled_tokenCall]
    exact List.forall_mem_singleton.mpr unspoiled_seven
  exact ⟨_, returned, unspoiled, (extracted_calls_faithful_iff id transferLibs linkRegistry linkToken
    successfulReceipt (wordDecode_spec transferDigest) (tokenCall transferSeven) _ returned).2.mpr unspoiled⟩

def bareDigits : List Char := "a9059cbb".toList

/-- `transfer` with its arguments missing. -/
def bareTransfer : String := calldataOf bareDigits

theorem argumentBytes_bare : argumentBytes (tokenCall bareTransfer) = [] := by
  have body : calldataBody bareTransfer = .ok [] := calldataBody_calldataOf bareDigits (by decide)
  exact congrArg results body

theorem decodedArguments_bare : decodedArguments transferLibs (tokenCall bareTransfer) = none := by
  have selector : extractMethodSelector (tokenCall bareTransfer).inputData = erc20TransferSelector :=
    (extractMethodSelector_calldataOf bareDigits (by decide)).trans (by decide)
  unfold decodedArguments
  simp only [argumentBytes_bare, selector]
  rfl

/-- The call is emitted as a transfer of nothing to nobody. -/
theorem bare_transfer_emitted :
    ∃ call, tokenCallsOf id transferLibs AbiRegistry.empty linkToken successfulReceipt
        (tokenCall bareTransfer) = .ok [call] ∧
      (call.toAddr, call.amount) = ("", 0) ∧
      ¬ FaithfulCall id transferLibs AbiRegistry.empty ⟨[], tokenCall bareTransfer⟩ call := by
  have hex : HexInput bareTransfer := hexInput_calldataOf bareDigits (by decide) (by decide)
  have isObserved := observed_callTo bareTransfer (by decide)
  have args : argsOf transferLibs (tokenCall bareTransfer) = none :=
    (argsOf_eq_decodedArguments transferLibs (typedAbi_of_spec (wordDecode_spec transferDigest))
      (tokenCall bareTransfer) hex.readable).trans decodedArguments_bare
  have observedFrames : (frames [] (tokenCall bareTransfer)).filter
      (observed linkToken successfulReceipt) = [⟨[], tokenCall bareTransfer⟩] := by
    rw [frames_tokenCall]
    exact List.filter_cons_of_pos isObserved
  refine ⟨frameTokenCall id transferLibs linkToken ⟨[], tokenCall bareTransfer⟩, ?_, ?_, ?_⟩
  · rw [tokenCallsOf_tokenCall bareTransfer hex, observedFrames, List.map_singleton]
  · rw [frameTokenCall, args]
    rfl
  · rintro ⟨decoded, -, -, arguments, some, -⟩
    rw [decodedArguments_bare] at some
    cases some

end EconomicLedger.Trace
