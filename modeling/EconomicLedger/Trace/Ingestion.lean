import EconomicLedger.Model.CallTracer
import EconomicLedger.Trace.AncestorSuccess
import EconomicLedger.Trace.RoundTrip

/-!
# The two ingestion paths

The rebuilt tree simulates the directly converted one: a frame below a failed frame fails in the
former and has a failed ancestor in the latter, and nothing else that the extraction reads differs.
-/

namespace EconomicLedger.Trace
open Model Text Fallible

/-! ## `callTracer` nodes -/

def TextOrMissing (value : Option Value) : Prop :=
  value = none ∨ value = some .none ∨ ∃ s, value = some (.str s)

/-- The keys of a node have the types the tracer gives them, and only a failed node has a revert
reason. -/
structure TracerFields (fields : Dict String Value) : Prop where
  type : TextOrMissing (fields.get? "type")
  sender : TextOrMissing (fields.get? "from")
  callee : TextOrMissing (fields.get? "to")
  input : fields.get? "input" = none ∨ ∃ s, fields.get? "input" = some (.str s)
  reverted : (nodeField fields "error" .none).isNone = true →
    (nodeField fields "revertReason" .none).isNone = true

inductive CallTracerTree : CallTracerNode → Prop
  | node {fields : Dict String Value} {calls : Option (List CallTracerNode)}
      (own : TracerFields fields) (below : ∀ child ∈ calls.getD [], CallTracerTree child) :
      CallTracerTree (.node fields calls)

theorem TextOrMissing.lowered {value : Option Value} (text : TextOrMissing value) (s : String) :
    ∃ t, ((value.getD .none).orElse (.str s)).lowered = .ok t := by
  rcases text with rfl | rfl | ⟨t, rfl⟩
  · exact ⟨lower s, rfl⟩
  · exact ⟨lower s, rfl⟩
  · by_cases empty : t = "" <;> simp [Value.orElse, Value.truthy, empty, Value.lowered]

def nodeToAddr (fields : Dict String Value) : Option String :=
  if (nodeField fields "to" .none).truthy then some (lower (nodeField fields "to" .none).text) else none

theorem toAddressColumn_eq {fields : Dict String Value} (callee : TextOrMissing (fields.get? "to")) :
    toAddressColumn fields = .ok (((nodeToAddr fields).map Value.str).getD .none) := by
  unfold toAddressColumn nodeToAddr nodeField
  rcases callee with same | same | ⟨s, same⟩ <;> rw [same]
  · rfl
  · rfl
  · by_cases empty : s = ""
    · rw [empty]
      rfl
    · simp [Value.truthy, empty, Value.orElse, Value.lowered, Value.text, Except.map]

/-! ## One frame -/

/-- A rebuilt frame reads like the direct one; below a failed frame it fails. -/
structure SameFrame (failed : Bool) (direct rebuilt : RawTrace) : Prop where
  chainId : rebuilt.chainId = direct.chainId
  blockNumber : rebuilt.blockNumber = direct.blockNumber
  txHash : rebuilt.txHash = lower direct.txHash
  toAddr : rebuilt.toAddr = direct.toAddr
  calldata : rebuilt.calldata = direct.calldata
  traceAddress : rebuilt.traceAddress = direct.traceAddress
  succeeded : rebuilt.succeeded = (direct.succeeded && !failed)

def flatColumns (fields : Dict String Value) (txHash callType fromAddress : String)
    (blockNumber chainId value gas gasUsed : Int) (subtraces : Nat) (addr : List Int)
    (failed : Bool) : List (String × Value) := [
  ("transaction_hash", .str txHash),
  ("block_number", .int blockNumber),
  ("chain_id", .int chainId),
  ("trace_address", .str (serializeTraceAddress addr)),
  ("call_type", .str callType),
  ("from_address", .str fromAddress),
  ("to_address", ((nodeToAddr fields).map Value.str).getD .none),
  ("value", .int value),
  ("gas", .int gas),
  ("gas_used", .int gasUsed),
  ("input", nodeField fields "input" (.str "0x")),
  ("output", nodeField fields "output" (.str "0x")),
  ("error", nodeField fields "error" .none),
  ("status", .int (if (nodeField fields "error" .none).truthy || failed then 0 else 1)),
  ("subtraces", .int subtraces)]

theorem flatColumns_get (fields : Dict String Value) (txHash callType fromAddress : String)
    (blockNumber chainId value gas gasUsed : Int) (subtraces : Nat) (addr : List Int)
    (failed : Bool) (key : String) :
    (Dict.ofList (flatColumns fields txHash callType fromAddress blockNumber chainId value gas gasUsed
        subtraces addr failed)).get? key =
      ((flatColumns fields txHash callType fromAddress blockNumber chainId value gas gasUsed subtraces
        addr failed).find? (·.1 = key)).map Prod.snd :=
  Dict.get?_ofList _ (by simp [flatColumns]) key

/-- The error and revert reason of a rebuilt frame: a frame below a failed one counts as reverted. -/
def rebuiltFailure (error : Value) (failed : Bool) : Option String × Option String :=
  if error.isNone then if failed then (some "reverted", some "status=0") else (none, none)
  else (error.optionalText, error.optionalText)

def rebuiltFrame (fields : Dict String Value) (txHash callType fromAddress : String)
    (blockNumber chainId value gas gasUsed : Int) (addr : List Int) (failed : Bool) : RawTrace :=
  { chainId := chainId
    blockNumber := blockNumber
    txHash := lower ((Value.str txHash).orElse (.str "")).text
    type := upper ((((Value.str callType).orElse .none).orElse .none).orElse (.str "call")).text
    fromAddr := lower ((Value.str fromAddress).orElse (.str "")).text
    toAddr := nodeToAddr fields
    value := value
    gas := gas
    gasUsed := gasUsed
    inputData := (((nodeField fields "input" (.str "0x")).orElse .none).orElse (.str "0x")).text
    output := ((nodeField fields "output" (.str "0x")).orElse (.str "0x")).text
    error := (rebuiltFailure (nodeField fields "error" .none) failed).1
    revertReason := (rebuiltFailure (nodeField fields "error" .none) failed).2
    calls := []
    traceAddress := addr }

theorem optionalText_eq_none_iff (v : Value) : v.optionalText = none ↔ v.isNone = true := by
  cases v <;> simp [Value.optionalText, Value.isNone]

theorem rowFailure_eq (row : TraceRow) (error : Value) (failed : Bool)
    (errorColumn : row.field "error" = error)
    (status : row.field "status" = .int (if error.truthy || failed then 0 else 1)) :
    rowFailure row = .ok (rebuiltFailure error failed) := by
  unfold rowFailure rebuiltFailure
  simp only [errorColumn, status, optionalText_eq_none_iff]
  cases missing : error.isNone with
  | false => rfl
  | true =>
      have untrue : error.truthy = false := by
        cases error <;> simp_all [Value.isNone, Value.truthy]
      cases failed <;> simp [untrue, Value.isNone, Value.toInt, bind, Except.bind, pure, Except.pure]

theorem nodeToAddr_read (fields : Dict String Value) (callee : TextOrMissing (fields.get? "to")) :
    (if (((nodeToAddr fields).map Value.str).getD .none).truthy then
      some (lower (((nodeToAddr fields).map Value.str).getD .none).text) else none) =
      nodeToAddr fields := by
  unfold nodeToAddr nodeField
  rcases callee with same | same | ⟨s, same⟩ <;> rw [same]
  · rfl
  · rfl
  · by_cases empty : s = ""
    · rw [empty]
      rfl
    · simp [Value.truthy, empty, Value.text]

theorem flatColumns_row (fields : Dict String Value) (callee : TextOrMissing (fields.get? "to"))
    (txHash callType fromAddress : String)
    (blockNumber chainId value gas gasUsed : Int) (subtraces : Nat) (addr : List Int) (failed : Bool) :
    rowToRawTrace none (Dict.ofList (flatColumns fields txHash callType fromAddress blockNumber chainId
        value gas gasUsed subtraces addr failed)) =
      .ok (rebuiltFrame fields txHash callType fromAddress blockNumber chainId value gas gasUsed addr
        failed) := by
  have get := flatColumns_get fields txHash callType fromAddress blockNumber chainId value gas gasUsed
    subtraces addr failed
  generalize Dict.ofList (flatColumns fields txHash callType fromAddress blockNumber chainId value gas
    gasUsed subtraces addr failed) = row at get ⊢
  have failure := rowFailure_eq row (nodeField fields "error" .none) failed
    (by simp [TraceRow.field, get, flatColumns]) (by simp [TraceRow.field, get, flatColumns])
  simp only [rowToRawTrace, failure, rowChainId, rowToAddr, TraceRow.field, TraceRow.fieldOr, get,
    flatColumns, List.find?_cons, String.reduceEq, decide_false, decide_true, Option.map_some,
    Option.map_none, Option.getD_some, List.find?_nil, Option.getD_none, parse_serialize, ok_bind,
    valueColumn, Value.toInt]
  rw [show Value.none.truthy = false from rfl]
  simp only [Bool.false_eq_true, if_false, nodeToAddr_read fields callee]
  rfl

structure RowOf (fields : Dict String Value) (txHash : String) (addr : List Int) (failed : Bool)
    (row : TraceRow) (frame : RawTrace) : Prop where
  converted : ∃ t, rowToRawTrace none row = .ok t ∧ SameFrame failed frame t
  txHash : frame.txHash = txHash
  address : frame.traceAddress = addr
  leaf : frame.calls = []
  failedBelow : failedBelow fields failed = (failed || !frame.succeeded)

theorem flatRow_agree (fields : Dict String Value) (own : TracerFields fields) (subtraces : Nat)
    (txHash : String) (blockNumber chainId : Int) (addr : List Int) (failed : Bool) :
    Agree (RowOf fields txHash addr failed)
      (flatRow fields subtraces txHash blockNumber chainId addr failed)
      (traceDictFrame fields chainId txHash addr blockNumber) := by
  obtain ⟨callType, type⟩ := own.type.lowered "CALL"
  obtain ⟨fromAddress, sender⟩ := own.sender.lowered ""
  have row : flatRow fields subtraces txHash blockNumber chainId addr failed = (do
      let value ← hexField fields "value"
      let gas ← hexField fields "gas"
      let gasUsed ← hexField fields "gasUsed"
      return Dict.ofList (flatColumns fields txHash callType fromAddress blockNumber chainId value gas
        gasUsed subtraces addr failed)) := by
    have type' : ((nodeField fields "type" .none).orElse (.str "CALL")).lowered = .ok callType := type
    have sender' : ((nodeField fields "from" .none).orElse (.str "")).lowered = .ok fromAddress := sender
    unfold flatRow
    rw [type', sender', toAddressColumn_eq own.callee]
    rfl
  rw [row, traceDictFrame]
  refine Agree.bind (Agree.refl _) ?_
  rintro value _ rfl
  refine Agree.bind (Agree.refl _) ?_
  rintro gas _ rfl
  refine Agree.bind (Agree.refl _) ?_
  rintro gasUsed _ rfl
  have reverted := own.reverted
  refine ⟨⟨_, flatColumns_row fields own.callee txHash callType fromAddress blockNumber chainId value
    gas gasUsed subtraces addr failed, ⟨rfl, rfl, ?_, rfl, ?_, rfl, ?_⟩⟩, rfl, rfl, rfl, ?_⟩
  · by_cases empty : txHash = "" <;> simp [rebuiltFrame, Value.orElse, Value.truthy, empty, Value.text]
  · unfold RawTrace.calldata rebuiltFrame nodeField
    rcases own.input with same | ⟨s, same⟩ <;> simp only [same]
    · rfl
    · by_cases empty : s = "" <;> simp [Value.orElse, Value.truthy, empty, Value.text]
  · unfold RawTrace.succeeded rebuiltFrame rebuiltFailure
    simp only [optionalText_eq_none_iff]
    cases missing : (nodeField fields "error" .none).isNone with
    | false => simp [optionalText_eq_none_iff, missing]
    | true => cases failed <;> simp [reverted missing]
  · unfold failedBelow RawTrace.succeeded
    simp only [optionalText_eq_none_iff]
    cases missing : (nodeField fields "error" .none).isNone with
    | false => simp
    | true => simp [reverted missing]

/-! ## Whole trees -/

mutual
def Simulates (failed : Bool) : RawTrace → RawTrace → Prop
  | direct@⟨_, _, _, _, _, _, _, _, _, _, _, _, _, calls, _⟩, rebuilt =>
      SameFrame failed direct rebuilt ∧
        SimulatesCalls (failed || !direct.succeeded) calls rebuilt.calls
def SimulatesCalls (failed : Bool) : List RawTrace → List RawTrace → Prop
  | [], rebuilt => rebuilt = []
  | direct :: rest, rebuilt =>
      ∃ first others, rebuilt = first :: others ∧ Simulates failed direct first ∧
        SimulatesCalls failed rest others
end

theorem simulates_eq (failed : Bool) (direct rebuilt : RawTrace) :
    Simulates failed direct rebuilt ↔ SameFrame failed direct rebuilt ∧
      SimulatesCalls (failed || !direct.succeeded) direct.calls rebuilt.calls := by
  cases direct
  rfl

def RowsOf (txHash : String) (addr : List Int) (failed : Bool) (rows : List TraceRow)
    (direct : RawTrace) : Prop :=
  ∃ rebuilt, rows.mapM (rowToRawTrace none) = .ok ((flattenCallTree rebuilt).map bare) ∧
    assignTraceAddresses addr rebuilt = rebuilt ∧ Simulates failed direct rebuilt ∧
    ∀ node ∈ flattenCallTree rebuilt, node.txHash = lower txHash

def RowsOfCalls (txHash : String) (addr : List Int) (failed : Bool) (i : Nat) (rows : List TraceRow)
    (direct : List RawTrace) : Prop :=
  ∃ rebuilt, rows.mapM (rowToRawTrace none) = .ok ((flattenCalls rebuilt).map bare) ∧
    assignChildAddresses addr i rebuilt = rebuilt ∧ SimulatesCalls failed direct rebuilt ∧
    ∀ node ∈ flattenCalls rebuilt, node.txHash = lower txHash

variable (txHash : String) (blockNumber chainId : Int)

theorem rowsOf_node {fields : Dict String Value} {addr : List Int} {failed : Bool} {row : TraceRow}
    {rows : List TraceRow} {frame : RawTrace} {direct : List RawTrace}
    (own : RowOf fields txHash addr failed row frame)
    (below : RowsOfCalls txHash addr (failedBelow fields failed) 0 rows direct) :
    RowsOf txHash addr failed (row :: rows) { frame with calls := direct } := by
  rw [own.failedBelow] at below
  obtain ⟨rebuilt, conversions, assigned, simulated, hashes⟩ := below
  obtain ⟨t, converted, same⟩ := own.converted
  have leaf := rowToRawTrace_leaf none row t converted
  have tAddress : t.traceAddress = addr := same.traceAddress.trans own.address
  refine ⟨{ t with calls := rebuilt }, ?_, ?_, ?_, ?_⟩
  · rw [flattenCallTree_eq, List.map_cons, List.mapM_cons, converted, ok_bind, conversions, ok_bind,
      flattenCalls_eq]
    have self : bare { t with calls := rebuilt } = t := bare_eq_self t leaf
    rw [self]
    rfl
  · rw [assignTraceAddresses, assigned, ← tAddress]
  · rw [simulates_eq]
    exact ⟨⟨same.chainId, same.blockNumber, same.txHash, same.toAddr, same.calldata, same.traceAddress,
      same.succeeded⟩, simulated⟩
  · intro node inside
    rw [flattenCallTree_eq] at inside
    rcases List.mem_cons.mp inside with rfl | deeper
    · exact same.txHash.trans (by rw [own.txHash])
    · exact hashes node (by rw [flattenCalls_eq]; exact deeper)

theorem rowsOf_leaf {fields : Dict String Value} {addr : List Int} {failed : Bool} {row : TraceRow}
    {frame : RawTrace} (own : RowOf fields txHash addr failed row frame) :
    RowsOf txHash addr failed [row] frame := by
  have below : RowsOfCalls txHash addr (failedBelow fields failed) 0 [] [] :=
    ⟨[], rfl, rfl, rfl, by simp [flattenCalls]⟩
  have node := rowsOf_node txHash own below
  have self : { frame with calls := [] } = frame := bare_eq_self frame own.leaf
  rwa [self] at node

theorem rowsOf_cons {addr : List Int} {failed : Bool} {i : Nat} {rows rows' : List TraceRow}
    {direct : RawTrace} {directs : List RawTrace}
    (first : RowsOf txHash (addr ++ [(i : Int)]) failed rows direct)
    (others : RowsOfCalls txHash addr failed (i + 1) rows' directs) :
    RowsOfCalls txHash addr failed i (rows ++ rows') (direct :: directs) := by
  obtain ⟨t, conversions, assigned, simulated, hashes⟩ := first
  obtain ⟨ts, conversions', assigned', simulated', hashes'⟩ := others
  refine ⟨t :: ts, ?_, ?_, ⟨t, ts, rfl, simulated, simulated'⟩, ?_⟩
  · rw [List.mapM_append, conversions, ok_bind, conversions', ok_bind, flattenCalls, List.map_append]
    rfl
  · rw [assignChildAddresses, assigned, assigned']
  · intro node inside
    rw [flattenCalls] at inside
    rcases List.mem_append.mp inside with here | later
    · exact hashes node here
    · exact hashes' node later

mutual
theorem flatRows_agree (addr : List Int) (failed : Bool) : (node : CallTracerNode) → CallTracerTree node →
    Agree (RowsOf txHash addr failed)
      (traceNodeToFlatRows txHash blockNumber chainId addr failed node)
      (traceDictToRawTrace chainId txHash addr blockNumber node)
  | .node fields none, .node own _ => by
      rw [traceNodeToFlatRows, traceDictToRawTrace, ← bind_pure (traceDictFrame _ _ _ _ _)]
      refine (flatRow_agree fields own 0 txHash blockNumber chainId addr failed).bind ?_
      intro row frame here
      exact rowsOf_leaf txHash here
  | .node fields (some children), .node own below => by
      rw [traceNodeToFlatRows, traceDictToRawTrace]
      refine (flatRow_agree fields own children.length txHash blockNumber chainId addr failed).bind ?_
      intro row frame here
      refine (flatRowsBelow_agree addr (failedBelow fields failed) 0 children below).bind ?_
      intro rows direct deeper
      exact rowsOf_node txHash here deeper
theorem flatRowsBelow_agree (addr : List Int) (failed : Bool) (i : Nat) :
    (children : List CallTracerNode) → (∀ child ∈ children, CallTracerTree child) →
    Agree (RowsOfCalls txHash addr failed i)
      (traceNodesToFlatRows txHash blockNumber chainId addr failed i children)
      (traceDictsToRawTraces chainId txHash addr blockNumber i children)
  | [], _ => ⟨[], rfl, rfl, rfl, by simp [flattenCalls]⟩
  | child :: rest, trees => by
      rw [traceNodesToFlatRows, traceDictsToRawTraces]
      refine (flatRows_agree (addr ++ [(i : Int)]) failed child (trees child List.mem_cons_self)).bind ?_
      intro rows direct first
      refine (flatRowsBelow_agree addr failed (i + 1) rest
        fun other later => trees other (List.mem_cons_of_mem _ later)).bind ?_
      intro rows' directs others
      exact rowsOf_cons txHash first others
end

/-! ## What is decoded and extracted -/

variable (sha256 : Digest) (libs : ExternalLibs) (registry : AbiRegistry)

/-- The same call; it succeeded under successful frames in both or in neither. -/
structure SameCall (direct rebuilt : DecodedCall) : Prop where
  fields : rebuilt = { direct with success := rebuilt.success }
  succeeded : (rebuilt.success && rebuilt.parentSuccess) = (direct.success && direct.parentSuccess)

theorem decodeNode_agree {failed : Bool} {direct rebuilt : RawTrace}
    (same : SameFrame failed direct rebuilt) :
    Agree SameCall (decodeNode sha256 libs registry direct (!failed))
      (decodeNode sha256 libs registry rebuilt (!failed)) := by
  have method : methodOf libs registry rebuilt = methodOf libs registry direct := by
    unfold methodOf registeredMethod
    rw [same.toAddr, same.blockNumber, same.calldata]
  have id : computeRawTraceCallId sha256 rebuilt.txHash rebuilt.traceAddress =
      computeRawTraceCallId sha256 direct.txHash direct.traceAddress := by
    unfold computeRawTraceCallId
    rw [same.txHash, lower_lower, same.traceAddress]
  unfold decodeNode
  rw [method, id, same.chainId, same.blockNumber, same.txHash, lower_lower, same.traceAddress,
    same.toAddr, same.calldata, same.succeeded]
  refine (Agree.refl _).bind ?_
  rintro result _ rfl
  refine ⟨rfl, ?_⟩
  cases failed <;> simp

mutual
theorem walk_agree (failed : Bool) : (direct rebuilt : RawTrace) → Simulates failed direct rebuilt →
    Agree (List.Forall₂ SameCall) (walk sha256 libs registry direct (!failed))
      (walk sha256 libs registry rebuilt (!failed))
  | ⟨_, _, _, _, _, _, _, _, _, _, _, _, _, calls, _⟩,
      ⟨_, _, _, _, _, _, _, _, _, _, _, _, _, calls', _⟩, simulated => by
      obtain ⟨same, below⟩ := (simulates_eq _ _ _).mp simulated
      rw [walk, walk]
      refine (decodeNode_agree sha256 libs registry same).bind ?_
      intro call call' first
      rw [same.succeeded]
      have flag : ∀ ok : Bool, (!failed && (ok && !failed)) = !(failed || !ok) := by
        cases failed <;> simp
      have flag' : ∀ ok : Bool, (!failed && ok) = !(failed || !ok) := by
        cases failed <;> simp
      rw [flag, flag']
      refine (walkCalls_agree _ calls calls' below).bind ?_
      intro others others' rest
      exact List.Forall₂.cons first rest
theorem walkCalls_agree (failed : Bool) : (direct rebuilt : List RawTrace) →
    SimulatesCalls failed direct rebuilt →
    Agree (List.Forall₂ SameCall) (walkCalls sha256 libs registry direct (!failed))
      (walkCalls sha256 libs registry rebuilt (!failed))
  | [], _, simulated => by
      obtain rfl := simulated
      exact List.Forall₂.nil
  | direct :: rest, _, simulated => by
      obtain ⟨first, others, rfl, here, later⟩ := simulated
      rw [walkCalls, walkCalls]
      refine (walk_agree failed direct first here).bind ?_
      intro calls calls' same
      refine (walkCalls_agree failed rest others later).bind ?_
      intro calls'' calls''' same'
      exact List.rel_append same same'
end

theorem extract_agree (tokenAddress : String) (receiptsByTx : Dict String Receipt)
    {direct rebuilt : List DecodedCall} (same : List.Forall₂ SameCall direct rebuilt) :
    extractErc20TransferCalls tokenAddress receiptsByTx rebuilt =
      extractErc20TransferCalls tokenAddress receiptsByTx direct := by
  induction same with
  | nil => rfl
  | @cons call call' rest rest' here later ih =>
      have kept : isTokenCall tokenAddress receiptsByTx call' = isTokenCall tokenAddress receiptsByTx call := by
        unfold isTokenCall
        rw [here.succeeded, here.fields]
      have token : tokenCallOf tokenAddress call' = tokenCallOf tokenAddress call := by
        unfold tokenCallOf
        rw [here.fields]
      rw [extractErc20TransferCalls, extractErc20TransferCalls, kept, token, ih]

/-! ## The paths -/

variable (tokenAddress : String) (receiptsByTx : Dict String Receipt)

def tokenCallsOf (tree : RawTrace) : Py (List TraceTokenCall) := do
  let calls ← decodeTraceCalls sha256 libs tree registry
  extractErc20TransferCalls tokenAddress receiptsByTx calls

variable (node : CallTracerNode) (chainId : Int) (txHash : String) (blockNumber : Int)

/-- By direct conversion, as the RPC client does. -/
def directTokenCalls : Py (List TraceTokenCall) := do
  let tree ← traceDictToRawTrace chainId txHash [] blockNumber node
  tokenCallsOf sha256 libs registry tokenAddress receiptsByTx tree

/-- Through flat rows, as the seed script does. -/
def rebuiltTokenCalls : Py (List TraceTokenCall) := do
  let rows ← traceNodeToFlatRows txHash blockNumber chainId [] false node
  let tree ← buildCallTree rows none
  tokenCallsOf sha256 libs registry tokenAddress receiptsByTx tree

theorem tokenCallsOf_simulates {direct rebuilt : RawTrace} (simulated : Simulates false direct rebuilt) :
    tokenCallsOf sha256 libs registry tokenAddress receiptsByTx direct =
      tokenCallsOf sha256 libs registry tokenAddress receiptsByTx rebuilt := by
  have decoded := walk_agree sha256 libs registry false direct rebuilt simulated
  refine Agree.eq (decoded.bind fun calls calls' same => ?_)
  rw [extract_agree tokenAddress receiptsByTx same]
  exact Agree.refl _

theorem direct_eq_rebuilt (tree : CallTracerTree node) :
    directTokenCalls sha256 libs registry tokenAddress receiptsByTx node chainId txHash blockNumber =
      rebuiltTokenCalls sha256 libs registry tokenAddress receiptsByTx node chainId txHash
        blockNumber := by
  have read := (flatRows_agree txHash blockNumber chainId [] false node tree).flip
  refine Agree.eq (read.bind ?_)
  rintro direct rows ⟨rebuilt, converted, assigned, simulated, hashes⟩
  have self := root_mem_flatten rebuilt
  have oneTx : ∀ node ∈ flattenCallTree rebuilt, node.txHash = rebuilt.txHash := fun node inside =>
    (hashes node inside).trans (hashes rebuilt self).symm
  rw [buildCallTree_flatten rebuilt assigned oneTx rows none converted, ok_bind,
    tokenCallsOf_simulates sha256 libs registry tokenAddress receiptsByTx simulated]
  exact Agree.refl _

/-! ## Readable trees -/

/-- Numbers are hexadecimal and the calldata is whole bytes. -/
structure ReadableFields (fields : Dict String Value) : Prop where
  numbers : ∀ key ∈ ["value", "gas", "gasUsed"], ∃ n, hexField fields key = .ok n
  input : ∀ v, fields.get? "input" = some v → ∃ s, v = .str s ∧ HexInput s

inductive ReadableTree : CallTracerNode → Prop
  | node {fields : Dict String Value} {calls : Option (List CallTracerNode)}
      (own : ReadableFields fields) (below : ∀ child ∈ calls.getD [], ReadableTree child) :
      ReadableTree (.node fields calls)

theorem traceDictFrame_ok {fields : Dict String Value} (own : ReadableFields fields)
    (addr : List Int) : ∃ frame, traceDictFrame fields chainId txHash addr blockNumber = .ok frame ∧
      HexInput frame.inputData ∧ frame.calls = [] := by
  obtain ⟨value, isValue⟩ := own.numbers "value" (by simp)
  obtain ⟨gas, isGas⟩ := own.numbers "gas" (by simp)
  obtain ⟨gasUsed, isGasUsed⟩ := own.numbers "gasUsed" (by simp)
  rw [traceDictFrame, isValue, isGas, isGasUsed, ok_bind, ok_bind, ok_bind]
  refine ⟨_, rfl, ?_, rfl⟩
  change HexInput (nodeField fields "input" (.str "0x")).text
  unfold nodeField
  cases given : fields.get? "input" with
  | none => exact by decide
  | some v =>
      obtain ⟨s, rfl, hex⟩ := own.input v given
      exact hex

mutual
theorem traceDict_ok (addr : List Int) : (node : CallTracerNode) → ReadableTree node →
    ∃ tree, traceDictToRawTrace chainId txHash addr blockNumber node = .ok tree ∧
      ∀ frame ∈ flattenCallTree tree, HexInput frame.inputData
  | .node fields none, .node own _ => by
      obtain ⟨frame, computed, hex, leaf⟩ := traceDictFrame_ok chainId txHash blockNumber own addr
      refine ⟨frame, computed, ?_⟩
      rw [flattenCallTree_eq, leaf]
      simpa using hex
  | .node fields (some children), .node own below => by
      obtain ⟨frame, computed, hex, leaf⟩ := traceDictFrame_ok chainId txHash blockNumber own addr
      obtain ⟨calls, computed', hexes⟩ := traceDicts_ok addr 0 children below
      refine ⟨{ frame with calls := calls }, ?_, ?_⟩
      · rw [traceDictToRawTrace, computed, computed', ok_bind, ok_bind]
        rfl
      · rw [flattenCallTree_eq, ← flattenCalls_eq]
        exact List.forall_mem_cons.mpr ⟨hex, hexes⟩
theorem traceDicts_ok (addr : List Int) (i : Nat) : (children : List CallTracerNode) →
    (∀ child ∈ children, ReadableTree child) →
    ∃ calls, traceDictsToRawTraces chainId txHash addr blockNumber i children = .ok calls ∧
      ∀ frame ∈ flattenCalls calls, HexInput frame.inputData
  | [], _ => ⟨[], rfl, by simp [flattenCalls]⟩
  | child :: rest, trees => by
      obtain ⟨first, computed, hex⟩ :=
        traceDict_ok (addr ++ [(i : Int)]) child (trees child List.mem_cons_self)
      obtain ⟨others, computed', hexes⟩ := traceDicts_ok addr (i + 1) rest
        fun other later => trees other (List.mem_cons_of_mem _ later)
      refine ⟨first :: others, ?_, ?_⟩
      · rw [traceDictsToRawTraces, computed, computed', ok_bind, ok_bind]
        rfl
      · rw [flattenCalls]
        exact List.forall_mem_append.mpr ⟨hex, hexes⟩
end

theorem extract_ok (typed : TypedAbi libs) (fs : List Frame)
    (readable : ∀ frame ∈ fs, Readable frame.node.inputData) :
    ∃ calls, extractErc20TransferCalls tokenAddress receiptsByTx (fs.map (frameCall sha256 libs)) =
      .ok calls := by
  induction fs with
  | nil => exact ⟨[], rfl⟩
  | cons frame rest ih =>
      obtain ⟨here, below⟩ := List.forall_mem_cons.mp readable
      obtain ⟨others, computed⟩ := ih below
      rw [List.map_cons, extractErc20TransferCalls,
        tokenCallOf_frameCall sha256 libs tokenAddress typed frame here, computed, ok_bind, ok_bind]
      split
      · exact ⟨_, rfl⟩
      · exact ⟨others, rfl⟩

/-- The two ingestion paths extract the same token calls from a `callTracer` tree, and they do
return when its numbers and calldata are readable. -/
theorem ingestion_paths_agree (tree : CallTracerTree node) :
    directTokenCalls sha256 libs AbiRegistry.empty tokenAddress receiptsByTx node chainId txHash
        blockNumber =
      rebuiltTokenCalls sha256 libs AbiRegistry.empty tokenAddress receiptsByTx node chainId txHash
        blockNumber ∧
    (TypedAbi libs → ReadableTree node →
      ∃ calls, rebuiltTokenCalls sha256 libs AbiRegistry.empty tokenAddress receiptsByTx node chainId
        txHash blockNumber = .ok calls) := by
  have same := direct_eq_rebuilt sha256 libs AbiRegistry.empty tokenAddress receiptsByTx node chainId
    txHash blockNumber tree
  refine ⟨same, fun typed readable => ?_⟩
  obtain ⟨direct, computed, hex⟩ := traceDict_ok chainId txHash blockNumber [] node readable
  have framesRead : ∀ frame ∈ frames [] direct, Readable frame.node.inputData := fun frame member =>
    (hex frame.node (by rw [flatten_eq_frames []]; exact List.mem_map_of_mem member)).readable
  rw [← same, directTokenCalls, computed, ok_bind, tokenCallsOf,
    decodeTraceCalls_empty sha256 libs typed direct framesRead, ok_bind]
  exact extract_ok sha256 libs tokenAddress receiptsByTx typed _ framesRead

/-! ### A transfer under a failed call -/

def jsonFields (toAddress input : String) (error : Value) : Dict String Value :=
  Dict.ofList [("type", .str "CALL"), ("from", .str "0xF1"), ("to", .str toAddress),
    ("value", .str "0x0"), ("gas", .str "0x5208"), ("input", .str input), ("error", error)]

theorem jsonFields_get (toAddress input : String) (error : Value) (key : String) :
    (jsonFields toAddress input error).get? key =
      (([("type", .str "CALL"), ("from", .str "0xF1"), ("to", .str toAddress), ("value", .str "0x0"),
        ("gas", .str "0x5208"), ("input", .str input), ("error", error)] : List (String × Value)).find?
          (·.1 = key)).map Prod.snd :=
  Dict.get?_ofList _ (by simp) key

theorem tracerFields_json (toAddress input : String) (error : Value) :
    TracerFields (jsonFields toAddress input error) where
  type := Or.inr (Or.inr ⟨"CALL", by simp [jsonFields_get]⟩)
  sender := Or.inr (Or.inr ⟨"0xF1", by simp [jsonFields_get]⟩)
  callee := Or.inr (Or.inr ⟨toAddress, by simp [jsonFields_get]⟩)
  input := Or.inr ⟨input, by simp [jsonFields_get]⟩
  reverted := by simp [nodeField, jsonFields_get, Value.isNone]

theorem readableFields_json (toAddress input : String) (error : Value) (hex : HexInput input) :
    ReadableFields (jsonFields toAddress input error) where
  numbers := by
    have value : intBase16 "0x0" = .ok 0 := rfl
    have gas : intBase16 "0x5208" = .ok 21000 := rfl
    simp [hexField, jsonFields_get, value, gas]
  input := by simp [jsonFields_get, hex]

def failedThenTransfer : CallTracerNode :=
  .node (jsonFields "0xc0" "0x" .none) (some [
    .node (jsonFields "0xc1" "0x" (.str "execution reverted")) (some [
      .node (jsonFields linkToken transferSeven .none) none]),
    .node (jsonFields linkToken transferSeven .none) (some [])])

theorem failedThenTransfer_induction (motive : CallTracerNode → Prop)
    (step : ∀ toAddress input error calls, HexInput input →
      (∀ child ∈ Option.getD calls [], motive child) →
      motive (.node (jsonFields toAddress input error) calls)) : motive failedThenTransfer := by
  have transfer : HexInput transferSeven :=
    hexInput_calldataOf transferDigits (by decide +kernel) (by decide +kernel)
  have bare : HexInput "0x" := by decide
  have inner := step linkToken transferSeven .none none transfer (List.forall_mem_nil _)
  have failed := step "0xc1" "0x" (.str "execution reverted") (some [_]) bare
    (List.forall_mem_cons.mpr ⟨inner, List.forall_mem_nil _⟩)
  have beside := step linkToken transferSeven .none (some []) transfer (List.forall_mem_nil _)
  exact step "0xc0" "0x" .none (some [_, _]) bare
    (List.forall_mem_cons.mpr ⟨failed, List.forall_mem_cons.mpr ⟨beside, List.forall_mem_nil _⟩⟩)

theorem ingestion_paths_agree_failed :
    directTokenCalls id Decode.wordLibs AbiRegistry.empty linkToken successfulReceipt failedThenTransfer
        1 "0xAB" 100 =
      rebuiltTokenCalls id Decode.wordLibs AbiRegistry.empty linkToken successfulReceipt
        failedThenTransfer 1 "0xAB" 100 ∧
    ∃ calls, rebuiltTokenCalls id Decode.wordLibs AbiRegistry.empty linkToken successfulReceipt
      failedThenTransfer 1 "0xAB" 100 = .ok calls := by
  have traced : CallTracerTree failedThenTransfer := failedThenTransfer_induction _
    fun toAddress input error _ _ below => .node (tracerFields_json toAddress input error) below
  have readable : ReadableTree failedThenTransfer := failedThenTransfer_induction _
    fun toAddress input error _ hex below => .node (readableFields_json toAddress input error hex) below
  have agree := ingestion_paths_agree id Decode.wordLibs linkToken successfulReceipt failedThenTransfer 1
    "0xAB" 100 traced
  exact ⟨agree.1, agree.2 wordLibs_typed readable⟩

end EconomicLedger.Trace
