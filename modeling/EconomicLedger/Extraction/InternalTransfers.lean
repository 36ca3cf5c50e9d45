import EconomicLedger.Model.TraceExtraction
import EconomicLedger.Seed.Run
import EconomicLedger.Trace.Malformed
import EconomicLedger.Trace.Paths
import EconomicLedger.Trace.Registered

/-!
# Internal LINK transfers

The narrow query for internal transfers against the call tree of a whole transaction: with or without the
token's ABI, the extraction keeps exactly the rows of the query that have no failed call above them.
-/

namespace EconomicLedger.Extraction
open Model Text Fallible Trace

/-- What the dataset says of a trace: a status, no error on success, and whole bytes in lower case hex. -/
structure DatasetTrace (row : TracesTableRow) : Prop where
  status : row.status = some 0 ∨ row.status = some 1
  error : row.status = some 1 → row.error = none
  callee : ∀ addr ∈ row.toAddress, lower addr = addr
  calldata : ∀ input ∈ row.input, lower input = input ∧ startsWith input "0x" = true
  readable : ∀ input ∈ row.input, Readable input

/-! ## Rows as the call tree reads them -/

theorem txRow_get? (row : TracesTableRow) (key : String) :
    row.txRow.get? key = ((row.columns ++ [("trace_type", textColumn row.traceType)]).find?
      (·.1 = key)).map Prod.snd :=
  Dict.get?_ofList _ (by simp [TracesTableRow.columns]) key

theorem internalRow_get? (row : TracesTableRow) (key : String) :
    row.internalRow.get? key = (row.columns.find? (·.1 = key)).map Prod.snd :=
  Dict.get?_ofList _ (by simp [TracesTableRow.columns]) key

theorem internalRow_get?_eq (row : TracesTableRow) (key : String) (other : key ≠ "trace_type") :
    row.internalRow.get? key = row.txRow.get? key := by
  rw [txRow_get?, internalRow_get?, List.find?_append, List.find?_singleton,
    if_neg (by simpa using Ne.symm other), Option.or_none]

/-- Rows that agree but for the column `trace_type` convert alike, up to the type of the call. -/
theorem rowToRawTrace_untyped {row row' : TraceRow}
    (same : ∀ key, key ≠ "trace_type" → row'.get? key = row.get? key) {chainId : Option Int} {t : RawTrace}
    (converted : rowToRawTrace chainId row = .ok t) :
    ∃ type, rowToRawTrace chainId row' = .ok { t with type := type } := by
  have field : ∀ key, key ≠ "trace_type" → row'.field key = row.field key := fun key other =>
    congrArg (fun value : Option Value => value.getD .none) (same key other)
  have fieldOr : ∀ key default, key ≠ "trace_type" → row'.fieldOr key default = row.fieldOr key default :=
    fun key default other => congrArg (fun value : Option Value => value.getD default) (same key other)
  have failure : rowFailure row' = rowFailure row := by
    simp only [rowFailure, field "error" (by decide), field "status" (by decide)]
  have receiver : rowToAddr row' = rowToAddr row := by
    simp only [rowToAddr, field "to_address" (by decide), field "to_addr" (by decide)]
  have chain : rowChainId chainId row' = rowChainId chainId row := by
    simp only [rowChainId, fieldOr "chain_id" _ (by decide)]
  simp only [rowToRawTrace, failure, receiver, chain, field "trace_address" (by decide),
    field "value" (by decide), fieldOr "block_number" _ (by decide), fieldOr "gas" _ (by decide),
    fieldOr "gas_used" _ (by decide), field "transaction_hash" (by decide), fieldOr "tx_hash" _ (by decide),
    field "from_address" (by decide), fieldOr "from_addr" _ (by decide), field "input" (by decide),
    field "input_data" (by decide), field "output" (by decide)] at converted ⊢
  obtain ⟨addr, address, converted⟩ := (bind_eq_ok_iff _ _ _).mp converted
  obtain ⟨failure, failed, converted⟩ := (bind_eq_ok_iff _ _ _).mp converted
  obtain ⟨value, read, converted⟩ := (bind_eq_ok_iff _ _ _).mp converted
  obtain ⟨block, readBlock, converted⟩ := (bind_eq_ok_iff _ _ _).mp converted
  obtain ⟨chain, readChain, converted⟩ := (bind_eq_ok_iff _ _ _).mp converted
  obtain ⟨gas, readGas, converted⟩ := (bind_eq_ok_iff _ _ _).mp converted
  obtain ⟨gasUsed, readGasUsed, converted⟩ := (bind_eq_ok_iff _ _ _).mp converted
  obtain rfl := (pure_eq_ok_iff _ _).mp converted
  refine ⟨upper ((((row'.field "call_type").orElse (row'.field "type")).orElse
    (row'.field "trace_type")).orElse (.str "call")).text, ?_⟩
  rw [address, ok_bind, failed, ok_bind, read, ok_bind, readBlock, ok_bind, readChain, ok_bind, readGas,
    ok_bind, readGasUsed, ok_bind]
  rfl

/-- What the call tree reads of a row. -/
structure NodeOf (row : TracesTableRow) (t : RawTrace) : Prop where
  block : t.blockNumber = row.blockNumber
  address : parseTraceAddress (textColumn row.traceAddress) = .ok t.traceAddress
  txHash : ∀ hash, row.transactionHash = some hash → t.txHash = lower hash
  callee : t.toAddr = row.toAddress.filter (· ≠ "")
  calldata : t.inputData = (row.input.filter (· ≠ "")).getD "0x"
  succeeded : t.succeeded = decide (row.status = some 1)
  leaf : t.calls = []

theorem truthy_textColumn (column : Option String) :
    (textColumn column).truthy = (column.filter (· ≠ "")).isSome := by
  cases column with
  | none => rfl
  | some s => by_cases empty : s = "" <;> simp [textColumn, Value.truthy, Option.filter, empty]

/-- `column or other`, for text. -/
theorem text_orElse (column : Option String) (other : String) :
    ((textColumn column).orElse (.str other)).text = (column.filter (· ≠ "")).getD other := by
  rw [Value.orElse, truthy_textColumn]
  cases column with
  | none => rfl
  | some s => by_cases empty : s = "" <;> simp [textColumn, Option.filter, empty, Value.text]

theorem orElse_none_text (column : Option String) (other : String) :
    (((textColumn column).orElse .none).orElse (.str other)).text = (column.filter (· ≠ "")).getD other := by
  have first : (textColumn column).orElse .none = textColumn (column.filter (· ≠ "")) := by
    rw [Value.orElse, truthy_textColumn]
    cases column with
    | none => rfl
    | some s => by_cases empty : s = "" <;> simp [textColumn, Option.filter, empty]
  rw [first, text_orElse, Option.filter_filter]
  simp

theorem rowFailure_dataset {row : TracesTableRow} (dataset : DatasetTrace row) {columns : TraceRow}
    (error : columns.field "error" = textColumn row.error)
    (status : columns.field "status" = intColumn row.status) {failure : Option String × Option String}
    (failed : rowFailure columns = .ok failure) :
    (failure.1 = none && failure.2 = none) = decide (row.status = some 1) := by
  unfold rowFailure at failed
  simp only [error, status] at failed
  rcases dataset.status with isFailed | isSuccess
  · rw [isFailed] at failed ⊢
    cases given : row.error with
    | none =>
        rw [given] at failed
        obtain rfl := Except.ok.inj failed
        rfl
    | some message =>
        rw [given] at failed
        obtain rfl := Except.ok.inj failed
        rfl
  · rw [isSuccess, dataset.error isSuccess] at failed
    rw [isSuccess]
    obtain rfl := Except.ok.inj failed
    rfl

theorem nodeOf_of_converted {row : TracesTableRow} (dataset : DatasetTrace row) {chainId : Option Int}
    {t : RawTrace} (converted : rowToRawTrace chainId row.txRow = .ok t) : NodeOf row t := by
  have get := txRow_get? row
  generalize row.txRow = columns at get converted
  have column : ∀ key, columns.field key = ((((row.columns ++
      [("trace_type", textColumn row.traceType)]).find? (·.1 = key)).map Prod.snd).getD .none) :=
    fun key => congrArg (fun value : Option Value => value.getD .none) (get key)
  have noHash : columns.fieldOr "tx_hash" (.str "") = .str "" := by
    simp [TraceRow.fieldOr, get, TracesTableRow.columns]
  have hashColumn : columns.field "transaction_hash" = textColumn row.transactionHash := column _
  have calleeColumn : columns.field "to_address" = textColumn row.toAddress := column _
  have noCallee : columns.field "to_addr" = .none := column _
  have inputColumn : columns.field "input" = textColumn row.input := column _
  have noInput : columns.field "input_data" = .none := column _
  simp only [rowToRawTrace, bind_eq_ok_iff, pure_eq_ok_iff] at converted
  obtain ⟨addr, address, failure, failed, _, -, number, block, _, -, _, -, _, -, rfl⟩ := converted
  refine ⟨?_, ?_, ?_, ?_, ?_, rowFailure_dataset dataset (column _) (column _) failed, rfl⟩
  · have blockColumn : columns.fieldOr "block_number" (.int 0) = .int row.blockNumber := by
      simp [TraceRow.fieldOr, get, TracesTableRow.columns]
    rw [blockColumn] at block
    exact (Except.ok.inj block).symm
  · exact (congrArg parseTraceAddress (column "trace_address")).symm.trans address
  · intro hash known
    dsimp only
    rw [hashColumn, noHash, text_orElse, known]
    by_cases empty : hash = "" <;> simp [Option.filter, empty]
  · change rowToAddr columns = _
    rw [rowToAddr, calleeColumn, noCallee, truthy_textColumn]
    cases called : row.toAddress with
    | none => rfl
    | some addr =>
        have lowered := dataset.callee addr (by simp [called])
        by_cases empty : addr = ""
        · simp [Option.filter, empty, Value.truthy]
        · simp [Option.filter, empty, textColumn, Value.text, lowered]
  · change (((columns.field "input").orElse (columns.field "input_data")).orElse (.str "0x")).text = _
    rw [inputColumn, noInput, orElse_none_text]

/-! ## Selectors -/

theorem exists_of_startsWith {s pre : String} (starts : startsWith s pre = true) : ∃ rest, s = pre ++ rest := by
  obtain ⟨rest, same⟩ := List.isPrefixOf_iff_prefix.mp starts
  refine ⟨String.ofList rest, String.ext_iff.mpr ?_⟩
  rw [String.toList_append, String.toList_ofList, same]

theorem startsWith_append (pre rest digits : String) :
    startsWith (pre ++ rest) (pre ++ digits) = startsWith rest digits := by
  rw [Bool.eq_iff_iff, startsWith, startsWith, List.isPrefixOf_iff_prefix, List.isPrefixOf_iff_prefix,
    String.toList_append, String.toList_append, List.prefix_append_right_inj]

theorem sliceTo_eq_iff (rest digits : String) :
    sliceTo rest digits.length = digits ↔ startsWith rest digits = true := by
  rw [startsWith, List.isPrefixOf_iff_prefix, List.prefix_iff_eq_take, sliceTo, String.ext_iff,
    String.toList_ofList, String.length_toList, eq_comm]

/-- In lower case, the selector of a call can be read off the start of its input. -/
theorem extractMethodSelector_eq_iff {input : String} (lowered : lower input = input)
    (hex : startsWith input "0x" = true) (digits : String) (eight : digits.length = 8) :
    extractMethodSelector input = "0x" ++ digits ↔ startsWith input ("0x" ++ digits) = true := by
  obtain ⟨rest, rfl⟩ := exists_of_startsWith hex
  have loweredRest : lower rest = rest := by
    rw [lower_append] at lowered
    exact (String.append_right_inj "0x").mp lowered
  have raw : rawDigits ("0x" ++ rest) = rest := by
    rw [rawDigits, hex, Bool.true_or, if_pos rfl]
    rw [sliceFrom_append _ _ _ (by decide)]
    exact String.empty_append
  rw [startsWith_append]
  unfold extractMethodSelector
  rw [raw]
  by_cases short : rest.length < 8
  · have notPrefix : ¬ startsWith rest digits = true := fun starts => by
      have within := length_le_of_startsWith starts
      omega
    have notDigits : ¬ "0x" = "0x" ++ digits := fun same => by
      have sizes := congrArg String.length same
      rw [String.length_append] at sizes
      omega
    rw [if_pos short, ite_self]
    exact iff_of_false notDigits notPrefix
  · have present : ¬ ("0x" ++ rest = "" ∨ "0x" ++ rest = "0x" ∨ "0x" ++ rest = "0X") := by
      have sizes : ("0x" ++ rest).length = 2 + rest.length := String.length_append _ _
      rintro (same | same | same)
      · rw [same] at sizes
        change 0 = 2 + rest.length at sizes
        omega
      · rw [same] at sizes
        change 2 = 2 + rest.length at sizes
        omega
      · rw [same] at sizes
        change 2 = 2 + rest.length at sizes
        omega
    have loweredSlice : lower (sliceTo rest 8) = sliceTo rest 8 := by
      have folded : rest.toList.map Char.toLower = rest.toList := by
        rw [← toList_lower, loweredRest]
      rw [lower, sliceTo, String.toList_ofList, List.map_take, folded]
    rw [if_neg present, if_neg short, loweredSlice, String.append_right_inj, ← eight]
    exact sliceTo_eq_iff rest digits

theorem isErc20Selector_node {row : TracesTableRow} (dataset : DatasetTrace row) {t : RawTrace}
    (node : NodeOf row t) : isErc20Selector (extractMethodSelector t.inputData) = callsErc20 row := by
  rw [node.calldata, callsErc20]
  cases given : row.input with
  | none => decide +kernel
  | some input =>
      obtain ⟨lowered, hex⟩ := dataset.calldata input (by simp [given])
      have nonempty : input ≠ "" := fun empty => by
        rw [empty] at hex
        exact absurd hex (by decide)
      have transfer := extractMethodSelector_eq_iff lowered hex "a9059cbb" rfl
      have transferFrom := extractMethodSelector_eq_iff lowered hex "23b872dd" rfl
      rw [Option.filter_some, if_pos (by simpa using nonempty), Option.getD_some, Option.any_some,
        Option.any_some, Bool.eq_iff_iff, isErc20Selector, Bool.or_eq_true, Bool.or_eq_true,
        decide_eq_true_eq, decide_eq_true_eq]
      exact or_congr transfer transferFrom

/-! ## The calls above a call -/

section Tree
variable {traces : List RawTrace} {root : RawTrace}

def properPrefix (above address : List Int) : Bool := above.isPrefixOf address && above ≠ address

theorem properPrefix_iff (above address : List Int) :
    properPrefix above address = true ↔ above <+: address ∧ above ≠ address := by
  rw [properPrefix, Bool.and_eq_true, List.isPrefixOf_iff_prefix, decide_eq_true_eq]

theorem properPrefix_concat (above address : List Int) (i : Int) :
    properPrefix above (address ++ [i]) = true ↔ above <+: address := by
  rw [properPrefix_iff, List.prefix_concat_iff]
  constructor
  · rintro ⟨same | shorter, other⟩
    · exact absurd same other
    · exact shorter
  · intro shorter
    refine ⟨Or.inr shorter, fun same => ?_⟩
    have sizes := shorter.length_le
    rw [same, List.length_append, List.length_singleton] at sizes
    omega

theorem node_mem_flatten {frame : Frame} (member : frame ∈ frames [] root) :
    frame.node ∈ flattenCallTree root := by
  rw [flatten_eq_frames []]
  exact List.mem_map_of_mem member

/-- The ancestors of a frame are the calls at the proper prefixes of its address. -/
theorem mem_ancestors_iff (rebuilt : Rebuilt traces root) {ancestors : List RawTrace} {node : RawTrace}
    (below : Below root ancestors node) (t : RawTrace) :
    t ∈ ancestors.map bare ↔ t ∈ traces ∧ properPrefix t.traceAddress node.traceAddress = true := by
  induction below with
  | root =>
      rw [rebuilt.address, properPrefix_iff, List.prefix_nil]
      simp
  | @call ancestors node child above member ih =>
      have inside := node_mem_flatten (frame_of_below above)
      obtain ⟨i, address⟩ := rebuilt.calls_below node child inside member
      have own : bare node ∈ traces := rebuilt.nodes.subset (List.mem_map_of_mem inside)
      rw [List.map_append, List.mem_append, ih, List.map_singleton, List.mem_singleton, address,
        properPrefix_concat, properPrefix_iff]
      constructor
      · rintro (⟨here, shorter, -⟩ | rfl)
        · exact ⟨here, shorter⟩
        · exact ⟨own, List.prefix_refl _⟩
      · rintro ⟨here, shorter⟩
        by_cases same : t.traceAddress = node.traceAddress
        · exact Or.inr (rebuilt.eq_of_address here own same)
        · exact Or.inl ⟨here, shorter, same⟩

def allSucceededAbove (traces : List RawTrace) (address : List Int) : Bool :=
  traces.all fun above => !properPrefix above.traceAddress address || above.succeeded

theorem allSucceeded_ancestors (rebuilt : Rebuilt traces root) {frame : Frame}
    (member : frame ∈ frames [] root) :
    allSucceeded frame.ancestors = allSucceededAbove traces frame.node.traceAddress := by
  have ancestors := mem_ancestors_iff rebuilt ((mem_frames_iff root frame).mp member)
  rw [Bool.eq_iff_iff, allSucceeded, allSucceededAbove, List.all_eq_true, List.all_eq_true]
  constructor
  · intro all t here
    cases above : properPrefix t.traceAddress frame.node.traceAddress with
    | false => rfl
    | true =>
        obtain ⟨node, inside, rfl⟩ := List.mem_map.mp ((ancestors t).mpr ⟨here, above⟩)
        exact all node inside
  · intro all node inside
    obtain ⟨here, above⟩ := (ancestors (bare node)).mp (List.mem_map_of_mem inside)
    have own := all (bare node) here
    rw [above] at own
    exact own

/-! ## The kept calls -/

variable (sha256 : Digest) (libs : ExternalLibs) (linkTokenAddress : String)
variable (receiptsByTx : Dict String Receipt)

theorem bare_of_leaf {t : RawTrace} (leaf : t.calls = []) : bare t = t := by
  cases t
  cases leaf
  rfl

def kept (traces : List RawTrace) (t : RawTrace) : Bool :=
  t.toAddr.any (fun addr => lower addr = lower linkTokenAddress) &&
  isErc20Selector (extractMethodSelector t.inputData) &&
  (t.succeeded && allSucceededAbove traces t.traceAddress) &&
  (receiptsByTx.get? (lower t.txHash)).any (·.status = 1)

/-- The observed frames are the kept rows, whatever is read of them but their subcalls. -/
theorem observed_perm (rebuilt : Rebuilt traces root) (read : Frame → TraceTokenCall)
    (own : ∀ frame, read frame = read ⟨[], bare frame.node⟩) :
    (((frames [] root).filter (observed linkTokenAddress receiptsByTx)).map read).Perm
      ((traces.filter (kept linkTokenAddress receiptsByTx traces)).map fun t => read ⟨[], t⟩) := by
  have rows : ((frames [] root).map fun frame => bare frame.node).Perm traces := by
    have nodes := rebuilt.nodes
    rwa [flatten_eq_frames [], List.map_map] at nodes
  have selected : (frames [] root).filter (observed linkTokenAddress receiptsByTx) =
      (frames [] root).filter fun frame => kept linkTokenAddress receiptsByTx traces (bare frame.node) := by
    apply List.filter_congr
    intro frame member
    rw [observed, allSucceeded_ancestors rebuilt member]
    rfl
  have calls := (rows.filter (kept linkTokenAddress receiptsByTx traces)).map fun t => read ⟨[], t⟩
  rw [List.filter_map, List.map_map] at calls
  rw [selected, List.map_congr_left fun frame _ => own frame]
  exact calls

end Tree

/-! ## The rows of the query -/

def rowAddressOf (row : TraceRow) : List Int := (parseTraceAddress (row.field "trace_address")).toOption.getD []

def rowSucceeded (row : TraceRow) : Bool :=
  match row.field "status" with
  | .int n => n = 1
  | _ => false

def rowTxHash (row : TraceRow) : Option String :=
  match row.field "transaction_hash" with
  | .str s => some s
  | _ => none

/-- A call above the row failed. -/
def underFailure (rows : List TraceRow) (row : TraceRow) : Bool :=
  rows.any fun above => properPrefix (rowAddressOf above) (rowAddressOf row) && !rowSucceeded above

/-- The rows of a transaction in the traces table. -/
def txRows (table : List TracesTableRow) (txHash : String) : List TracesTableRow :=
  table.filter fun row => row.transactionHash = some (lower txHash)

theorem txRow_field (row : TracesTableRow) (key : String) : row.txRow.field key =
    ((((row.columns ++ [("trace_type", textColumn row.traceType)]).find? (·.1 = key)).map Prod.snd).getD
      .none) :=
  congrArg (fun value : Option Value => value.getD .none) (txRow_get? row key)

theorem internalRow_field (row : TracesTableRow) (key : String) (other : key ≠ "trace_type") :
    row.internalRow.field key = row.txRow.field key :=
  congrArg (fun value : Option Value => value.getD .none) (internalRow_get?_eq row key other)

theorem txRow_address (row : TracesTableRow) : row.txRow.field "trace_address" = textColumn row.traceAddress :=
  txRow_field row _

theorem rowSucceeded_txRow (row : TracesTableRow) : rowSucceeded row.txRow = decide (row.status = some 1) := by
  have status : row.txRow.field "status" = intColumn row.status := txRow_field row _
  rw [rowSucceeded, status]
  cases row.status with
  | none => rfl
  | some n => simp [intColumn]

theorem rowTxHash_internalRow (row : TracesTableRow) : rowTxHash row.internalRow = row.transactionHash := by
  have hash : row.txRow.field "transaction_hash" = textColumn row.transactionHash :=
    txRow_field row _
  rw [rowTxHash, internalRow_field row _ (by decide), hash]
  cases row.transactionHash <;> rfl

theorem NodeOf.rowAddressOf {row : TracesTableRow} {t : RawTrace} (node : NodeOf row t) :
    rowAddressOf row.txRow = t.traceAddress := by
  rw [Extraction.rowAddressOf, txRow_address, node.address]
  rfl

theorem rowAddressOf_internalRow (row : TracesTableRow) :
    rowAddressOf row.internalRow = rowAddressOf row.txRow := by
  rw [rowAddressOf, rowAddressOf, internalRow_field row _ (by decide)]

theorem allSucceededAbove_eq {rows : List TracesTableRow} {traces : List RawTrace}
    (nodes : List.Forall₂ NodeOf rows traces) {row : TracesTableRow} {t : RawTrace} (node : NodeOf row t) :
    allSucceededAbove traces t.traceAddress =
      !underFailure (rows.map TracesTableRow.txRow) row.internalRow := by
  rw [allSucceededAbove, underFailure, rowAddressOf_internalRow, node.rowAddressOf]
  clear node
  induction nodes with
  | nil => rfl
  | @cons above s rows traces first _ ih =>
      rw [List.map_cons, List.all_cons, List.any_cons, ih, first.rowAddressOf, first.succeeded,
        rowSucceeded_txRow]
      by_cases success : above.status = some 1 <;> simp [success]

theorem kept_eq {rows : List TracesTableRow} {traces : List RawTrace} (nodes : List.Forall₂ NodeOf rows traces)
    {linkTokenAddress txHash : String} (address : linkTokenAddress ≠ "") {receiptsByTx : Dict String Receipt}
    (receipt : (receiptsByTx.get? (lower txHash)).any (·.status = 1) = true) {row : TracesTableRow}
    (dataset : DatasetTrace row) (ofTx : row.transactionHash = some (lower txHash)) {t : RawTrace}
    (node : NodeOf row t) :
    kept linkTokenAddress receiptsByTx traces t =
      (decide (row.toAddress = some (lower linkTokenAddress)) && decide (row.status = some 1) &&
        callsErc20 row && !underFailure (rows.map TracesTableRow.txRow) row.internalRow) := by
  have hash : lower t.txHash = lower txHash := by
    rw [node.txHash _ ofTx, lower_lower, lower_lower]
  have callee : t.toAddr.any (fun addr => lower addr = lower linkTokenAddress) =
      decide (row.toAddress = some (lower linkTokenAddress)) := by
    rw [node.callee]
    cases called : row.toAddress with
    | none => simp
    | some addr =>
        have lowered := dataset.callee addr (by simp [called])
        have some_link : lower linkTokenAddress ≠ "" := fun empty => address ((lower_eq_empty _).mp empty)
        by_cases empty : addr = ""
        · simp [Option.filter, empty, some_link.symm]
        · simp [Option.filter, empty, lowered]
  rw [kept, callee, isErc20Selector_node dataset node, node.succeeded, allSucceededAbove_eq nodes node, hash,
    receipt]
  simp only [Bool.and_true, Bool.and_assoc]
  rw [Bool.and_left_comm (callsErc20 row)]

/-- What the query says of the rows of one transaction, where the transaction calls a parent. -/
theorem fetchInternalLinkTransfers_ofTx {table : List TracesTableRow} {parentAddresses : List String}
    {fromBlock toBlock : Int} {txHash : String}
    (block : ∀ row ∈ txRows table txHash, row.inRange fromBlock toBlock = true)
    (called : ∃ row ∈ txRows table txHash, row.traceAddress = some "" ∧
      inUnnest row.toAddress (parentAddresses.map lower) = true)
    (linkTokenAddress : String) (keep : TraceRow → Bool) {rows : List TracesTableRow}
    (own : rows.Perm (txRows table txHash)) :
    ((fetchInternalLinkTransfers table linkTokenAddress parentAddresses fromBlock toBlock).filter fun row =>
        rowTxHash row = some (lower txHash) && keep row).Perm
      ((rows.filter fun row => decide (row.toAddress = some (lower linkTokenAddress)) &&
        decide (row.status = some 1) && callsErc20 row && keep row.internalRow).map
          TracesTableRow.internalRow) := by
  have parent : lower txHash ∈ parentTxs table parentAddresses fromBlock toBlock := by
    obtain ⟨row, member, isRoot, onParent⟩ := called
    obtain ⟨inTable, hash⟩ := List.mem_filter.mp member
    refine List.mem_filterMap.mpr ⟨row, List.mem_filter.mpr ⟨inTable, ?_⟩, of_decide_eq_true hash⟩
    rw [block row member, onParent, isRoot]
    rfl
  rw [fetchInternalLinkTransfers, List.filter_map]
  refine List.Perm.map _ (((List.perm_insertionSort _ _).filter _).trans (List.Perm.trans ?_
    (own.symm.filter _)))
  rw [txRows, List.filter_filter, List.filter_filter]
  refine List.Perm.of_eq (List.filter_congr fun row inTable => ?_)
  simp only [Function.comp_apply, rowTxHash_internalRow]
  by_cases hash : row.transactionHash = some (lower txHash)
  · have range := block row (List.mem_filter.mpr ⟨inTable, decide_eq_true hash⟩)
    have isParent : inUnnest row.transactionHash (parentTxs table parentAddresses fromBlock toBlock) = true := by
      rw [hash]
      exact decide_eq_true parent
    rw [decide_eq_true hash, range, isParent, Bool.and_true, Bool.and_true, Bool.true_and, Bool.true_and,
      Bool.and_comm]
  · rw [decide_eq_false hash, Bool.false_and, Bool.false_and, Bool.and_false]

/-! ## The calls extracted -/

/-- The calls are, one for one and in some order, what is read of the rows. -/
def ReadFrom (chainId : Option Int) (read : Frame → TraceTokenCall) (rows : List TraceRow)
    (calls : List TraceTokenCall) : Prop :=
  ∃ calls', calls'.Perm calls ∧
    List.Forall₂ (fun row call => ∃ t, rowToRawTrace chainId row = .ok t ∧ call = read ⟨[], t⟩) rows calls'

section Extracted
variable {table : List TracesTableRow} (dataset : ∀ row ∈ table, DatasetTrace row) {txHash : String}
  {rows : List TracesTableRow} (own : rows.Perm (txRows table txHash)) {chainId : Option Int}
  {traces : List RawTrace}
  (converted : List.Forall₂ (fun row t => rowToRawTrace chainId row.txRow = .ok t) rows traces)
include dataset own converted

theorem nodes_of_converted : List.Forall₂
    (fun row t => (row ∈ table ∧ row.transactionHash = some (lower txHash)) ∧ NodeOf row t ∧
      rowToRawTrace chainId row.txRow = .ok t) rows traces := by
  have ofTx : ∀ row ∈ rows, row ∈ table ∧ row.transactionHash = some (lower txHash) := by
    intro row member
    obtain ⟨inTable, hash⟩ := List.mem_filter.mp (own.mem_iff.mp member)
    exact ⟨inTable, of_decide_eq_true hash⟩
  refine ((List.forall₂_and_left _ _).mpr ⟨ofTx, converted⟩).imp fun row t here => ?_
  exact ⟨here.1, nodeOf_of_converted (dataset row here.1.1) here.2, here.2⟩

variable {root : RawTrace} (rebuilt : Rebuilt traces root)
include rebuilt

theorem exists_row {frame : Frame} (member : frame ∈ frames [] root) :
    ∃ row ∈ rows, row ∈ table ∧ NodeOf row (bare frame.node) := by
  have inRows : bare frame.node ∈ traces :=
    rebuilt.nodes.mem_iff.mp (List.mem_map_of_mem (node_mem_flatten member))
  obtain ⟨row, isRow, here, node, -⟩ :=
    exists_of_forall₂_right (nodes_of_converted dataset own converted) _ inRows
  exact ⟨row, isRow, here.1, node⟩

theorem readable_of_rebuilt : ∀ frame ∈ frames [] root, Readable frame.node.inputData := by
  intro frame member
  obtain ⟨row, -, inTable, node⟩ := exists_row dataset own converted rebuilt member
  have calldata : frame.node.inputData = (row.input.filter (· ≠ "")).getD "0x" := node.calldata
  rw [calldata]
  cases given : row.input with
  | none => exact HexInput.readable (by decide +kernel)
  | some input =>
      by_cases empty : input = ""
      · rw [Option.filter_some, if_neg (by simpa using empty)]
        exact HexInput.readable (by decide +kernel)
      · rw [Option.filter_some, if_pos (by simpa using empty)]
        exact (dataset row inTable).readable input given

/-- What is read of the observed frames is read from the rows of the query that have no failed call above. -/
theorem readFrom_of_rebuilt {linkTokenAddress : String} (address : linkTokenAddress ≠ "")
    {parentAddresses : List String} {fromBlock toBlock : Int}
    (block : ∀ row ∈ txRows table txHash, row.inRange fromBlock toBlock = true)
    (called : ∃ row ∈ txRows table txHash, row.traceAddress = some "" ∧
      inUnnest row.toAddress (parentAddresses.map lower) = true)
    {receiptsByTx : Dict String Receipt}
    (receipt : (receiptsByTx.get? (lower txHash)).any (·.status = 1) = true) (read : Frame → TraceTokenCall)
    (untyped : ∀ frame type, read frame = read ⟨[], { bare frame.node with type := type }⟩) :
    ReadFrom chainId read
      ((fetchInternalLinkTransfers table linkTokenAddress parentAddresses fromBlock toBlock).filter fun row =>
        rowTxHash row = some (lower txHash) && !underFailure (rows.map TracesTableRow.txRow) row)
      (((frames [] root).filter (observed linkTokenAddress receiptsByTx)).map read) := by
  have each := nodes_of_converted dataset own converted
  have nodes : List.Forall₂ NodeOf rows traces := each.imp fun _ _ here => here.2.1
  have selected := List.rel_filter
    (p := fun row => decide (row.toAddress = some (lower linkTokenAddress)) && decide (row.status = some 1) &&
      callsErc20 row && !underFailure (rows.map TracesTableRow.txRow) row.internalRow)
    (q := kept linkTokenAddress receiptsByTx traces) (fun {row t} here =>
      (Bool.eq_iff_iff.mp (kept_eq nodes address receipt (dataset row here.1.1) here.1.2 here.2.1)).symm) each
  have reads : List.Forall₂ (fun row call => ∃ t, rowToRawTrace chainId row = .ok t ∧ call = read ⟨[], t⟩)
      ((rows.filter fun row => decide (row.toAddress = some (lower linkTokenAddress)) &&
        decide (row.status = some 1) && callsErc20 row &&
          !underFailure (rows.map TracesTableRow.txRow) row.internalRow).map TracesTableRow.internalRow)
      ((traces.filter (kept linkTokenAddress receiptsByTx traces)).map fun t => read ⟨[], t⟩) := by
    rw [List.forall₂_map_left_iff, List.forall₂_map_right_iff]
    refine selected.imp fun row t here => ?_
    obtain ⟨type, typed⟩ := rowToRawTrace_untyped (internalRow_get?_eq row) here.2.2
    refine ⟨_, typed, (untyped ⟨[], t⟩ type).trans ?_⟩
    rw [bare_of_leaf here.2.1.leaf]
  obtain ⟨calls', ordered, same⟩ := List.perm_comp_forall₂
    (fetchInternalLinkTransfers_ofTx block called linkTokenAddress
      (fun row => !underFailure (rows.map TracesTableRow.txRow) row) own) reads
  exact ⟨calls', same.trans (observed_perm linkTokenAddress receiptsByTx rebuilt read
    fun frame => untyped frame frame.node.type).symm, ordered⟩

end Extracted

/-- The calls that the extraction takes from the call tree of a transaction are the rows of the narrow query
without those under a failed call, read by the ERC-20 fast path or by the registered ABI of the token. -/
theorem internal_transfers_complete (sha256 : Digest) {libs : ExternalLibs} (spec : Decode.AbiSpec libs)
    (table : List TracesTableRow) (dataset : ∀ row ∈ table, DatasetTrace row) (linkTokenAddress : String)
    (address : linkTokenAddress ≠ "") (parentAddresses : List String) (fromBlock toBlock : Int) (txHash : String)
    (block : ∀ row ∈ txRows table txHash, row.inRange fromBlock toBlock = true)
    (called : ∃ row ∈ txRows table txHash, row.traceAddress = some "" ∧
      inUnnest row.toAddress (parentAddresses.map lower) = true)
    (receiptsByTx : Dict String Receipt)
    (receipt : (receiptsByTx.get? (lower txHash)).any (·.status = 1) = true) (chainId : Option Int)
    (rows : List TracesTableRow) (own : rows.Perm (txRows table txHash)) (tree : RawTrace)
    (built : buildCallTree (rows.map TracesTableRow.txRow) chainId = .ok tree) :
    (∃ calls, tokenCallsOf sha256 libs AbiRegistry.empty linkTokenAddress receiptsByTx tree = .ok calls ∧
      ReadFrom chainId (frameTokenCall sha256 libs linkTokenAddress)
        ((fetchInternalLinkTransfers table linkTokenAddress parentAddresses fromBlock toBlock).filter fun row =>
          rowTxHash row = some (lower txHash) && !underFailure (rows.map TracesTableRow.txRow) row) calls) ∧
    ∀ registry, (∀ row ∈ rows, Registers libs registry linkTokenAddress row.blockNumber) →
      ∃ calls, tokenCallsOf sha256 libs registry linkTokenAddress receiptsByTx tree = .ok calls ∧
        ReadFrom chainId (registeredTokenCall sha256 libs linkTokenAddress)
          ((fetchInternalLinkTransfers table linkTokenAddress parentAddresses fromBlock toBlock).filter fun row =>
            rowTxHash row = some (lower txHash) && !underFailure (rows.map TracesTableRow.txRow) row) calls := by
  obtain ⟨traces, converted, rebuilt⟩ := rebuilt_of_built built
  rw [mapM_eq_ok_iff, List.forall₂_map_left_iff] at converted
  have readable := readable_of_rebuilt dataset own converted rebuilt
  constructor
  · exact ⟨_, tokenCallsOf_empty sha256 libs linkTokenAddress receiptsByTx (typedAbi_of_spec spec) address tree
      readable, readFrom_of_rebuilt dataset own converted rebuilt address block called receipt _
        fun _ _ => rfl⟩
  · intro registry registered
    have registers : ∀ frame ∈ frames [] tree,
        Registers libs registry linkTokenAddress frame.node.blockNumber := by
      intro frame member
      obtain ⟨row, isRow, -, node⟩ := exists_row dataset own converted rebuilt member
      have number : frame.node.blockNumber = row.blockNumber := node.block
      exact number ▸ registered row isRow
    exact ⟨_, tokenCallsOf_registered sha256 libs registry linkTokenAddress receiptsByTx spec address tree
      readable fun frame member _ => registers frame member,
      readFrom_of_rebuilt dataset own converted rebuilt address block called receipt _ fun _ _ => rfl⟩

/-! ### A transfer below a failed call, and one beside it -/

def traceTableRow (traceAddress toAddress input : String) (status : Int) : TracesTableRow :=
  { blockNumber := 100
    transactionHash := some "0xab"
    traceAddress := some traceAddress
    traceType := some "call"
    callType := some "call"
    fromAddress := some "0xaa"
    toAddress := some toAddress
    value := .int 0
    gas := some 21000
    gasUsed := some 1000
    input := some input
    output := some "0x"
    error := none
    status := some status }

def failedBranchTable : List TracesTableRow :=
  [traceTableRow "0" "0xb1" "0x" 0, traceTableRow "" "0xb0" "0x" 1,
    traceTableRow "0,0" linkToken transferSeven 1, traceTableRow "1" linkToken transferSeven 1]

theorem datasetTrace_row (traceAddress : String) {toAddress input : String}
    (callee : lower toAddress = toAddress)
    (calldata : (lower input = input ∧ startsWith input "0x" = true) ∧ HexInput input)
    {status : Int} (known : status = 0 ∨ status = 1) :
    DatasetTrace (traceTableRow traceAddress toAddress input status) where
  status := known.imp (congrArg some) (congrArg some)
  error := fun _ => rfl
  callee := fun _ given => (Option.some.inj given) ▸ callee
  calldata := fun _ given => (Option.some.inj given) ▸ calldata.1
  readable := fun _ given => (Option.some.inj given) ▸ calldata.2.readable

theorem failedBranchTable_dataset : ∀ row ∈ failedBranchTable, DatasetTrace row := by
  have bare : (lower "0x" = "0x" ∧ startsWith "0x" "0x" = true) ∧ HexInput "0x" := by decide +kernel
  have transfer : (lower transferSeven = transferSeven ∧ startsWith transferSeven "0x" = true) ∧
      HexInput transferSeven :=
    ⟨by decide +kernel, hexInput_calldataOf transferDigits (by decide +kernel) (by decide +kernel)⟩
  have link : lower linkToken = linkToken := by decide +kernel
  have pool : lower "0xb1" = "0xb1" ∧ lower "0xb0" = "0xb0" := by decide +kernel
  simp only [failedBranchTable, List.forall_mem_cons, List.not_mem_nil, false_implies, implies_true, and_true]
  exact ⟨datasetTrace_row _ pool.1 bare (Or.inl rfl), datasetTrace_row _ pool.2 bare (Or.inr rfl),
    datasetTrace_row _ link transfer (Or.inr rfl), datasetTrace_row _ link transfer (Or.inr rfl)⟩

/-- The rows of the query for the one transaction, without those under a failed call. -/
def failedBranchTransfers : List TraceRow :=
  (fetchInternalLinkTransfers failedBranchTable linkToken ["0xB0"] 0 200).filter fun row =>
    rowTxHash row = some (lower "0xAB") &&
      !underFailure ((txRows failedBranchTable "0xAB").map TracesTableRow.txRow) row

theorem internal_transfers_complete_failed :
    ∃ tree, buildCallTree ((txRows failedBranchTable "0xAB").map TracesTableRow.txRow) (some 1) = .ok tree ∧
      (∃ calls, tokenCallsOf id transferLibs AbiRegistry.empty linkToken successfulReceipt tree = .ok calls ∧
        ReadFrom (some 1) (frameTokenCall id transferLibs linkToken) failedBranchTransfers calls) ∧
      ∃ calls, tokenCallsOf id transferLibs linkRegistry linkToken successfulReceipt tree = .ok calls ∧
        ReadFrom (some 1) (registeredTokenCall id transferLibs linkToken) failedBranchTransfers calls := by
  obtain ⟨tree, built⟩ := Seed.exists_of_succeeded
    (x := buildCallTree ((txRows failedBranchTable "0xAB").map TracesTableRow.txRow) (some 1))
    (by decide +kernel)
  obtain ⟨direct, registered⟩ := internal_transfers_complete id (Decode.wordDecode_spec transferDigest)
    failedBranchTable failedBranchTable_dataset linkToken (by decide) ["0xB0"] 0 200 "0xAB" (by decide +kernel)
    (by decide +kernel) successfulReceipt (by decide +kernel) (some 1) _ (List.Perm.refl _) tree built
  refine ⟨tree, built, direct, registered linkRegistry fun row member => ?_⟩
  have block : row.blockNumber = 100 := by
    revert row
    decide +kernel
  exact block ▸ linkRegistry_registers

end EconomicLedger.Extraction
