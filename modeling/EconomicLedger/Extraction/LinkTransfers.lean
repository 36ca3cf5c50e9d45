import EconomicLedger.Decode.Logs
import EconomicLedger.Lib.Selection
import EconomicLedger.Model.Extraction
import EconomicLedger.Movements.Built
import EconomicLedger.Movements.Flows
import EconomicLedger.Seed.Run

/-!
# Fetching the transfers of counterparties

The query for LINK transfers reads addresses from the topics as the decoder does, so the transfers it leaves
out touch no counterparty, and the balance of every counterparty follows from those it returns.
-/

namespace EconomicLedger.Extraction
open Model Text Fallible Decode Movements Selection

variable {sha256 : Digest} {libs : ExternalLibs}

/-! ## Topics -/

/-- A topic as the dataset has it. -/
def HexTopic (topic : String) : Prop := lower topic = topic ∧ startsWith topic "0x" = true

instance (topic : String) : Decidable (HexTopic topic) := inferInstanceAs (Decidable (_ ∧ _))

def HexTopics (table : List LogTableRow) : Prop := ∀ row ∈ table, ∀ topic ∈ row.topics, HexTopic topic

instance (table : List LogTableRow) : Decidable (HexTopics table) :=
  inferInstanceAs (Decidable (∀ row ∈ table, ∀ topic ∈ row.topics, HexTopic topic))

theorem lower_sliceFrom (s : String) (n : Nat) : lower (sliceFrom s n) = sliceFrom (lower s) n := by
  rw [lower, sliceFrom, sliceFrom, toList_lower, String.toList_ofList, List.map_drop]

theorem topicToAddress_hex {topic address : String} (hex : HexTopic topic)
    (read : topicToAddress topic = .ok address) : address = "0x" ++ sliceFrom topic 26 := by
  unfold topicToAddress at read
  rw [if_pos hex.2] at read
  dsimp only at read
  split_ifs at read with size
  rw [Except.ok.injEq, lower_sliceFrom, hex.1] at read
  exact read.symm

theorem lower_topicAddress {topic : String} (hex : HexTopic topic) :
    lower ("0x" ++ sliceFrom topic 26) = "0x" ++ sliceFrom topic 26 := by
  rw [lower_append, lower_sliceFrom, hex.1]
  rfl

/-! ## Decoding a transfer -/

/-- Over these blocks the registry has an ABI for LINK whose transfer event has two indexed addresses. -/
def LinkAbi (libs : ExternalLibs) (abis : AbiRegistry) (linkTokenAddress : String) (fromBlock toBlock : Int) :
    Prop :=
  ∀ blockNumber, fromBlock ≤ blockNumber → blockNumber ≤ toBlock → ∃ abi entry,
    abis.get (lower linkTokenAddress) blockNumber = .ok abi ∧
    findEventAbi libs abi erc20TransferTopic0 = some entry ∧
    indexedInputs entry = [⟨"from", "address", true, []⟩, ⟨"to", "address", true, []⟩]

structure TransferEvent (row : LogTableRow) (ev : DecodedEvent) : Prop where
  isTransfer : ev.isTransfer = true
  fromTopic : topicAddress row.topics 1 = some ev.fromAddr
  toTopic : topicAddress row.topics 2 = some ev.toAddr

theorem lower_hexTopic_address {row : LogTableRow} (hex : ∀ topic ∈ row.topics, HexTopic topic) {i : Nat}
    {address : String} (read : topicAddress row.topics i = some address) : lower address = address := by
  obtain ⟨topic, found, rfl⟩ := Option.map_eq_some_iff.mp read
  exact lower_topicAddress (hex topic (List.mem_of_getElem? found))

theorem indexedParams_transfer {first second : String} {params : Dict String Value}
    (indexed : decodeIndexedInputs libs Dict.empty
      ([⟨"from", "address", true, []⟩, ⟨"to", "address", true, []⟩].zip [first, second]) = .ok params) :
    ∃ source target, topicToAddress first = .ok source ∧ topicToAddress second = .ok target ∧
      params = (Dict.empty.set "from" (.str source)).set "to" (.str target) := by
  simp only [List.zip_cons_cons, List.zip_nil_right, decodeIndexedInputs, decodeIndexedInput, if_true] at indexed
  cases source : topicToAddress first with
  | error exc =>
      rw [source] at indexed
      cases indexed
  | ok source' =>
      cases target : topicToAddress second with
      | error exc =>
          rw [source, target] at indexed
          cases indexed
      | ok target' =>
          rw [source, target] at indexed
          exact ⟨source', target', rfl, rfl, (Except.ok.inj indexed).symm⟩

theorem addressParam_found {params : Dict String Value} {key alt address : String}
    (found : params.get? key = some (.str address)) : addressParam params key alt = lower address := by
  rw [addressParam, found]
  rfl

theorem transferEvent_of_decodable {abis : AbiRegistry} {linkTokenAddress : String} {fromBlock toBlock : Int}
    (registered : LinkAbi libs abis linkTokenAddress fromBlock toBlock) {row : LogTableRow} {chainId : Int}
    (range : inRange fromBlock toBlock row = true)
    (onLink : row.address = some (lower linkTokenAddress)) (signed : row.topics[0]? = some erc20TransferTopic0)
    (hex : ∀ topic ∈ row.topics, HexTopic topic) {ev : DecodedEvent}
    (decodable : Decodable sha256 libs abis (bqRowToRawLog row chainId) ev) : TransferEvent row ev := by
  obtain ⟨abi, found, entry, topicConsumed, indexedParams, bytes, dataParams, chosen, sizes, indexed, -, -, rfl⟩ :=
    decodable
  rw [inRange, Bool.and_eq_true, decide_eq_true_eq, decide_eq_true_eq] at range
  obtain ⟨abi', entry', found', event, inputs⟩ := registered row.blockNumber range.1 range.2
  have address : lower (bqRowToRawLog row chainId).address = lower linkTokenAddress := by
    simp [bqRowToRawLog, columnText, onLink]
  rw [address] at found
  obtain rfl : abi = abi' := Except.ok.inj (found.symm.trans found')
  have topics : (bqRowToRawLog row chainId).topics = row.topics := rfl
  cases listed : row.topics with
  | nil =>
      rw [listed] at signed
      cases signed
  | cons topic0 rest =>
      rw [listed, List.getElem?_cons_zero, Option.some.injEq] at signed
      subst signed
      rw [selectEvent, topics, listed] at chosen
      simp only [event, Except.ok.injEq, Prod.mk.injEq] at chosen
      obtain ⟨rfl, rfl⟩ := chosen
      rw [topics, listed, List.drop_one, List.tail_cons, inputs] at sizes indexed
      obtain ⟨first, second, rfl⟩ := List.length_eq_two.mp sizes.symm
      obtain ⟨source, target, readSource, readTarget, rfl⟩ := indexedParams_transfer indexed
      have hexFirst : HexTopic first := hex first (by simp [listed])
      have hexSecond : HexTopic second := hex second (by simp [listed])
      have atFirst : topicAddress row.topics 1 = some source := by
        rw [topicAddress, listed, topicToAddress_hex hexFirst readSource]
        rfl
      have atSecond : topicAddress row.topics 2 = some target := by
        rw [topicAddress, listed, topicToAddress_hex hexSecond readTarget]
        rfl
      refine ⟨?_, ?_, ?_⟩
      · rw [DecodedEvent.isTransfer, eventOf, topics, listed]
        simp
      · have found' : ((Dict.empty.set "from" (.str source)).set "to" (.str target)).get? "from" =
            some (Value.str source) := by
          rw [Dict.get?_set, if_neg (by decide), Dict.get?_set, if_pos rfl]
        exact atFirst.trans (congrArg some
          ((lower_hexTopic_address hex atFirst).symm.trans (addressParam_found found').symm))
      · have found' : ((Dict.empty.set "from" (.str source)).set "to" (.str target)).get? "to" =
            some (Value.str target) := by
          rw [Dict.get?_set, if_pos rfl]
        exact atSecond.trans (congrArg some
          ((lower_hexTopic_address hex atSecond).symm.trans (addressParam_found found').symm))

/-! ## Movements of the fetched logs -/

/-- What `decode_logs_batch` does with one log. -/
def decodeOne (sha256 : Digest) (libs : ExternalLibs) (abis : AbiRegistry) (log : RawLog) :
    Py (DecodeResult DecodedEvent) :=
  match abis.get (lower log.address) log.blockNumber with
  | .error exc => .ok (failedResult (computeRawLogId sha256 log) .unregisteredContract (reprText exc.detail))
  | .ok abi => decodeLog sha256 libs log abi

theorem decodable_of_decodeOne {abis : AbiRegistry} {log : RawLog} {result : DecodeResult DecodedEvent}
    (decoded : decodeOne sha256 libs abis log = .ok result) {ev : DecodedEvent} (event : result.decoded = some ev) :
    Decodable sha256 libs abis log ev := by
  unfold decodeOne at decoded
  cases found : abis.get (lower log.address) log.blockNumber with
  | error exc =>
      rw [found] at decoded
      cases decoded
      cases event
  | ok abi =>
      rw [found] at decoded
      exact ⟨abi, found, (decodeLog_decoded_iff sha256 libs log abi ev).mp ⟨result, decoded, event⟩⟩

/-- `decode_logs_batch` and `build_movements_from_transfer_logs`. -/
def logMovements (sha256 : Digest) (libs : ExternalLibs) (abis : AbiRegistry) (logs : List RawLog) :
    Py (List TokenMovement) := do
  let events ← decodedEvents sha256 libs abis logs
  buildMovementsFromTransferLogs sha256 events

/-- What the movement of a decoded log brings to an address. -/
def resultEffect (sha256 : Digest) (target : String) (fromBlock toBlock : Int)
    (result : DecodeResult DecodedEvent) : Int :=
  ((result.decoded.filter (·.isTransfer)).map fun ev =>
    (transferOf (builtLog sha256 ev)).effectIn target fromBlock toBlock).getD 0

theorem computeBalanceDelta_results (results : List (DecodeResult DecodedEvent)) (address : String)
    (fromBlock toBlock : Int) :
    computeBalanceDelta (((results.filterMap DecodeResult.decoded).filter (·.isTransfer)).map (builtLog sha256))
        address fromBlock toBlock =
      (results.map (resultEffect sha256 (lower address) fromBlock toBlock)).sum := by
  rw [computeBalanceDelta_eq, List.map_map, List.filter_filterMap]
  exact sum_filterMap _ _ results

theorem logMovements_eq_ok_iff (abis : AbiRegistry) (logs : List RawLog) (movements : List TokenMovement) :
    logMovements sha256 libs abis logs = .ok movements ↔
      ∃ results, decodeLogsBatch sha256 libs abis logs = .ok results ∧
        (∀ ev ∈ (results.filterMap DecodeResult.decoded).filter (·.isTransfer),
          ∃ amount, ev.transferAmount = .ok amount) ∧
        movements = ((results.filterMap DecodeResult.decoded).filter (·.isTransfer)).map (builtLog sha256) := by
  simp only [logMovements, decodedEvents, bind_eq_ok_iff, pure_eq_ok_iff,
    buildMovementsFromTransferLogs_eq_ok_iff]
  constructor
  · rintro ⟨_, ⟨results, decoded, rfl⟩, converts, rfl⟩
    exact ⟨results, decoded, converts, rfl⟩
  · rintro ⟨results, decoded, converts, rfl⟩
    exact ⟨_, ⟨results, decoded, rfl⟩, converts, rfl⟩

theorem inUnnest_singleton (value : Option String) (v : String) :
    inUnnest value [v] = decide (value = some v) := by
  cases value with
  | none => rfl
  | some w => simp [inUnnest]

/-- The rows of the query without its counterparties. -/
theorem fetchLinkTransferLogs_eq (table : List LogTableRow) (chainId : Int) (linkTokenAddress : String)
    (counterparties : List String) (fromBlock toBlock : Int) :
    ∃ rows : List LogTableRow, fetchLogsByAddress table chainId [linkTokenAddress] fromBlock toBlock
        (some [erc20TransferTopic0]) = rows.map (bqRowToRawLog · chainId) ∧
      fetchLinkTransferLogs table chainId linkTokenAddress counterparties fromBlock toBlock =
        (rows.filter fun row => touchesCounterparty counterparties row.topics).map (bqRowToRawLog · chainId) ∧
      ∀ row ∈ rows, row ∈ table ∧ inRange fromBlock toBlock row = true ∧
        row.address = some (lower linkTokenAddress) ∧ row.topics[0]? = some erc20TransferTopic0 := by
  refine ⟨_, rfl, ?_, ?_⟩
  · rw [fetchLinkTransferLogs, List.filter_filter]
    apply congrArg (List.map _)
    apply List.filter_congr
    intro row _
    rw [List.map_singleton, inUnnest_singleton, hasTopic0, inUnnest_singleton, Bool.and_comm]
  · intro row member
    obtain ⟨inside, selected⟩ := List.mem_filter.mp member
    rw [List.map_singleton, inUnnest_singleton, hasTopic0, inUnnest_singleton] at selected
    simp only [Bool.and_eq_true, decide_eq_true_eq] at selected
    exact ⟨inside, selected.1.1, selected.1.2, selected.2⟩

theorem inUnnest_iff (value : Option String) (values : List String) :
    inUnnest value values = true ↔ ∃ v ∈ values, value = some v := by
  cases value with
  | none => simp [inUnnest]
  | some w => simp [inUnnest]

theorem touchesCounterparty_iff (counterparties topics : List String) :
    touchesCounterparty counterparties topics = true ↔
      (∃ v ∈ counterparties.map lower, topicAddress topics 1 = some v) ∨
        ∃ v ∈ counterparties.map lower, topicAddress topics 2 = some v := by
  rw [touchesCounterparty, Bool.or_eq_true, inUnnest_iff, inUnnest_iff]

/-- The transfer of a row that touches no counterparty brings nothing to one. -/
theorem effect_untouched {row : LogTableRow} {ev : DecodedEvent} (event : TransferEvent row ev)
    (hex : ∀ topic ∈ row.topics, HexTopic topic) {counterparties : List String}
    (untouched : touchesCounterparty counterparties row.topics = false) {address : String}
    (counterparty : address ∈ counterparties) (fromBlock toBlock : Int) :
    (transferOf (builtLog sha256 ev)).effectIn (lower address) fromBlock toBlock = 0 := by
  have listed : lower address ∈ counterparties.map lower := List.mem_map_of_mem counterparty
  have apart := (touchesCounterparty_iff counterparties row.topics).not.mp (by simp [untouched])
  have notSource : ¬ lower ev.fromAddr = lower address := fun same => apart (Or.inl ⟨_, listed,
    event.fromTopic.trans (congrArg some ((lower_hexTopic_address hex event.fromTopic).symm.trans same))⟩)
  have notTarget : ¬ lower ev.toAddr = lower address := fun same => apart (Or.inr ⟨_, listed,
    event.toTopic.trans (congrArg some ((lower_hexTopic_address hex event.toTopic).symm.trans same))⟩)
  have nothing : (transferOf (builtLog sha256 ev)).effect (lower address) = 0 := by
    change (if lower ev.toAddr = lower address then _ else _) -
      (if lower ev.fromAddr = lower address then _ else _) = (0 : Int)
    rw [if_neg notTarget, if_neg notSource, sub_zero]
  rw [Transfer.effectIn, nothing, ite_self]

/-- The fetched transfers give every counterparty its balance delta over all LINK transfers, and each of them
is to or from a counterparty. -/
theorem fetched_transfers_suffice (abis : AbiRegistry) (linkTokenAddress : String)
    (fromBlock toBlock : Int) (registered : LinkAbi libs abis linkTokenAddress fromBlock toBlock)
    (table : List LogTableRow) (hex : HexTopics table) (chainId : Int) (counterparties : List String)
    (fetched : List RawLog)
    (answer : fetched.Perm
      (fetchLinkTransferLogs table chainId linkTokenAddress counterparties fromBlock toBlock))
    (movements : List TokenMovement)
    (all : logMovements sha256 libs abis (fetchLogsByAddress table chainId [linkTokenAddress] fromBlock toBlock
      (some [erc20TransferTopic0])) = .ok movements) :
    ∃ movements', logMovements sha256 libs abis fetched = .ok movements' ∧
      (∀ m ∈ movements', m.fromAddr ∈ counterparties.map lower ∨ m.toAddr ∈ counterparties.map lower) ∧
      ∀ address ∈ counterparties, ∀ first last,
        computeBalanceDelta movements' address first last = computeBalanceDelta movements address first last := by
  obtain ⟨rows, whole, part, selected⟩ :=
    fetchLinkTransferLogs_eq table chainId linkTokenAddress counterparties fromBlock toBlock
  rw [whole] at all
  obtain ⟨results, decoded, converts, rfl⟩ := (logMovements_eq_ok_iff abis _ movements).mp all
  have selection : fetched.Perm ((rows.map (bqRowToRawLog · chainId)).filter fun log =>
      touchesCounterparty counterparties log.topics) := by
    rw [List.filter_map]
    exact part ▸ answer
  -- a decoded row of the query is a transfer whose parties are in its topics
  have event : ∀ row ∈ rows, ∀ result, decodeOne sha256 libs abis (bqRowToRawLog row chainId) = .ok result →
      ∀ ev, result.decoded = some ev → TransferEvent row ev := by
    intro row member result decodedRow ev isEvent
    obtain ⟨inTable, range, onLink, signed⟩ := selected row member
    exact transferEvent_of_decodable registered range onLink signed (hex row inTable)
      (decodable_of_decodeOne decodedRow isEvent)
  have untouched : ∀ address ∈ counterparties, ∀ first last, ∀ log ∈ rows.map (bqRowToRawLog · chainId),
      touchesCounterparty counterparties log.topics = false → ∀ result,
        decodeOne sha256 libs abis log = .ok result →
          resultEffect sha256 (lower address) first last result = 0 := by
    intro address counterparty first last log inRows apart result decodedRow
    obtain ⟨row, member, rfl⟩ := List.mem_map.mp inRows
    cases isEvent : result.decoded with
    | none => rw [resultEffect, isEvent]; rfl
    | some ev =>
        have transfer := event row member result decodedRow ev isEvent
        rw [resultEffect, isEvent, Option.filter_some, if_pos transfer.isTransfer]
        exact effect_untouched transfer (hex row (selected row member).1) apart counterparty first last
  obtain ⟨zs, part', within, -⟩ := mapM_selection (decodeOne sha256 libs abis) decoded _ selection
    (fun _ => (0 : Int)) fun _ _ _ _ _ => rfl
  refine ⟨_, (logMovements_eq_ok_iff abis fetched _).mpr ⟨zs, part', ?_, rfl⟩, ?_, ?_⟩
  · intro ev member
    obtain ⟨isEvent, isTransfer⟩ := List.mem_filter.mp member
    exact converts ev (List.mem_filter.mpr ⟨List.filterMap_subset _ within isEvent, isTransfer⟩)
  · intro m member
    obtain ⟨ev, transfer, rfl⟩ := List.mem_map.mp member
    obtain ⟨result, inResults, isEvent⟩ := List.mem_filterMap.mp (List.mem_filter.mp transfer).1
    obtain ⟨log, inFetched, decodedRow⟩ := exists_of_mem_mapM _ part' result inResults
    obtain ⟨inRows, touches⟩ := List.mem_filter.mp (selection.subset inFetched)
    obtain ⟨row, inQuery, rfl⟩ := List.mem_map.mp inRows
    have parties := event row inQuery result decodedRow ev isEvent
    rcases (touchesCounterparty_iff counterparties row.topics).mp touches with
      ⟨address, listed, found⟩ | ⟨address, listed, found⟩
    · have same : ev.fromAddr = address := Option.some.inj (parties.fromTopic.symm.trans found)
      exact Or.inl (same ▸ listed : ev.fromAddr ∈ counterparties.map lower)
    · have same : ev.toAddr = address := Option.some.inj (parties.toTopic.symm.trans found)
      exact Or.inr (same ▸ listed : ev.toAddr ∈ counterparties.map lower)
  · intro address counterparty first last
    obtain ⟨zs', part'', -, total⟩ := mapM_selection (decodeOne sha256 libs abis) decoded _ selection
      (resultEffect sha256 (lower address) first last) (untouched address counterparty first last)
    obtain rfl : zs = zs' := Except.ok.inj (part'.symm.trans part'')
    rw [computeBalanceDelta_results, computeBalanceDelta_results, total]

/-! ### Two transfers, one to the reserves -/

def transferRegistry : AbiRegistry :=
  ⟨Dict.ofList [(linkTokenAddress, [(⟨linkTokenAddress, "erc20_v1", 0, none⟩, erc20TransferAbi)])]⟩

def transferRow (logIndex : Int) (receiver : List UInt8) : LogTableRow :=
  { blockNumber := 7
    blockHash := some "0xb7"
    transactionHash := "0xa1"
    transactionIndex := some 0
    logIndex := some logIndex
    address := some linkTokenAddress
    topics := eventTopics Seed.seedLibs (Seed.transferOfSeven receiver)
    data := some (eventData (Seed.transferOfSeven receiver)) }

def bystander : List UInt8 := List.replicate 20 34

def transferTable : List LogTableRow := [transferRow 0 bystander, transferRow 1 Seed.reserves]

def transferReserves : String := "0x5680681Ed3767B96914CE741a308155c7fb9171D"

theorem transferTopic0 (receiver : List UInt8) :
    "0x" ++ Seed.seedLibs.keccak (Seed.transferOfSeven receiver).signature = erc20TransferTopic0 := by
  have types : AbiType.canonicalList [("from", .address), ("to", .address), ("value", .uint 256)] =
      "address,address,uint256" := by decide +kernel
  have signature : (Seed.transferOfSeven receiver).signature = "Transfer(address,address,uint256)" := by
    change "Transfer" ++ "(" ++ AbiType.canonicalList [("from", .address), ("to", .address),
      ("value", .uint 256)] ++ ")" = _
    rw [types]
    decide +kernel
  have topic0 : "0x" ++ Seed.seedDigest "Transfer(address,address,uint256)" = erc20TransferTopic0 := by
    decide +kernel
  rw [signature]
  exact topic0

theorem eventTopics_transfer (receiver : List UInt8) : eventTopics Seed.seedLibs (Seed.transferOfSeven receiver) =
    erc20TransferTopic0 :: (Seed.transferOfSeven receiver).indexedArgs.map fun a => hexWord (argWord a) := by
  have signed : ¬ (Seed.transferOfSeven receiver).anonymous = true := Bool.false_ne_true
  rw [eventTopics, signatureTopics, if_neg signed, transferTopic0]
  rfl

theorem hexTopic_hexWord (bytes : List UInt8) : HexTopic (hexWord bytes) := by
  refine ⟨?_, startsWith_hexWord _⟩
  rw [hexWord, lower_append, lower_toHex]
  rfl

theorem transferTable_hex : HexTopics transferTable := by
  have row (logIndex : Int) (receiver : List UInt8) :
      ∀ topic ∈ (transferRow logIndex receiver).topics, HexTopic topic := by
    intro topic member
    rw [transferRow, eventTopics_transfer] at member
    rcases List.mem_cons.mp member with rfl | indexed
    · decide +kernel
    · obtain ⟨a, -, rfl⟩ := List.mem_map.mp indexed
      exact hexTopic_hexWord _
  simp only [HexTopics, transferTable, List.forall_mem_cons, List.not_mem_nil, false_implies, implies_true,
    and_true]
  exact ⟨row _ _, row _ _⟩

theorem transferTable_fetched : fetchLogsByAddress transferTable 1 [linkTokenAddress] 0 10
    (some [erc20TransferTopic0]) = transferTable.map (bqRowToRawLog · 1) := by
  have row (logIndex : Int) (receiver : List UInt8) : (inRange 0 10 (transferRow logIndex receiver) &&
      inUnnest (transferRow logIndex receiver).address ([linkTokenAddress].map lower) &&
      hasTopic0 (some [erc20TransferTopic0]) (transferRow logIndex receiver)) = true := by
    have address : inUnnest (some linkTokenAddress) ([linkTokenAddress].map lower) = true := by decide +kernel
    have topic0 : hasTopic0 (some [erc20TransferTopic0]) (transferRow logIndex receiver) = true := by
      rw [hasTopic0, transferRow, eventTopics_transfer]
      simp [inUnnest]
    rw [topic0, Bool.and_true]
    exact address
  rw [fetchLogsByAddress, List.filter_eq_self.mpr]
  simp only [transferTable, List.forall_mem_cons, List.not_mem_nil, false_implies, implies_true, and_true]
  exact ⟨row 0 bystander, row 1 Seed.reserves⟩

def rowEvent (logIndex : Int) (receiver : List UInt8) : DecodedEvent :=
  eventOf Seed.prefixed (bqRowToRawLog (transferRow logIndex receiver) 1) (Seed.transferOfSeven receiver).entry
    (plainParams (Seed.transferOfSeven receiver).indexedArgs)
    (plainParams (Seed.transferOfSeven receiver).dataArgs)

theorem transferRegistry_get (blockNumber : Int) (start : 0 ≤ blockNumber) :
    transferRegistry.get (lower linkTokenAddress) blockNumber = .ok erc20TransferAbi := by
  have covered : Phase.covers ⟨linkTokenAddress, "erc20_v1", 0, none⟩ blockNumber = true := by
    rw [Phase.covers, decide_eq_true start]
    rfl
  have phases : transferRegistry.phasesByAddress.get? (lower (lower linkTokenAddress)) =
      some [(⟨linkTokenAddress, "erc20_v1", 0, none⟩, erc20TransferAbi)] := by
    have lowered : lower (lower linkTokenAddress) = linkTokenAddress := by decide +kernel
    rw [lowered]
    rfl
  simp only [AbiRegistry.get, phases, List.find?_cons, covered]

theorem transferRegistry_linkAbi : LinkAbi Seed.seedLibs transferRegistry linkTokenAddress 0 10 :=
  fun blockNumber start _ => ⟨erc20TransferAbi, (Seed.transferOfSeven bystander).entry,
    transferRegistry_get blockNumber start, by
      rw [← transferTopic0 bystander]
      exact findEventAbi_signature _ (Seed.onlyTransfer bystander) rfl, rfl⟩

theorem rowEvent_decodable (logIndex : Int) (receiver : List UInt8) (size : receiver.length = 20) :
    Decodable Seed.prefixed Seed.seedLibs transferRegistry (bqRowToRawLog (transferRow logIndex receiver) 1)
      (rowEvent logIndex receiver) :=
  ⟨erc20TransferAbi, by
    change transferRegistry.get (lower (lower linkTokenAddress)) 7 = _
    rw [lower_lower]
    exact transferRegistry_get 7 (by decide), emitted_decodes Seed.prefixed Seed.seedDigest
    (Seed.onlyTransfer receiver) (Seed.transferOfSeven_words receiver size) _ rfl rfl⟩

theorem fetched_transfers_suffice_reserves :
    ∃ movements, logMovements Seed.prefixed Seed.seedLibs transferRegistry (fetchLogsByAddress transferTable 1
        [linkTokenAddress] 0 10 (some [erc20TransferTopic0])) = .ok movements ∧ movements.length = 2 ∧
      ∃ movements', logMovements Seed.prefixed Seed.seedLibs transferRegistry
          (fetchLinkTransferLogs transferTable 1 linkTokenAddress [transferReserves] 0 10) = .ok movements' ∧
        (∀ m ∈ movements', m.fromAddr ∈ [transferReserves].map lower ∨
          m.toAddr ∈ [transferReserves].map lower) ∧
        ∀ address ∈ [transferReserves], ∀ first last, computeBalanceDelta movements' address first last =
          computeBalanceDelta movements address first last := by
  have two : (buildMovementsFromTransferLogs Seed.prefixed [rowEvent 0 bystander, rowEvent 1 Seed.reserves]).map
      List.length = .ok 2 := by decide +kernel
  cases built : buildMovementsFromTransferLogs Seed.prefixed [rowEvent 0 bystander, rowEvent 1 Seed.reserves] with
  | error exc =>
      rw [built] at two
      cases two
  | ok movements =>
      rw [built] at two
      have decoded := decodedEvents_of_decodable Seed.prefixed Seed.seedLibs transferRegistry
        [bqRowToRawLog (transferRow 0 bystander) 1, bqRowToRawLog (transferRow 1 Seed.reserves) 1] _
        (.cons (rowEvent_decodable 0 bystander rfl) (.cons (rowEvent_decodable 1 Seed.reserves rfl) .nil))
      have all : logMovements Seed.prefixed Seed.seedLibs transferRegistry (fetchLogsByAddress transferTable 1
          [linkTokenAddress] 0 10 (some [erc20TransferTopic0])) = .ok movements := by
        rw [transferTable_fetched, logMovements, transferTable, List.map_cons, List.map_cons, List.map_nil,
          decoded, ok_bind, built]
      exact ⟨movements, all, Except.ok.inj two, fetched_transfers_suffice transferRegistry linkTokenAddress 0 10
        transferRegistry_linkAbi transferTable transferTable_hex 1 [transferReserves] _ (List.Perm.refl _)
        movements all⟩

end EconomicLedger.Extraction
