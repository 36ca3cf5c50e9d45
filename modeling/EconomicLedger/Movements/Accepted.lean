import EconomicLedger.Decode.Logs
import EconomicLedger.Decode.Words
import EconomicLedger.Movements.Built

/-!
# From logs to movements

The decoder reads topic0 with or without its prefix, the builder compares the text it was given, so a
log is decoded as a transfer and then passed over when its topic0 has no prefix.
-/

namespace EconomicLedger.Movements
open Model Text Decode Fallible

variable (sha256 : Digest) (libs : ExternalLibs) (abi : Abi)

/-! ## Transfers -/

def transferEntry : AbiEntry :=
  { type := some "event"
    name := some "Transfer"
    anonymous := false
    inputs := [{ name := "from", type := "address", indexed := true, components := [] },
      { name := "to", type := "address", indexed := true, components := [] },
      { name := "value", type := "uint256", indexed := false, components := [] }] }

/-- The log decodes, as the transfer event. -/
def Accepted (log : RawLog) : Prop :=
  selectEvent libs log abi = .ok (transferEntry, 1) ∧ ∃ ev, DecodesTo sha256 libs log abi ev

def decodedOf (log : RawLog) : Option DecodedEvent :=
  match decodeLog sha256 libs log abi with
  | .ok outcome => outcome.decoded
  | .error _ => none

def eventsOf (logs : List RawLog) : List DecodedEvent := logs.filterMap (decodedOf sha256 libs abi)

/-- The low 20 bytes of a topic of 32. -/
def lowAddress (topic : String) : String := "0x" ++ lower (sliceFrom topic (topic.length - 40))

structure MovementOf (log : RawLog) (m : TokenMovement) : Prop where
  addresses : ∃ topic0 topic1 topic2, log.topics = [topic0, topic1, topic2] ∧
    m.fromAddr = lowAddress topic1 ∧ m.toAddr = lowAddress topic2
  amount : ∃ bytes, hexToBytes log.data = .ok bytes ∧ m.amount = bigEndian (bytes.take 32)
  evidence : m.evidenceIds = [computeRawLogId sha256 log]

/-- The log yields its movement once if it is accepted, and none otherwise. -/
def YieldsOnce (log : RawLog) (own : List TokenMovement) : Prop :=
  buildMovementsFromTransferLogs sha256 (eventsOf sha256 libs abi [log]) = .ok own ∧
    (Accepted sha256 libs abi log → ∃ m, own = [m] ∧ MovementOf sha256 log m) ∧
    (¬ Accepted sha256 libs abi log → own = [])

/-- `eth_abi` reads a `uint256` from the first word. -/
def ReadsUint256 : Prop :=
  ∀ data : List UInt8, 32 ≤ data.length →
    libs.abiDecode ["uint256"] data = .ok [.int (bigEndian (data.take 32))]

/-! ## One log -/

theorem decodedOf_eq_some_iff (log : RawLog) (ev : DecodedEvent) :
    decodedOf sha256 libs abi log = some ev ↔ DecodesTo sha256 libs log abi ev := by
  rw [← decodeLog_decoded_iff, decodedOf]
  cases decodeLog sha256 libs log abi with
  | error exc => simp
  | ok outcome => simp

theorem isTransfer_iff (log : RawLog) (ev : DecodedEvent) (decodes : DecodesTo sha256 libs log abi ev) :
    ev.isTransfer = true ↔ log.topics.head?.map lower = some erc20TransferTopic0 := by
  obtain ⟨entry, _, indexedParams, _, dataParams, -, -, -, -, -, rfl⟩ := decodes
  unfold DecodedEvent.isTransfer eventOf
  cases topics : log.topics with
  | nil => simpa using (by decide : lower "" ≠ erc20TransferTopic0)
  | cons topic0 rest => simp

theorem topicToAddress_eq (topic address : String) (read : topicToAddress topic = .ok address) :
    address = lowAddress topic := by
  unfold topicToAddress at read
  unfold lowAddress
  cases spelled : startsWith topic "0x" with
  | true =>
      simp only [spelled, if_true] at read
      split_ifs at read with whole
      rw [whole]
      exact (Except.ok.inj read).symm
  | false =>
      simp only [spelled, Bool.false_eq_true, if_false] at read
      split_ifs at read with whole
      have length : topic.length = 64 := by
        rw [String.length_append] at whole
        have marker : "0x".length = 2 := rfl
        omega
      have last : sliceFrom ("0x" ++ topic) 26 = sliceFrom topic 24 := by
        rw [sliceFrom, String.toList_append]
        rfl
      rw [length, ← last]
      exact (Except.ok.inj read).symm

theorem decodeIndexed_transfer (topics : List String) (params : Dict String Value)
    (matched : (indexedInputs transferEntry).length = topics.length)
    (read : decodeIndexedInputs libs Dict.empty ((indexedInputs transferEntry).zip topics) = .ok params) :
    ∃ topic1 topic2, topics = [topic1, topic2] ∧
      params = (Dict.empty.set "from" (.str (lowAddress topic1))).set "to" (.str (lowAddress topic2)) := by
  obtain ⟨topic1, topic2, rfl⟩ := List.length_eq_two.mp matched.symm
  refine ⟨topic1, topic2, rfl, ?_⟩
  have inputs : (indexedInputs transferEntry).zip [topic1, topic2] =
      [({ name := "from", type := "address", indexed := true, components := [] }, topic1),
        ({ name := "to", type := "address", indexed := true, components := [] }, topic2)] := rfl
  rw [inputs] at read
  simp only [decodeIndexedInputs, decodeIndexedInput, if_true] at read
  cases first : topicToAddress topic1 with
  | error exc => simp [first] at read
  | ok sender =>
      cases second : topicToAddress topic2 with
      | error exc => simp [first, second] at read
      | ok recipient =>
          simp only [first, second, Except.ok.injEq] at read
          rw [← topicToAddress_eq topic1 sender first, ← topicToAddress_eq topic2 recipient second, read]

theorem decodeData_transfer (reads : ReadsUint256 libs) (bytes : List UInt8) (params : Dict String Value)
    (read : decodeData libs (nonIndexedInputs transferEntry) bytes = .ok (.ok params)) :
    params.get? "value" = some (.int (bigEndian (bytes.take 32))) := by
  have inputs : nonIndexedInputs transferEntry =
      [{ name := "value", type := "uint256", indexed := false, components := [] }] := rfl
  rw [inputs] at read
  unfold decodeData at read
  rw [if_neg (List.cons_ne_nil _ _)] at read
  by_cases malformed : bytes.length = 0 ∨ bytes.length % 32 ≠ 0
  · rw [if_pos malformed] at read
    cases read
  · rw [if_neg malformed] at read
    have long : 32 ≤ bytes.length := by omega
    simp only [List.map_cons, List.map_nil, reads bytes long] at read
    cases read
    rfl

theorem lower_lowAddress (topic : String) : lower (lowAddress topic) = lowAddress topic := by
  rw [lowAddress, lower_append, lower_lower]
  rfl

theorem movementOf_accepted (reads : ReadsUint256 libs) (log : RawLog) (ev : DecodedEvent)
    (chosen : selectEvent libs log abi = .ok (transferEntry, 1)) (decodes : DecodesTo sha256 libs log abi ev) :
    ∃ amount, ev.transferAmount = .ok amount ∧ MovementOf sha256 log (logMovement sha256 ev amount) := by
  obtain ⟨entry, consumed, indexedParams, bytes, dataParams, chosen', matched, indexed, data, read, rfl⟩ :=
    decodes
  rw [chosen] at chosen'
  cases chosen'
  obtain ⟨topic1, topic2, topics, rfl⟩ := decodeIndexed_transfer libs _ _ matched indexed
  have value := decodeData_transfer libs reads bytes dataParams read
  refine ⟨bigEndian (bytes.take 32), ?_, ?_, ⟨bytes, data, rfl⟩, rfl⟩
  · unfold DecodedEvent.transferAmount eventOf
    rw [value]
    rfl
  · obtain ⟨topic0, whole⟩ : ∃ topic0, log.topics = [topic0, topic1, topic2] := by
      cases all : log.topics with
      | nil =>
          rw [all] at topics
          cases topics
      | cons topic0 rest =>
          rw [all] at topics
          exact ⟨topic0, congrArg (List.cons topic0) topics⟩
    exact ⟨topic0, topic1, topic2, whole, lower_lowAddress topic1, lower_lowAddress topic2⟩

/-- Only the transfer event is decoded from a log under its topic0, prefix included. -/
structure Spelled (log : RawLog) : Prop where
  accepted : Accepted sha256 libs abi log → log.topics.head?.map lower = some erc20TransferTopic0
  others : ∀ ev, DecodesTo sha256 libs log abi ev → ¬ Accepted sha256 libs abi log →
    log.topics.head?.map lower ≠ some erc20TransferTopic0

theorem build_single (ev : DecodedEvent) (own : List TokenMovement)
    (built : buildMovementsFromTransferLogs sha256 [ev] = .ok own) :
    own = if ev.isTransfer = true then [builtLog sha256 ev] else [] := by
  obtain ⟨-, rfl⟩ := (buildMovementsFromTransferLogs_eq_ok_iff sha256 [ev] own).mp built
  cases transfer : ev.isTransfer <;> simp [transfer]

theorem build_other (ev : DecodedEvent) (other : ¬ ev.isTransfer = true) :
    buildMovementsFromTransferLogs sha256 [ev] = .ok [] := by
  rw [buildMovementsFromTransferLogs, if_neg other]
  rfl

theorem eventsOf_decoded (log : RawLog) (ev : DecodedEvent) (decodes : DecodesTo sha256 libs log abi ev) :
    eventsOf sha256 libs abi [log] = [ev] := by
  have decoded := (decodedOf_eq_some_iff sha256 libs abi log ev).mpr decodes
  simp [eventsOf, decoded]

theorem yieldsOnce_undecoded (log : RawLog) (undecoded : decodedOf sha256 libs abi log = none) :
    YieldsOnce sha256 libs abi log [] ∧ Spelled sha256 libs abi log := by
  have nothing (ev : DecodedEvent) : ¬ DecodesTo sha256 libs log abi ev := by
    rw [← decodedOf_eq_some_iff, undecoded]
    exact nofun
  have rejected : ¬ Accepted sha256 libs abi log := fun ⟨_, ev, decodes⟩ => nothing ev decodes
  have events : eventsOf sha256 libs abi [log] = [] := by simp [eventsOf, undecoded]
  constructor
  · refine ⟨?_, fun accepted => absurd accepted rejected, fun _ => rfl⟩
    rw [events]
    rfl
  · exact ⟨fun accepted => absurd accepted rejected, fun ev decodes => absurd decodes (nothing ev)⟩

theorem yieldsOnce_accepted_iff (reads : ReadsUint256 libs) (log : RawLog)
    (accepted : Accepted sha256 libs abi log) :
    (∃ own, YieldsOnce sha256 libs abi log own) ↔
      log.topics.head?.map lower = some erc20TransferTopic0 := by
  obtain ⟨chosen, ev, decodes⟩ := accepted
  have transfer := isTransfer_iff sha256 libs abi log ev decodes
  have events := eventsOf_decoded sha256 libs abi log ev decodes
  constructor
  · rintro ⟨own, built, one, -⟩
    obtain ⟨m, rfl, -⟩ := one ⟨chosen, ev, decodes⟩
    rw [events] at built
    by_contra unspelled
    have none := build_single sha256 ev _ built
    rw [if_neg fun isTransfer => unspelled (transfer.mp isTransfer)] at none
    cases none
  · intro spelled
    obtain ⟨amount, converts, own⟩ := movementOf_accepted sha256 libs abi reads log ev chosen decodes
    refine ⟨[logMovement sha256 ev amount], ?_, fun _ => ⟨_, rfl, own⟩,
      fun rejected => absurd ⟨chosen, ev, decodes⟩ rejected⟩
    rw [events, buildMovementsFromTransferLogs, if_pos (transfer.mpr spelled), converts]
    rfl

theorem yieldsOnce_rejected_iff (log : RawLog) (ev : DecodedEvent)
    (decodes : DecodesTo sha256 libs log abi ev) (rejected : ¬ Accepted sha256 libs abi log) :
    (∃ own, YieldsOnce sha256 libs abi log own) ↔
      log.topics.head?.map lower ≠ some erc20TransferTopic0 := by
  have transfer := isTransfer_iff sha256 libs abi log ev decodes
  have events := eventsOf_decoded sha256 libs abi log ev decodes
  constructor
  · rintro ⟨own, built, -, none⟩ head
    rw [events] at built
    have one := build_single sha256 ev own built
    rw [none rejected, if_pos (transfer.mpr head)] at one
    cases one
  · intro unspelled
    refine ⟨[], ?_, fun accepted => absurd accepted rejected, fun _ => rfl⟩
    rw [events]
    exact build_other sha256 ev fun isTransfer => unspelled (transfer.mp isTransfer)

theorem yieldsOnce_iff (reads : ReadsUint256 libs) (log : RawLog) :
    (∃ own, YieldsOnce sha256 libs abi log own) ↔ Spelled sha256 libs abi log := by
  cases decoded : decodedOf sha256 libs abi log with
  | none =>
      obtain ⟨yields, spelled⟩ := yieldsOnce_undecoded sha256 libs abi log decoded
      exact iff_of_true ⟨[], yields⟩ spelled
  | some ev =>
      have decodes := (decodedOf_eq_some_iff sha256 libs abi log ev).mp decoded
      by_cases accepted : Accepted sha256 libs abi log
      · rw [yieldsOnce_accepted_iff sha256 libs abi reads log accepted]
        exact ⟨fun spelled => ⟨fun _ => spelled, fun _ _ rejected => absurd accepted rejected⟩,
          fun spelled => spelled.accepted accepted⟩
      · rw [yieldsOnce_rejected_iff sha256 libs abi log ev decodes accepted]
        exact ⟨fun other => ⟨fun here => absurd here accepted, fun _ _ _ => other⟩,
          fun spelled => spelled.others ev decodes accepted⟩

/-! ## Lists of logs -/

theorem build_append (events events' : List DecodedEvent) (own own' : List TokenMovement)
    (built : buildMovementsFromTransferLogs sha256 events = .ok own)
    (built' : buildMovementsFromTransferLogs sha256 events' = .ok own') :
    buildMovementsFromTransferLogs sha256 (events ++ events') = .ok (own ++ own') := by
  rw [buildMovementsFromTransferLogs_eq_ok_iff] at built built' ⊢
  obtain ⟨converts, rfl⟩ := built
  obtain ⟨converts', rfl⟩ := built'
  rw [List.filter_append, List.map_append]
  exact ⟨List.forall_mem_append.mpr ⟨converts, converts'⟩, rfl⟩

def YieldsEachOnce (logs : List RawLog) : Prop :=
  ∃ each, List.Forall₂ (YieldsOnce sha256 libs abi) logs each ∧
    buildMovementsFromTransferLogs sha256 (eventsOf sha256 libs abi logs) = .ok each.flatten

theorem YieldsEachOnce.each (logs : List RawLog) (yields : YieldsEachOnce sha256 libs abi logs) :
    ∀ log ∈ logs, ∃ own, YieldsOnce sha256 libs abi log own := by
  obtain ⟨each, yields, -⟩ := yields
  induction yields with
  | nil => exact fun log member => absurd member List.not_mem_nil
  | @cons log own _ _ first _ ih => exact List.forall_mem_cons.mpr ⟨⟨own, first⟩, ih⟩

theorem transfer_logs_yield_iff (reads : ReadsUint256 libs) (logs : List RawLog) :
    YieldsEachOnce sha256 libs abi logs ↔ ∀ log ∈ logs, Spelled sha256 libs abi log := by
  constructor
  · intro yields log member
    exact (yieldsOnce_iff sha256 libs abi reads log).mp (yields.each sha256 libs abi logs log member)
  · intro spelled
    induction logs with
    | nil => exact ⟨[], List.Forall₂.nil, rfl⟩
    | cons log rest ih =>
        obtain ⟨here, below⟩ := List.forall_mem_cons.mp spelled
        obtain ⟨own, first⟩ := (yieldsOnce_iff sha256 libs abi reads log).mpr here
        obtain ⟨each, others, built⟩ := ih below
        have events : eventsOf sha256 libs abi (log :: rest) =
            eventsOf sha256 libs abi [log] ++ eventsOf sha256 libs abi rest :=
          List.filterMap_append (l := [log])
        refine ⟨own :: each, List.Forall₂.cons first others, ?_⟩
        rw [events, List.flatten_cons]
        exact build_append sha256 _ _ _ _ first.1 built

/-! ## The prefix -/

theorem eventSignature_transfer (named : abi.entryNamed? "event" "Transfer" = some transferEntry)
    (known : "0x" ++ libs.keccak "Transfer(address,address,uint256)" = erc20TransferTopic0) :
    eventSignature libs abi "Transfer" = .ok erc20TransferTopic0 := by
  have signature : canonicalSignature "Transfer" transferEntry.inputs =
      "Transfer(address,address,uint256)" := by decide
  rw [eventSignature, named]
  simp only
  rw [signature, known]

theorem accepted_topic0 (named : abi.entryNamed? "event" "Transfer" = some transferEntry)
    (known : "0x" ++ libs.keccak "Transfer(address,address,uint256)" = erc20TransferTopic0)
    (log : RawLog) (accepted : Accepted sha256 libs abi log) :
    ∃ topic0, log.topics.head? = some topic0 ∧
      (if startsWith (lower topic0) "0x" then lower topic0 else "0x" ++ lower topic0) = erc20TransferTopic0 := by
  have chosen := accepted.1
  unfold selectEvent at chosen
  cases topics : log.topics with
  | nil =>
      simp only [topics] at chosen
      split at chosen <;> cases chosen
  | cons topic0 rest =>
      refine ⟨topic0, rfl, ?_⟩
      simp only [topics] at chosen
      cases found : findEventAbi libs abi topic0 with
      | none => simp [found] at chosen
      | some entry =>
          simp only [found, Except.ok.injEq, Prod.mk.injEq, and_true] at chosen
          subst chosen
          have matched := List.find?_some found
          have own := eventSignature_transfer libs abi named known
          have name : transferEntry.name = some "Transfer" := rfl
          simp only [name, own, lower_erc20TransferTopic0, Bool.and_eq_true, decide_eq_true_eq] at matched
          exact matched.2.symm

/-- Under an ABI whose `Transfer` is this event, an accepted log is built from exactly if its topic0
has the prefix. -/
theorem accepted_built_iff (named : abi.entryNamed? "event" "Transfer" = some transferEntry)
    (known : "0x" ++ libs.keccak "Transfer(address,address,uint256)" = erc20TransferTopic0)
    (log : RawLog) (accepted : Accepted sha256 libs abi log) :
    log.topics.head?.map lower = some erc20TransferTopic0 ↔
      ∃ topic0, log.topics.head? = some topic0 ∧ startsWith (lower topic0) "0x" = true := by
  obtain ⟨topic0, head, spelled⟩ := accepted_topic0 sha256 libs abi named known log accepted
  rw [head, Option.map_some, Option.some.injEq]
  constructor
  · intro same
    exact ⟨topic0, rfl, by rw [same]; decide⟩
  · rintro ⟨_, same, isPrefixed⟩
    rw [← Option.some.inj same] at isPrefixed
    rwa [isPrefixed, if_pos rfl] at spelled

theorem selectEvent_found (log : RawLog) (topic0 : String) (rest : List String)
    (topics : log.topics = topic0 :: rest) (entry : AbiEntry)
    (found : findEventAbi libs abi topic0 = some entry) :
    selectEvent libs log abi = .ok (entry, 1) := by
  rw [selectEvent, topics]
  simp only [found]

/-! ## One transfer -/

def transferDigest (text : String) : String :=
  if text = "Transfer(address,address,uint256)" then
    "ddf252ad1be2c89b69c2b068fc378daa952ba7f163c4a11628f55a4df523b3ef"
  else ""

def transferLibs : ExternalLibs := ⟨wordDecode, transferDigest⟩

def transferAbi : Abi := ⟨"v1", [transferEntry]⟩

def transferTopics : List String :=
  ["0x000000000000000000000000aaaaaaaaaaaaaaaaaaaaaaaaaaaaaaaaaaaaaaaa",
    "0x000000000000000000000000BBBBBBBBBBBBBBBBBBBBBBBBBBBBBBBBBBBBBBBB"]

def transferData : String := "0x0000000000000000000000000000000000000000000000000000000000000007"

def transferLog (topic0 : String) : RawLog :=
  { chainId := 1
    blockNumber := 100
    blockHash := "0x0a"
    txHash := "0xab"
    txIndex := 0
    logIndex := 3
    address := "0x514910771af9ca656af840dff83e8264ecf986ca"
    topics := topic0 :: transferTopics
    data := transferData }

theorem readsUint256_wordDecode : ReadsUint256 transferLibs := by
  intro data long
  have whole : ¬ data.length < 32 := by omega
  change wordDecode ["uint256"] data = _
  rw [wordDecode, if_neg whole]
  rfl

theorem findEventAbi_transfer (topic0 : String)
    (spelled : (if startsWith (lower topic0) "0x" then lower topic0 else "0x" ++ lower topic0) =
      erc20TransferTopic0) :
    findEventAbi transferLibs transferAbi topic0 = some transferEntry := by
  have own := eventSignature_transfer transferLibs transferAbi rfl rfl
  have entries : transferAbi.jsonAbi = [transferEntry] := rfl
  have kind : transferEntry.type = some "event" ∧ transferEntry.anonymous = false := ⟨rfl, rfl⟩
  have name : transferEntry.name = some "Transfer" := rfl
  rw [findEventAbi, spelled, entries]
  simp [kind, name, own]

theorem accepted_transferLog (topic0 : String)
    (spelled : (if startsWith (lower topic0) "0x" then lower topic0 else "0x" ++ lower topic0) =
      erc20TransferTopic0) :
    Accepted id transferLibs transferAbi (transferLog topic0) := by
  have chosen := selectEvent_found transferLibs transferAbi (transferLog topic0) topic0 transferTopics rfl
    transferEntry (findEventAbi_transfer topic0 spelled)
  have read : (decodeIndexedInputs transferLibs Dict.empty
        ((indexedInputs transferEntry).zip transferTopics)).toOption.isSome = true ∧
      hexToBytes transferData = .ok (List.replicate 31 0 ++ [7]) := by
    decide +kernel
  obtain ⟨params, indexed⟩ := Option.isSome_iff_exists.mp read.1
  have params : decodeIndexedInputs transferLibs Dict.empty
      ((indexedInputs transferEntry).zip transferTopics) = .ok params := by
    cases decoded : decodeIndexedInputs transferLibs Dict.empty
        ((indexedInputs transferEntry).zip transferTopics) with
    | error exc => simp [decoded, Except.toOption] at indexed
    | ok found => simpa [decoded, Except.toOption] using indexed
  exact ⟨chosen, _, transferEntry, 1, _, _, _, chosen, rfl, params, read.2, rfl, rfl⟩

theorem transfer_logs_yield_uppercase : YieldsEachOnce id transferLibs transferAbi
    [transferLog "0XDDF252AD1BE2C89B69C2B068FC378DAA952BA7F163C4A11628F55A4DF523B3EF"] := by
  have lowered : lower "0XDDF252AD1BE2C89B69C2B068FC378DAA952BA7F163C4A11628F55A4DF523B3EF" =
      erc20TransferTopic0 := by decide +kernel
  have hasPrefix : startsWith erc20TransferTopic0 "0x" = true := by decide
  have accepted := accepted_transferLog
    "0XDDF252AD1BE2C89B69C2B068FC378DAA952BA7F163C4A11628F55A4DF523B3EF"
    (by rw [lowered, if_pos hasPrefix])
  apply (transfer_logs_yield_iff id transferLibs transferAbi readsUint256_wordDecode _).mpr
  intro log member
  obtain rfl := List.mem_singleton.mp member
  exact ⟨fun _ => congrArg some lowered, fun _ _ rejected => absurd accepted rejected⟩

/-- The same log without the prefix is decoded and yields nothing. -/
theorem unprefixed_transfer_dropped :
    Accepted id transferLibs transferAbi
        (transferLog "ddf252ad1be2c89b69c2b068fc378daa952ba7f163c4a11628f55a4df523b3ef") ∧
      ¬ YieldsEachOnce id transferLibs transferAbi
        [transferLog "ddf252ad1be2c89b69c2b068fc378daa952ba7f163c4a11628f55a4df523b3ef"] := by
  have lowered : lower "ddf252ad1be2c89b69c2b068fc378daa952ba7f163c4a11628f55a4df523b3ef" =
      "ddf252ad1be2c89b69c2b068fc378daa952ba7f163c4a11628f55a4df523b3ef" := by decide +kernel
  have noPrefix : ¬ startsWith "ddf252ad1be2c89b69c2b068fc378daa952ba7f163c4a11628f55a4df523b3ef"
      "0x" = true := by decide
  have accepted := accepted_transferLog
    "ddf252ad1be2c89b69c2b068fc378daa952ba7f163c4a11628f55a4df523b3ef"
    (by
      rw [lowered, if_neg noPrefix]
      decide)
  refine ⟨accepted, fun yields => ?_⟩
  have yielded := yields.each id transferLibs transferAbi _ _ List.mem_cons_self
  have spelled := (yieldsOnce_iff id transferLibs transferAbi readsUint256_wordDecode _).mp yielded
  exact absurd (spelled.accepted accepted) (by decide)

end EconomicLedger.Movements
