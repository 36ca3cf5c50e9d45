import EconomicLedger.Decode.Logs

/-!
# Batches of logs

A log is answered by an event or by a structured failure unless its decoding reaches a data string that
is no hexadecimal: then the whole batch raises.
-/

namespace EconomicLedger.Decode
open Model Text Fallible

variable (sha256 : Digest) (libs : ExternalLibs)

/-- `eth_abi.decode` returns one value for each type. -/
def OneValuePerType : Prop :=
  ∀ types bytes values, libs.abiDecode types bytes = .ok values → values.length = types.length

/-- An event and no failure, or a failure with its reason and no event. -/
structure Answers (log : RawLog) (result : DecodeResult DecodedEvent) : Prop where
  rawId : result.rawId = computeRawLogId sha256 log
  outcome : (result.success = true ∧ (∃ ev, result.decoded = some ev) ∧ result.failureReason = none) ∨
    (result.success = false ∧ result.decoded = none ∧ ∃ reason, result.failureReason = some reason)

/-- The log selects an event of the ABI and its topics decode. -/
def TopicsDecode (log : RawLog) (abi : Abi) : Prop :=
  ∃ entry topicConsumed indexedParams,
    selectEvent libs log abi = .ok (entry, topicConsumed) ∧
    (indexedInputs entry).length = (log.topics.drop topicConsumed).length ∧
    decodeIndexedInputs libs Dict.empty
      ((indexedInputs entry).zip (log.topics.drop topicConsumed)) = .ok indexedParams

/-- The decoding of the log reaches its data. -/
def ReachesData (abis : AbiRegistry) (log : RawLog) : Prop :=
  ∃ abi, abis.get (lower log.address) log.blockNumber = .ok abi ∧ TopicsDecode libs log abi

def HexData (log : RawLog) : Prop := ∃ bytes, hexToBytes log.data = .ok bytes

theorem answers_failed (log : RawLog) (reason : DecodeFailureReason) (detail : String) :
    Answers sha256 log (failedResult (computeRawLogId sha256 log) reason detail) :=
  ⟨rfl, Or.inr ⟨rfl, rfl, reason, rfl⟩⟩

theorem answers_succeeded (log : RawLog) (ev : DecodedEvent) :
    Answers sha256 log (succeededResult (computeRawLogId sha256 log) ev) :=
  ⟨rfl, Or.inl ⟨rfl, ⟨ev, rfl⟩, rfl⟩⟩

theorem decodeData_ok (oneValue : OneValuePerType libs) (inputs : List AbiInput) (bytes : List UInt8) :
    ∃ read, decodeData libs inputs bytes = .ok read := by
  unfold decodeData
  split
  · exact ⟨_, rfl⟩
  · split
    · exact ⟨_, rfl⟩
    · cases decoded : libs.abiDecode (inputs.map AbiInput.type) bytes with
      | error exc => exact ⟨_, rfl⟩
      | ok values =>
          have lengths : values.length = inputs.length := by
            rw [oneValue _ _ _ decoded, List.length_map]
          simp only [if_pos lengths]
          exact ⟨_, rfl⟩

theorem decodeLog_raises (log : RawLog) (abi : Abi) (topics : TopicsDecode libs log abi)
    (exc : PyError) (malformed : hexToBytes log.data = .error exc) :
    decodeLog sha256 libs log abi = .error exc := by
  obtain ⟨entry, topicConsumed, indexedParams, selected, lengths, indexed⟩ := topics
  unfold indexedInputs at lengths indexed
  simp only [decodeLog, selected, lengths, indexed, malformed, ne_eq, not_true_eq_false, if_false]
  rfl

theorem decodeLog_answers (oneValue : OneValuePerType libs) (log : RawLog) (abi : Abi)
    (readable : TopicsDecode libs log abi → HexData log) :
    ∃ result, decodeLog sha256 libs log abi = .ok result ∧ Answers sha256 log result := by
  unfold decodeLog
  cases selected : selectEvent libs log abi with
  | error detail => exact ⟨_, rfl, answers_failed sha256 log _ _⟩
  | ok choice =>
      obtain ⟨entry, topicConsumed⟩ := choice
      dsimp only
      split_ifs with lengths
      · exact ⟨_, rfl, answers_failed sha256 log _ _⟩
      · cases indexed : decodeIndexedInputs libs Dict.empty
            ((indexedInputs entry).zip (log.topics.drop topicConsumed)) with
        | error exc =>
            unfold indexedInputs at indexed
            simp only [indexed]
            exact ⟨_, rfl, answers_failed sha256 log _ _⟩
        | ok indexedParams =>
            obtain ⟨bytes, data⟩ :=
              readable ⟨entry, topicConsumed, indexedParams, selected, not_not.mp lengths, indexed⟩
            obtain ⟨read, decoded⟩ := decodeData_ok libs oneValue (nonIndexedInputs entry) bytes
            unfold indexedInputs at indexed
            unfold nonIndexedInputs at decoded
            simp only [indexed, data, ok_bind, decoded]
            cases read with
            | error failure => exact ⟨_, rfl, answers_failed sha256 log _ _⟩
            | ok dataParams => exact ⟨_, rfl, answers_succeeded sha256 log _⟩

/-! ## The batch -/

/-- One answer for each log, in order. -/
def BatchAnswers (abis : AbiRegistry) (logs : List RawLog) : Prop :=
  ∃ results, decodeLogsBatch sha256 libs abis logs = .ok results ∧
    List.Forall₂ (Answers sha256) logs results

/-- A batch is answered exactly when the data of every log that its decoding reaches are hexadecimal. -/
theorem decodeLogsBatch_answers_iff (oneValue : OneValuePerType libs) (abis : AbiRegistry)
    (logs : List RawLog) :
    BatchAnswers sha256 libs abis logs ↔ ∀ log ∈ logs, ReachesData libs abis log → HexData log := by
  unfold BatchAnswers decodeLogsBatch
  constructor
  · rintro ⟨results, answered, -⟩ log member ⟨abi, registered, topics⟩
    obtain ⟨result, decoded⟩ := ok_of_mem_mapM _ answered log member
    simp only [registered] at decoded
    cases data : hexToBytes log.data with
    | ok bytes => exact ⟨bytes, data⟩
    | error exc =>
        rw [decodeLog_raises sha256 libs log abi topics exc data] at decoded
        cases decoded
  · intro readable
    apply exists_mapM
    intro log member
    cases registered : abis.get (lower log.address) log.blockNumber with
    | error exc => exact ⟨_, rfl, answers_failed sha256 log _ _⟩
    | ok abi =>
        exact decodeLog_answers sha256 libs oneValue log abi fun topics =>
          readable log member ⟨abi, registered, topics⟩

/-! ### A digit too few -/

/-- Nothing is decoded. -/
def silentLibs : ExternalLibs := ⟨fun _ _ => .error "", id⟩

def pingAbi : Abi :=
  { abiVersion := "v1"
    jsonAbi := [{ type := some "event", name := some "Ping", anonymous := true, inputs := [] }] }

def pingPhase : Phase :=
  { contractAddress := "0xb0", abiVersion := "v1", fromBlock := 0, toBlock := none }

def pingRegistry : AbiRegistry := ⟨Dict.empty.set "0xb0" [(pingPhase, pingAbi)]⟩

def pingLog (data : String) : RawLog :=
  { chainId := 1
    blockNumber := 100
    blockHash := "0xbb"
    txHash := "0x01"
    txIndex := 0
    logIndex := 0
    address := "0xb0"
    topics := []
    data := data }

theorem decodeLogsBatch_answers_ping :
    BatchAnswers id silentLibs pingRegistry [pingLog "0x", pingLog "0x00"] := by
  refine (decodeLogsBatch_answers_iff id silentLibs (fun _ _ _ none => by cases none) pingRegistry
    [pingLog "0x", pingLog "0x00"]).mpr ?_
  intro log member _
  rcases List.mem_pair.mp member with rfl | rfl
  · exact ⟨_, rfl⟩
  · exact ⟨_, rfl⟩

/-- The odd data of one log lose the other log of the batch. -/
theorem odd_data_loses_batch :
    BatchAnswers id silentLibs pingRegistry [pingLog "0x00"] ∧
      ¬ BatchAnswers id silentLibs pingRegistry [pingLog "0x00", pingLog "0x1"] := by
  constructor
  · exact ⟨_, rfl, .cons (answers_succeeded id _ _) .nil⟩
  · rintro ⟨results, answered, -⟩
    cases answered

end EconomicLedger.Decode
