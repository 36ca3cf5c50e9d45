import EconomicLedger.Lib.Fallible
import EconomicLedger.Lib.Keyed
import EconomicLedger.Model.EventDecoder

/-!
# What a log decodes to

`Decodable` says when a log decodes and to which event. The event does not depend on the letter
case of the transaction hash, the address and topic0, nor on the block hash, and its identifier
tells the position of the log.
-/

namespace EconomicLedger.Decode
open Model Text Fallible

variable (sha256 : Digest) (libs : ExternalLibs)

def indexedInputs (entry : AbiEntry) : List AbiInput := entry.inputs.filter (·.indexed)

def nonIndexedInputs (entry : AbiEntry) : List AbiInput := entry.inputs.filter (!·.indexed)

def DecodesTo (log : RawLog) (abi : Abi) (ev : DecodedEvent) : Prop :=
  ∃ entry topicConsumed indexedParams bytes dataParams,
    selectEvent libs log abi = .ok (entry, topicConsumed) ∧
    (indexedInputs entry).length = (log.topics.drop topicConsumed).length ∧
    decodeIndexedInputs libs Dict.empty
      ((indexedInputs entry).zip (log.topics.drop topicConsumed)) = .ok indexedParams ∧
    hexToBytes log.data = .ok bytes ∧
    decodeData libs (nonIndexedInputs entry) bytes = .ok (.ok dataParams) ∧
    ev = eventOf sha256 log entry indexedParams dataParams

theorem decodeLog_success_iff (log : RawLog) (abi : Abi) (outcome : DecodeResult DecodedEvent) :
    (decodeLog sha256 libs log abi = .ok outcome ∧ outcome.success = true) ↔
      ∃ ev, DecodesTo sha256 libs log abi ev ∧
        outcome = succeededResult (computeRawLogId sha256 log) ev := by
  constructor
  · rintro ⟨decoded, success⟩
    unfold decodeLog at decoded
    cases chosen : selectEvent libs log abi with
    | error detail =>
        simp only [chosen, Except.ok.injEq] at decoded
        simp [← decoded, failedResult] at success
    | ok choice =>
        obtain ⟨entry, topicConsumed⟩ := choice
        simp only [chosen] at decoded
        split_ifs at decoded with lengths
        · simp only [Except.ok.injEq] at decoded
          simp [← decoded, failedResult] at success
        · cases indexed : decodeIndexedInputs libs Dict.empty
              ((indexedInputs entry).zip (log.topics.drop topicConsumed)) with
          | error exc =>
              unfold indexedInputs at indexed
              simp only [indexed, Except.ok.injEq] at decoded
              simp [← decoded, failedResult] at success
          | ok indexedParams =>
              unfold indexedInputs at indexed
              simp only [indexed, bind_eq_ok_iff] at decoded
              obtain ⟨bytes, data, read, dataDecoded, rest⟩ := decoded
              cases read with
              | error failure =>
                  simp only [pure_eq_ok_iff] at rest
                  simp [← rest, failedResult] at success
              | ok dataParams =>
                  simp only [pure_eq_ok_iff] at rest
                  exact ⟨_, ⟨entry, topicConsumed, indexedParams, bytes, dataParams, chosen,
                    not_not.mp lengths, indexed, data, dataDecoded, rfl⟩, rest.symm⟩
  · rintro ⟨ev, ⟨entry, topicConsumed, indexedParams, bytes, dataParams, chosen, lengths, indexed,
      data, dataDecoded, rfl⟩, rfl⟩
    unfold indexedInputs at lengths indexed
    unfold nonIndexedInputs at dataDecoded
    refine ⟨?_, rfl⟩
    simp only [decodeLog, chosen, lengths, indexed, data, dataDecoded, bind, Except.bind, ne_eq,
      not_true_eq_false, if_false]
    rfl

theorem decodeLog_decoded_iff (log : RawLog) (abi : Abi) (ev : DecodedEvent) :
    (∃ outcome, decodeLog sha256 libs log abi = .ok outcome ∧ outcome.decoded = some ev) ↔
      DecodesTo sha256 libs log abi ev := by
  constructor
  · rintro ⟨outcome, decoded, event⟩
    have success : outcome.success = true := by
      unfold decodeLog at decoded
      split at decoded
      · cases decoded
        cases event
      · dsimp only at decoded
        split at decoded
        · cases decoded
          cases event
        · split at decoded
          · cases decoded
            cases event
          · simp only [bind_eq_ok_iff] at decoded
            obtain ⟨bytes, -, read, -, rest⟩ := decoded
            cases read with
            | error failure =>
                cases rest
                cases event
            | ok dataParams =>
                cases rest
                rfl
    obtain ⟨ev', decodes, rfl⟩ :=
      (decodeLog_success_iff sha256 libs log abi outcome).mp ⟨decoded, success⟩
    cases event
    exact decodes
  · intro decodes
    exact ⟨_, ((decodeLog_success_iff sha256 libs log abi _).mpr ⟨ev, decodes, rfl⟩).1, rfl⟩

/-! ## Batches -/

def Decodable (abis : AbiRegistry) (log : RawLog) (ev : DecodedEvent) : Prop :=
  ∃ abi, abis.get (lower log.address) log.blockNumber = .ok abi ∧ DecodesTo sha256 libs log abi ev

def AllDecode (abis : AbiRegistry) (logs : List RawLog) : Prop :=
  ∃ outcomes, decodeLogsBatch sha256 libs abis logs = .ok outcomes ∧
    ∀ outcome ∈ outcomes, outcome.success = true

instance (abis : AbiRegistry) (logs : List RawLog) : Decidable (AllDecode sha256 libs abis logs) :=
  match batch : decodeLogsBatch sha256 libs abis logs with
  | .ok outcomes =>
      decidable_of_iff (∀ outcome ∈ outcomes, outcome.success = true)
        ⟨fun all => ⟨outcomes, batch, all⟩, fun ⟨_, same, all⟩ => by
          rw [batch, Except.ok.injEq] at same
          exact same ▸ all⟩
  | .error exc => isFalse fun ⟨_, same, _⟩ => by
      rw [batch] at same
      cases same

def decodedEvents (abis : AbiRegistry) (logs : List RawLog) : Py (List DecodedEvent) := do
  let outcomes ← decodeLogsBatch sha256 libs abis logs
  return outcomes.filterMap DecodeResult.decoded

theorem decodeLogsBatch_of_decodable (abis : AbiRegistry) (logs : List RawLog)
    (events : List DecodedEvent) (each : List.Forall₂ (Decodable sha256 libs abis) logs events) :
    decodeLogsBatch sha256 libs abis logs =
      .ok (List.zipWith (fun log ev => succeededResult (computeRawLogId sha256 log) ev)
        logs events) := by
  rw [decodeLogsBatch, mapM_eq_ok_iff]
  induction each with
  | nil => exact List.Forall₂.nil
  | cons first _ ih =>
      obtain ⟨abi, found, decodes⟩ := first
      refine List.Forall₂.cons ?_ ih
      rw [found]
      exact ((decodeLog_success_iff sha256 libs _ abi _).mpr ⟨_, decodes, rfl⟩).1

theorem decodedEvents_of_decodable (abis : AbiRegistry) (logs : List RawLog)
    (events : List DecodedEvent) (each : List.Forall₂ (Decodable sha256 libs abis) logs events) :
    decodedEvents sha256 libs abis logs = .ok events := by
  have collected : (List.zipWith (fun log ev => succeededResult (computeRawLogId sha256 log) ev)
      logs events).filterMap DecodeResult.decoded = events := by
    induction each with
    | nil => rfl
    | cons _ _ ih => exact congrArg (List.cons _) ih
  rw [decodedEvents, decodeLogsBatch_of_decodable sha256 libs abis logs events each]
  exact congrArg Except.ok collected

theorem decodable_of_allDecode (abis : AbiRegistry) (logs : List RawLog)
    (all : AllDecode sha256 libs abis logs) :
    ∃ events, List.Forall₂ (Decodable sha256 libs abis) logs events := by
  obtain ⟨outcomes, decoded, success⟩ := all
  rw [decodeLogsBatch, mapM_eq_ok_iff] at decoded
  induction decoded with
  | nil => exact ⟨[], List.Forall₂.nil⟩
  | @cons log outcome logs outcomes first _ ih =>
      obtain ⟨here, below⟩ := List.forall_mem_cons.mp success
      obtain ⟨events, each⟩ := ih below
      cases found : abis.get (lower log.address) log.blockNumber with
      | error exc =>
          simp only [found, Except.ok.injEq] at first
          simp [← first, failedResult] at here
      | ok abi =>
          simp only [found] at first
          obtain ⟨ev, decodes, -⟩ :=
            (decodeLog_success_iff sha256 libs log abi outcome).mp ⟨first, here⟩
          exact ⟨ev :: events, List.Forall₂.cons ⟨abi, found, decodes⟩ each⟩

/-! ## Letter case -/

/-- The same log, up to the letter case of its hashes and addresses and up to its block hash. -/
structure Recased (log log' : RawLog) : Prop where
  chainId : log'.chainId = log.chainId
  blockNumber : log'.blockNumber = log.blockNumber
  txHash : lower log'.txHash = lower log.txHash
  logIndex : log'.logIndex = log.logIndex
  address : lower log'.address = lower log.address
  topic0 : log'.topics.head?.map lower = log.topics.head?.map lower
  topics : log'.topics.tail = log.topics.tail
  data : log'.data = log.data

theorem findEventAbi_recased (abi : Abi) (topic0 topic0' : String)
    (same : lower topic0' = lower topic0) :
    findEventAbi libs abi topic0' = findEventAbi libs abi topic0 := by
  unfold findEventAbi
  rw [same]

theorem selectEvent_recased (log log' : RawLog) (recased : Recased log log') (abi : Abi)
    (choice : AbiEntry × Nat) (chosen : selectEvent libs log abi = .ok choice) :
    selectEvent libs log' abi = .ok choice ∧
      log'.topics.drop choice.2 = log.topics.drop choice.2 := by
  have head := recased.topic0
  have tail := recased.topics
  unfold selectEvent at chosen ⊢
  cases topics : log.topics with
  | nil =>
      cases topics' : log'.topics with
      | nil =>
          rw [topics] at chosen
          exact ⟨chosen, rfl⟩
      | cons topic0' rest' => simp [topics, topics'] at head
  | cons topic0 rest =>
      cases topics' : log'.topics with
      | nil => simp [topics, topics'] at head
      | cons topic0' rest' =>
          simp only [topics, topics', List.head?_cons, Option.map_some, Option.some.injEq,
            List.tail_cons] at head tail
          simp only [topics] at chosen
          simp only [findEventAbi_recased libs abi topic0 topic0' head]
          cases found : findEventAbi libs abi topic0 with
          | none => simp [found] at chosen
          | some entry =>
              simp only [found, Except.ok.injEq] at chosen
              exact ⟨congrArg Except.ok chosen, by simp [← chosen, tail]⟩

theorem eventOf_recased (log log' : RawLog) (recased : Recased log log') (entry : AbiEntry)
    (indexedParams dataParams : Dict String Value) :
    eventOf sha256 log' entry indexedParams dataParams =
      eventOf sha256 log entry indexedParams dataParams := by
  simp only [eventOf, computeRawLogId, computeDecodedEventId, recased.chainId, recased.blockNumber,
    recased.txHash, recased.logIndex, recased.address, recased.topic0]

theorem decodable_recased (abis : AbiRegistry) (log log' : RawLog) (recased : Recased log log')
    (ev : DecodedEvent) (decodes : Decodable sha256 libs abis log ev) :
    Decodable sha256 libs abis log' ev := by
  obtain ⟨abi, found, entry, topicConsumed, indexedParams, bytes, dataParams, chosen, lengths,
    indexed, data, dataDecoded, rfl⟩ := decodes
  obtain ⟨chosen', topics⟩ := selectEvent_recased libs log log' recased abi _ chosen
  refine ⟨abi, ?_, entry, topicConsumed, indexedParams, bytes, dataParams, chosen', ?_, ?_, ?_,
    dataDecoded, (eventOf_recased sha256 log log' recased entry indexedParams dataParams).symm⟩
  · rw [recased.address, recased.blockNumber, found]
  · rw [topics, lengths]
  · rw [topics, indexed]
  · rw [recased.data, data]

def Rerun (logs logs' : List RawLog) : Prop :=
  ∃ reordered, logs.Perm reordered ∧ List.Forall₂ Recased reordered logs'

theorem decodable_rerun (abis : AbiRegistry) (logs logs' : List RawLog) (rerun : Rerun logs logs')
    (events : List DecodedEvent) (each : List.Forall₂ (Decodable sha256 libs abis) logs events) :
    ∃ events', List.Forall₂ (Decodable sha256 libs abis) logs' events' ∧ events'.Perm events := by
  obtain ⟨reordered, same, recased⟩ := rerun
  obtain ⟨events', each', same'⟩ := List.perm_comp_forall₂ same.symm each
  refine ⟨events', ?_, same'⟩
  clear same same' each
  induction recased generalizing events' with
  | nil =>
      cases each'
      exact List.Forall₂.nil
  | cons first _ ih =>
      cases each' with
      | cons decodes below =>
          exact List.Forall₂.cons (decodable_recased sha256 libs abis _ _ first _ decodes)
            (ih _ below)

/-! ## Event identifiers -/

def logPosition (log : RawLog) : Int × Int × String × Int :=
  (log.chainId, log.blockNumber, lower log.txHash, log.logIndex)

theorem decodedEventId_eq (abis : AbiRegistry) (log : RawLog) (ev : DecodedEvent)
    (decodes : Decodable sha256 libs abis log ev) :
    ev.decodedEventId = sha256 (joinBar ["decoded_event", toString log.chainId,
      toString log.blockNumber, lower log.txHash, toString log.logIndex]) := by
  obtain ⟨abi, -, entry, topicConsumed, indexedParams, bytes, dataParams, -, -, -, -, -, rfl⟩ :=
    decodes
  simp only [eventOf, computeDecodedEventId, lower_lower]

theorem position_key_inj (log log' : RawLog)
    (same : joinBar ["decoded_event", toString log.chainId, toString log.blockNumber,
        lower log.txHash, toString log.logIndex] =
      joinBar ["decoded_event", toString log'.chainId, toString log'.blockNumber,
        lower log'.txHash, toString log'.logIndex]) : logPosition log = logPosition log' := by
  have tag : BarFree "decoded_event" := by decide
  obtain ⟨-, same⟩ := (joinBar_cons_inj tag tag (by simp) (by simp)).mp same
  obtain ⟨chainId, same⟩ :=
    (joinBar_cons_inj (barFree_int _) (barFree_int _) (by simp) (by simp)).mp same
  obtain ⟨blockNumber, same⟩ :=
    (joinBar_cons_inj (barFree_int _) (barFree_int _) (by simp) (by simp)).mp same
  -- the transaction hash may hold bars: the log index is read off the other end
  obtain ⟨txHash, logIndex⟩ := (joinBar_concat_inj (x := [lower log.txHash])
    (y := [lower log'.txHash]) (barFree_int _) (barFree_int _) (by simp) (by simp)).mp same
  simp only [toString_int_inj] at chainId blockNumber logIndex
  simp only [joinBar] at txHash
  simp only [logPosition, chainId, blockNumber, txHash, logIndex]

theorem decodedEventId_nodup (injective : Function.Injective sha256) (abis : AbiRegistry)
    (logs : List RawLog) (distinct : (logs.map logPosition).Nodup) (events : List DecodedEvent)
    (each : List.Forall₂ (Decodable sha256 libs abis) logs events) :
    (events.map DecodedEvent.decodedEventId).Nodup := by
  have ids : events.map DecodedEvent.decodedEventId = logs.map fun log =>
      sha256 (joinBar ["decoded_event", toString log.chainId, toString log.blockNumber,
        lower log.txHash, toString log.logIndex]) := by
    clear distinct
    induction each with
    | nil => rfl
    | cons first _ ih => rw [List.map_cons, List.map_cons, ih, decodedEventId_eq _ _ _ _ _ first]
  rw [ids]
  exact Keyed.nodup_map_of_key logPosition _ distinct fun log _ log' _ same =>
    position_key_inj log log' (injective same)

end EconomicLedger.Decode
