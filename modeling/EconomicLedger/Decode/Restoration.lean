import EconomicLedger.Decode.WordEncoding

/-!
# What decoding gives back

The log of an event decodes to the event unless it is anonymous with indexed arguments, a tuple is
among its data, a hashed argument cannot be read as a value, an indexed argument is bytes, its data
are empty or bytes stand inside an array.
-/

namespace EconomicLedger.Decode
open Model Text Fallible

/-! ## The entry of the event -/

variable (libs : ExternalLibs) {abi : Abi} {event : EmittedEvent}

theorem find?_event (only : OnlyEvent abi event) (p : AbiEntry → Bool) :
    (abi.jsonAbi.find? fun entry => entry.type = some "event" && p entry) =
      if p event.entry then some event.entry else none := by
  have filtered := congrArg (List.find? p) only
  rw [List.find?_filter] at filtered
  simp only [Bool.decide_and, Bool.decide_eq_true] at filtered
  rw [filtered, List.find?_cons]
  cases p event.entry <;> rfl

theorem eventSignature_entry (only : OnlyEvent abi event) :
    eventSignature libs abi event.name = .ok ("0x" ++ libs.keccak event.signature) := by
  have found : abi.entryNamed? "event" event.name = some event.entry := by
    have named : decide (event.entry.name = some event.name) = true := decide_eq_true rfl
    simp only [Abi.entryNamed?, Bool.decide_and]
    rw [find?_event only, if_pos named]
  rw [eventSignature, found]
  simp only [canonicalSignature, EmittedEvent.entry, canonicalTypes_args, EmittedEvent.signature]

theorem findEventAbi_signature (only : OnlyEvent abi event) (signed : event.anonymous = false) :
    findEventAbi libs abi ("0x" ++ libs.keccak event.signature) = some event.entry := by
  have starts : startsWith (lower ("0x" ++ libs.keccak event.signature)) "0x" = true := by
    rw [lower_append]
    exact startsWith_hexWord _
  simp only [findEventAbi, if_pos starts, Bool.and_assoc]
  rw [find?_event only]
  simp [EmittedEvent.entry, eventSignature_entry libs only, signed]

theorem findEventAbi_anonymous (only : OnlyEvent abi event) (anonymous : event.anonymous = true)
    (topic0 : String) : findEventAbi libs abi topic0 = none := by
  simp only [findEventAbi, Bool.and_assoc]
  rw [find?_event only]
  simp [EmittedEvent.entry, anonymous]

/-! ## Named values -/

theorem get?_named (args : List EventArg) (distinct : (args.map EventArg.name).Nodup)
    (f : EventArg → Value) (a : EventArg) (member : a ∈ args) :
    (Dict.ofList (args.map fun a => (a.name, f a))).get? a.name = some (f a) := by
  have names : ((args.map fun a => (a.name, f a)).map Prod.fst).Nodup := by
    rw [List.map_map]
    exact distinct
  rw [Dict.get?_eq_some_iff, Dict.ofList, Dict.entries_foldl_set _ _ (by simpa using names)]
  exact List.mem_append_right _ (List.mem_map.mpr ⟨a, member, rfl⟩)

/-! ## Topics -/

variable (encoding : AbiEncoding)

def topicValue (a : EventArg) : Except String Value :=
  match topicBytes encoding a with
  | some bytes => decodeIndexedInput libs (a.type.input a.name a.indexed) (hexWord bytes)
  | none => .error "not encoded"

def topicParams (args : List EventArg) : Dict String Value :=
  Dict.ofList (args.map fun a => (a.name, ((topicValue libs encoding a).toOption).getD .none))

variable {libs encoding}

theorem decodeIndexedInputs_topics (args : List EventArg) (topics : List String)
    (each : List.Forall₂ (fun a topic => ∃ bytes, topicBytes encoding a = some bytes ∧
      topic = hexWord bytes) args topics) (params : Dict String Value) :
    decodeIndexedInputs libs Dict.empty
        ((args.map fun a => a.type.input a.name a.indexed).zip topics) = .ok params ↔
      (∀ a ∈ args, ∃ value, topicValue libs encoding a = .ok value) ∧
        params = topicParams libs encoding args := by
  rw [topicParams, Dict.ofList, List.foldl_map]
  generalize Dict.empty = start
  induction each generalizing start with
  | nil => simp [decodeIndexedInputs, eq_comm]
  | @cons a topic args topics first _ ih =>
      obtain ⟨bytes, known, rfl⟩ := first
      have own : decodeIndexedInput libs (a.type.input a.name a.indexed) (hexWord bytes) =
          topicValue libs encoding a := by
        rw [topicValue, known]
      rw [List.map_cons, List.zip_cons_cons, decodeIndexedInputs, own, List.forall_mem_cons,
        List.foldl_cons]
      cases read : topicValue libs encoding a with
      | error exc => simp
      | ok value =>
          simp only [Except.ok.injEq, exists_eq', true_and]
          exact ih _

theorem decodeIndexedInput_address (input : AbiInput) (isAddress : input.type = "address")
    (topic addr : String) (read : topicToAddress topic = .ok addr) :
    decodeIndexedInput libs input topic = .ok (.str addr) := by
  rw [decodeIndexedInput, if_pos isAddress, read]

theorem decodeIndexedInput_other (input : AbiInput) (other : input.type ≠ "address") (bytes : List UInt8)
    (value : Value) : decodeIndexedInput libs input (hexWord bytes) = .ok value ↔
      ∃ rest, libs.abiDecode [input.type] bytes = .ok (value :: rest) := by
  rw [decodeIndexedInput, if_neg other, hexToBytes_hexWord]
  cases read : libs.abiDecode [input.type] bytes with
  | error exc => simp [read]
  | ok values => cases values <;> simp [read]

theorem startsWith_of_tupleBased (type : AbiType) (isTuple : type.tupleBased = true) :
    startsWith type.jsonType "tuple" = true := by
  have starts := type.startsWith_jsonType ""
  rwa [String.append_empty, isTuple] at starts

section
variable (inverts : InvertsEncoding libs encoding)
include inverts

theorem topicValue_word (a : EventArg) (isWord : a.type.isWord = true) (data : List UInt8)
    (encoded : encoding.encode [a.type] [a.value] = some data) :
    topicValue libs encoding a = .ok a.value := by
  have known : topicBytes encoding a = some data := by rw [topicBytes, if_pos isWord, encoded]
  simp only [topicValue, known]
  by_cases isAddress : a.type = .address
  · rw [isAddress] at encoded
    obtain ⟨bytes, size, rfl, value⟩ := inverts.address _ _ encoded
    rw [value]
    refine decodeIndexedInput_address _ ?_ _ _ (topicToAddress_hexWord bytes size)
    rw [AbiType.input_type, isAddress, AbiType.jsonType]
  · refine (decodeIndexedInput_other _ (a.type.jsonType_ne_address isAddress) data a.value).mpr ⟨[], ?_⟩
    rw [AbiType.input_type, a.type.jsonType_eq_canonical (a.type.tupleBased_of_isWord isWord)]
    exact inverts.inverts [a.type] [a.value] data encoded

theorem topicValue_hashed (a : EventArg) (hashed : a.type.isWord = false) :
    (∃ value, topicValue libs encoding a = .ok value) ↔
      a.type.tupleBased = false ∧
        BeginsWithValue encoding a.type (encoding.indexedHash a.type a.value) := by
  have other : a.type ≠ .address := by
    intro isAddress
    simp [isAddress, AbiType.isWord] at hashed
  have known : topicBytes encoding a = some (encoding.indexedHash a.type a.value) := by
    rw [topicBytes, if_neg (by simp [hashed])]
  have read : (∃ value, topicValue libs encoding a = .ok value) ↔ ∃ value rest,
      libs.abiDecode [a.type.jsonType] (encoding.indexedHash a.type a.value) = .ok (value :: rest) := by
    simp only [topicValue, known]
    exact exists_congr fun value =>
      decodeIndexedInput_other _ (a.type.jsonType_ne_address other) _ value
  rw [read]
  cases plain : a.type.tupleBased with
  | true =>
      obtain ⟨exc, rejected⟩ := inverts.rejectsTuple [a.type.jsonType]
        (encoding.indexedHash a.type a.value)
        ⟨_, List.mem_singleton_self _, startsWith_of_tupleBased a.type plain⟩
      simp [rejected]
  | false =>
      rw [a.type.jsonType_eq_canonical plain,
        inverts.oneWord a.type _ hashed (inverts.hashLength a.type a.value)]
      simp

/-! ## Data -/

omit inverts in
theorem decodeData_eq_ok_iff (inputs : List AbiInput) (bytes : List UInt8) (params : Dict String Value) :
    decodeData libs inputs bytes = .ok (.ok params) ↔
      inputs = [] ∧ params = Dict.empty ∨
        inputs ≠ [] ∧ bytes ≠ [] ∧ bytes.length % 32 = 0 ∧
          ∃ values, libs.abiDecode (inputs.map AbiInput.type) bytes = .ok values ∧
            values.length = inputs.length ∧
            params = Dict.ofList ((inputs.zip values).map fun (input, value) =>
              (input.name, dataParam input value)) := by
  rw [decodeData]
  by_cases none : inputs = []
  · simp [none, eq_comm]
  rw [if_neg none]
  by_cases ragged : bytes.length = 0 ∨ bytes.length % 32 ≠ 0
  · rw [if_pos ragged]
    constructor
    · intro failed
      cases failed
    · rintro (⟨empty, -⟩ | ⟨-, nonempty, whole, -⟩)
      · exact absurd empty none
      · exact absurd ragged (by simp [nonempty, whole])
  rw [if_neg ragged]
  obtain ⟨nonempty, whole⟩ := not_or.mp ragged
  have nonempty : bytes ≠ [] := fun blank => nonempty (by rw [blank, List.length_nil])
  cases read : libs.abiDecode (inputs.map AbiInput.type) bytes with
  | error exc => simp [none]
  | ok values =>
      by_cases arity : values.length = inputs.length
      · simp [none, nonempty, not_not.mp whole, arity, eq_comm]
      · simp [none, arity]

theorem decodeData_args (args : List EventArg) (data : List UInt8) (params : Dict String Value)
    (encoded : encoding.encode (args.map EventArg.type) (args.map EventArg.value) = some data) :
    decodeData libs (args.map fun a => a.type.input a.name a.indexed) data = .ok (.ok params) ↔
      (args ≠ [] → data ≠ []) ∧ (∀ a ∈ args, a.type.tupleBased = false) ∧
        params = Dict.ofList (args.map fun a =>
          (a.name, dataParam (a.type.input a.name a.indexed) a.value)) := by
  have types : (args.map fun a => a.type.input a.name a.indexed).map AbiInput.type =
      args.map fun a => a.type.jsonType := by
    rw [List.map_map]
    rfl
  have named : (((args.map fun a => a.type.input a.name a.indexed).zip (args.map EventArg.value)).map
      fun (input, value) => (input.name, dataParam input value)) =
        args.map fun a => (a.name, dataParam (a.type.input a.name a.indexed) a.value) := by
    rw [List.zip_map', List.map_map]
    rfl
  rw [decodeData_eq_ok_iff, types, List.map_eq_nil_iff]
  by_cases none : args = []
  · simp [none, Dict.ofList]
  by_cases plain : ∀ a ∈ args, a.type.tupleBased = false
  · have spelled : (args.map fun a => a.type.jsonType) = (args.map EventArg.type).map AbiType.canonical := by
      rw [List.map_map]
      exact List.map_congr_left fun a member => a.type.jsonType_eq_canonical (plain a member)
    rw [spelled, inverts.inverts _ _ _ encoded, inverts.words _ _ _ encoded]
    simp only [none, false_and, ne_eq, not_false_eq_true, true_and, false_or, forall_const,
      Except.ok.injEq, exists_eq_left', List.length_map, List.map_eq_nil_iff, named]
    exact and_congr_right fun _ => ⟨fun same => ⟨plain, same⟩, fun both => both.2⟩
  · obtain ⟨a, member, isTuple⟩ : ∃ a ∈ args, a.type.tupleBased = true := by simpa using plain
    obtain ⟨exc, rejected⟩ := inverts.rejectsTuple (args.map fun a => a.type.jsonType) data
      ⟨_, List.mem_map_of_mem member, startsWith_of_tupleBased a.type isTuple⟩
    simp only [rejected, none, plain, reduceCtorEq, false_and, exists_false, and_false, or_false]

/-! ## Bytes in hexadecimal -/

end

mutual
theorem hexed_eq_self_iff : (value : Value) → (hexed value = value ↔ holdsBytes value = false)
  | .bytes bytes => by simp [hexed, holdsBytes]
  | .seq values => by rw [hexed, Value.seq.injEq, holdsBytes, hexedList_eq_self_iff values]
  | .none => by simp [hexed, holdsBytes]
  | .bool b => by simp [hexed, holdsBytes]
  | .int n => by simp [hexed, holdsBytes]
  | .str text => by simp [hexed, holdsBytes]
theorem hexedList_eq_self_iff :
    (values : List Value) → (hexedList values = values ↔ anyHoldsBytes values = false)
  | [] => by simp [hexedList, anyHoldsBytes]
  | value :: rest => by
      rw [hexedList, List.cons.injEq, anyHoldsBytes, Bool.or_eq_false_iff, hexed_eq_self_iff value,
        hexedList_eq_self_iff rest]
end

theorem holdsBytes_word (type : AbiType) (value : Value) (isWord : WordValue type value) :
    holdsBytes value = type.isBytesWord := by
  cases type <;> simp only [WordValue] at isWord
  all_goals
    obtain ⟨_, rfl⟩ := isWord
    simp [holdsBytes, AbiType.isBytesWord]

theorem dataParam_other (input : AbiInput) (other : input.type ≠ "address") (value : Value) :
    dataParam input value = hexed value ↔ ∀ values, value = .seq values → anyHoldsBytes values = false := by
  unfold dataParam
  rw [if_neg other]
  cases value with
  | seq values =>
      have inner := hexedList_eq_self_iff values
      rw [eq_comm] at inner
      simpa only [hexed, Value.seq.injEq, forall_eq'] using inner
  | _ => simp [hexed]

theorem dataParam_arg (inverts : InvertsEncoding libs encoding) (a : EventArg)
    (encoded : ∃ part, encoding.encode [a.type] [a.value] = some part) :
    dataParam (a.type.input a.name a.indexed) a.value = hexed a.value ↔
      ∀ values, a.value = .seq values → anyHoldsBytes values = false := by
  by_cases isAddress : a.type = .address
  · obtain ⟨part, encoded⟩ := encoded
    rw [isAddress] at encoded
    obtain ⟨bytes, -, -, value⟩ := inverts.address _ _ encoded
    have lowered : lower ("0x" ++ toHex bytes) = "0x" ++ toHex bytes := by
      rw [lower_append, lower_toHex]
      rfl
    have isInput : (a.type.input a.name a.indexed).type = "address" := by
      rw [AbiType.input_type, isAddress, AbiType.jsonType]
    unfold dataParam
    rw [value, if_pos isInput]
    simp [lowered, hexed]
  · exact dataParam_other _ (a.type.jsonType_ne_address isAddress) a.value

/-! ## Decoding the log of an event -/

theorem indexedInputs_entry (event : EmittedEvent) :
    indexedInputs event.entry = event.indexedArgs.map fun a => a.type.input a.name a.indexed := by
  rw [indexedInputs, EmittedEvent.entry, List.filter_map]
  rfl

theorem nonIndexedInputs_entry (event : EmittedEvent) :
    nonIndexedInputs event.entry = event.dataArgs.map fun a => a.type.input a.name a.indexed := by
  rw [nonIndexedInputs, EmittedEvent.entry, List.filter_map]
  rfl

theorem selectEvent_signed (only : OnlyEvent abi event) (log : RawLog) (topics : List String)
    (built : log.topics = signatureTopics libs event ++ topics)
    (signed : event.anonymous = true → topics = []) :
    ∃ consumed, selectEvent libs log abi = .ok (event.entry, consumed) ∧
      log.topics.drop consumed = topics := by
  cases anonymous : event.anonymous with
  | true =>
      have none := signed anonymous
      have found := find?_event only fun entry => entry.anonymous
      rw [signatureTopics, if_pos anonymous, none, List.append_nil] at built
      refine ⟨0, ?_, by rw [built, none, List.drop_nil]⟩
      simp only [selectEvent, built, found, EmittedEvent.entry, anonymous, if_true]
  | false =>
      rw [signatureTopics, if_neg (by simp [anonymous]), List.singleton_append] at built
      refine ⟨1, ?_, by rw [built, List.drop_one, List.tail_cons]⟩
      simp only [selectEvent, built, findEventAbi_signature libs only anonymous]

theorem selectEvent_unsigned (only : OnlyEvent abi event) (log : RawLog) (topic : String)
    (topics : List String) (built : log.topics = signatureTopics libs event ++ topic :: topics)
    (anonymous : event.anonymous = true) : ∃ detail, selectEvent libs log abi = .error detail := by
  rw [signatureTopics, if_pos anonymous, List.nil_append] at built
  simp only [selectEvent, built, findEventAbi_anonymous libs only anonymous]
  exact ⟨_, rfl⟩

theorem decodesBack_iff (sha256 : Digest) (log : RawLog) :
    DecodesBack libs sha256 abi event log ↔
      ∃ ev, DecodesTo sha256 libs log abi ev ∧ ev.eventName = event.name ∧
        (∀ a ∈ event.indexedArgs, a.type.isWord = true →
          ev.indexedParams.get? a.name = some (hexed a.value)) ∧
        ∀ a ∈ event.dataArgs, ev.dataParams.get? a.name = some (hexed a.value) := by
  constructor
  · rintro ⟨outcome, ev, decoded, -, isEv, named, indexed, data⟩
    exact ⟨ev, (decodeLog_decoded_iff sha256 libs log abi ev).mp ⟨outcome, decoded, isEv⟩, named,
      indexed, data⟩
  · rintro ⟨ev, decodes, named, indexed, data⟩
    have success := (decodeLog_success_iff sha256 libs log abi _).mpr ⟨ev, decodes, rfl⟩
    exact ⟨_, ev, success.1, success.2, rfl, named, indexed, data⟩

section
variable (inverts : InvertsEncoding libs encoding) (only : OnlyEvent abi event)
include inverts only

omit inverts in
theorem signed_of_decodes (sha256 : Digest) (log : RawLog)
    (encodes : EncodesEvent libs encoding event log) (ev : DecodedEvent)
    (decodes : DecodesTo sha256 libs log abi ev) (anonymous : event.anonymous = true) :
    event.indexedArgs = [] := by
  obtain ⟨topics, built, each⟩ := encodes.topics
  obtain ⟨entry, consumed, indexedParams, bytes, dataParams, chosen, -⟩ := decodes
  cases topics with
  | nil => exact List.forall₂_nil_right_iff.mp each
  | cons topic topics =>
      obtain ⟨detail, failed⟩ := selectEvent_unsigned only log topic topics built anonymous
      rw [failed] at chosen
      cases chosen

theorem decodesTo_iff (sha256 : Digest) (log : RawLog) (encodes : EncodesEvent libs encoding event log)
    (ev : DecodedEvent) : DecodesTo sha256 libs log abi ev ↔
      (event.anonymous = true → event.indexedArgs = []) ∧
        (∀ a ∈ event.indexedArgs, ∃ value, topicValue libs encoding a = .ok value) ∧
        (event.dataArgs ≠ [] → encoding.encode (event.dataArgs.map EventArg.type)
          (event.dataArgs.map EventArg.value) ≠ some []) ∧
        (∀ a ∈ event.dataArgs, a.type.tupleBased = false) ∧
        ev = eventOf sha256 log event.entry (topicParams libs encoding event.indexedArgs)
          (Dict.ofList (event.dataArgs.map fun a =>
            (a.name, dataParam (a.type.input a.name a.indexed) a.value))) := by
  have needed := signed_of_decodes only sha256 log encodes ev
  obtain ⟨⟨topics, built, each⟩, bytes, encoded, data⟩ := encodes
  have lengths : (indexedInputs event.entry).length = topics.length := by
    rw [indexedInputs_entry, List.length_map, each.length_eq]
  have read : hexToBytes log.data = .ok bytes := by rw [data, hexToBytes_hexWord]
  have blank : encoding.encode (event.dataArgs.map EventArg.type)
      (event.dataArgs.map EventArg.value) ≠ some [] ↔ bytes ≠ [] := by
    rw [encoded, ne_eq, Option.some.injEq]
  rw [blank]
  by_cases signed : event.anonymous = true → event.indexedArgs = []
  · have noTopics : event.anonymous = true → topics = [] := by
      intro anonymous
      rw [signed anonymous] at each
      exact List.forall₂_nil_left_iff.mp each
    obtain ⟨consumed, chosen, rest⟩ := selectEvent_signed only log topics built noTopics
    constructor
    · rintro ⟨entry, consumed', indexedParams, bytes', dataParams, chosen', -, indexed, read', dataDecoded, rfl⟩
      obtain ⟨rfl, rfl⟩ := Prod.mk.inj (Except.ok.inj (chosen.symm.trans chosen'))
      obtain rfl := Except.ok.inj (read.symm.trans read')
      rw [rest, indexedInputs_entry, decodeIndexedInputs_topics _ _ each] at indexed
      rw [nonIndexedInputs_entry, decodeData_args inverts _ _ _ encoded] at dataDecoded
      obtain ⟨values, rfl⟩ := indexed
      obtain ⟨nonempty, plain, rfl⟩ := dataDecoded
      exact ⟨signed, values, nonempty, plain, rfl⟩
    · rintro ⟨-, values, nonempty, plain, rfl⟩
      refine ⟨event.entry, consumed, _, bytes, _, chosen, by rw [rest, lengths], ?_, read, ?_, rfl⟩
      · rw [rest, indexedInputs_entry, decodeIndexedInputs_topics _ _ each]
        exact ⟨values, rfl⟩
      · rw [nonIndexedInputs_entry, decodeData_args inverts _ _ _ encoded]
        exact ⟨nonempty, plain, rfl⟩
  · constructor
    · intro decodes
      exact absurd (needed decodes) signed
    · rintro ⟨signed', -⟩
      exact absurd signed' signed

omit only in
theorem topicParams_word (distinct : (event.indexedArgs.map EventArg.name).Nodup) (log : RawLog)
    (encodes : EncodesEvent libs encoding event log) (a : EventArg) (member : a ∈ event.indexedArgs)
    (isWord : a.type.isWord = true) :
    (topicParams libs encoding event.indexedArgs).get? a.name = some (hexed a.value) ↔
      a.type.isBytesWord = false := by
  obtain ⟨⟨topics, -, each⟩, -⟩ := encodes
  obtain ⟨topic, -, data, encoded, -⟩ := exists_of_forall₂_left each a member
  rw [topicBytes, if_pos isWord] at encoded
  have value := inverts.wordValue a.type a.value data isWord encoded
  rw [topicParams, get?_named event.indexedArgs distinct _ a member,
    topicValue_word inverts a isWord data encoded, Option.some.injEq, eq_comm]
  exact (hexed_eq_self_iff a.value).trans (by rw [holdsBytes_word a.type a.value value])

omit only in
theorem dataParams_arg (distinct : (event.dataArgs.map EventArg.name).Nodup) (log : RawLog)
    (encodes : EncodesEvent libs encoding event log) (a : EventArg) (member : a ∈ event.dataArgs) :
    (Dict.ofList (event.dataArgs.map fun a =>
        (a.name, dataParam (a.type.input a.name a.indexed) a.value))).get? a.name =
          some (hexed a.value) ↔
      ∀ values, a.value = .seq values → anyHoldsBytes values = false := by
  obtain ⟨-, bytes, encoded, -⟩ := encodes
  have each := inverts.each _ _ _ encoded
  rw [List.forall₂_map_left_iff, List.forall₂_map_right_iff, List.forall₂_same] at each
  rw [get?_named event.dataArgs distinct _ a member, Option.some.injEq]
  exact dataParam_arg inverts a (each a member)

omit inverts only in
theorem isWord_of_isBytesWord (type : AbiType) (isBytes : type.isBytesWord = true) :
    type.isWord = true := by
  cases type <;> simp_all [AbiType.isBytesWord, AbiType.isWord]

/-- The log of an event that is the only one of its ABI decodes back to the event exactly when it is
`Restorable`. -/
theorem decodeLog_undoes_encoding_iff (sha256 : Digest) (distinct : (event.args.map EventArg.name).Nodup)
    (log : RawLog) (encodes : EncodesEvent libs encoding event log) :
    DecodesBack libs sha256 abi event log ↔ Restorable encoding event := by
  have distinctIndexed : (event.indexedArgs.map EventArg.name).Nodup :=
    distinct.sublist (List.filter_sublist.map _)
  have distinctData : (event.dataArgs.map EventArg.name).Nodup :=
    distinct.sublist (List.filter_sublist.map _)
  rw [decodesBack_iff]
  constructor
  · rintro ⟨ev, decodes, -, indexed, data⟩
    obtain ⟨signed, values, nonempty, plain, rfl⟩ :=
      (decodesTo_iff inverts only sha256 log encodes ev).mp decodes
    refine ⟨signed, fun a member hashed => (topicValue_hashed inverts a hashed).mp (values a member),
      fun a member => ?_, plain, nonempty, fun a member => ?_⟩
    · by_contra isBytes
      have isWord := isWord_of_isBytesWord a.type (by simpa using isBytes)
      exact isBytes ((topicParams_word inverts distinctIndexed log encodes a member isWord).mp
        (indexed a member isWord))
    · exact (dataParams_arg inverts distinctData log encodes a member).mp (data a member)
  · intro restorable
    refine ⟨_, (decodesTo_iff inverts only sha256 log encodes _).mpr ⟨restorable.signed,
      fun a member => ?_, restorable.nonempty, restorable.tupleFree, rfl⟩, rfl,
      fun a member isWord => ?_, fun a member => ?_⟩
    · cases isWord : a.type.isWord with
      | true =>
          obtain ⟨⟨topics, -, each⟩, -⟩ := encodes
          obtain ⟨topic, -, data, encoded, -⟩ := exists_of_forall₂_left each a member
          rw [topicBytes, if_pos isWord] at encoded
          exact ⟨_, topicValue_word inverts a isWord data encoded⟩
      | false => exact (topicValue_hashed inverts a isWord).mpr (restorable.hashes a member isWord)
    · exact (topicParams_word inverts distinctIndexed log encodes a member isWord).mpr
        (restorable.topicBytes a member)
    · exact (dataParams_arg inverts distinctData log encodes a member).mpr
        (restorable.innerBytes a member)

end

/-! ### Two events -/

def holderText : String := "0x" ++ toHex (List.replicate 20 0x11)

def holderTopic : String := hexWord (List.replicate 12 0 ++ List.replicate 20 0x11)

def abiOf (event : EmittedEvent) : Abi := ⟨"1", [event.entry]⟩

theorem onlyEvent_abiOf (event : EmittedEvent) : OnlyEvent (abiOf event) event := rfl

def logOf (topics : List String) (data : List UInt8) : RawLog :=
  { chainId := 1
    blockNumber := 100
    blockHash := "0x0b"
    txHash := "0xab"
    txIndex := 0
    logIndex := 0
    address := "0xb0"
    topics := topics
    data := hexWord data }

theorem holder_encoded : encodeWords [.address] [.str holderText] =
    some (List.replicate 12 0 ++ List.replicate 20 0x11) :=
  (encodeWords_singleton_iff _ _ _).mpr (encodeWord_address _ List.length_replicate)

def stakedEvent : EmittedEvent :=
  ⟨"Staked", false, [⟨"staker", .address, true, .str holderText⟩, ⟨"amount", .uint 256, false, .int 5⟩]⟩

theorem stakedEvent_encoded : EncodesEvent wordLibs wordEncoding stakedEvent
    (logOf (signatureTopics wordLibs stakedEvent ++ [holderTopic]) (wordBytes 32 5)) where
  topics := ⟨[holderTopic], rfl, List.Forall₂.cons ⟨_, holder_encoded, rfl⟩ List.Forall₂.nil⟩
  data := ⟨_, (encodeWords_singleton_iff (.uint 256) (.int 5) _).mpr (encodeWord_uint 5 (by decide)), rfl⟩

theorem stakedEvent_restorable : Restorable wordEncoding stakedEvent where
  signed := by decide
  hashes := by
    intro a member hashed
    rw [List.mem_singleton.mp member] at hashed
    cases hashed
  topicBytes := by decide
  tupleFree := by decide
  nonempty := by
    intro _ empty
    have encoded : encodeWords [.uint 256] [.int 5] = some (wordBytes 32 5) :=
      (encodeWords_singleton_iff _ _ _).mpr (encodeWord_uint 5 (by decide))
    exact absurd (encoded.symm.trans empty) (by decide +kernel)
  innerBytes := by
    intro a member values isSeq
    rw [List.mem_singleton.mp member] at isSeq
    cases isSeq

theorem decodeLog_undoes_encoding_staked :
    DecodesBack wordLibs id (abiOf stakedEvent) stakedEvent
      (logOf (signatureTopics wordLibs stakedEvent ++ [holderTopic]) (wordBytes 32 5)) :=
  (decodeLog_undoes_encoding_iff (wordEncoding_inverts _) (onlyEvent_abiOf _) id (by decide) _
    stakedEvent_encoded).mpr stakedEvent_restorable

def pingEvent : EmittedEvent := ⟨"Ping", true, [⟨"who", .address, true, .str holderText⟩]⟩

/-- The topic of an anonymous event is taken for a signature that no event has. -/
theorem anonymous_topic_lost :
    InvertsEncoding wordLibs wordEncoding ∧ OnlyEvent (abiOf pingEvent) pingEvent ∧
      (pingEvent.args.map EventArg.name).Nodup ∧
      EncodesEvent wordLibs wordEncoding pingEvent (logOf [holderTopic] []) ∧
      ¬ DecodesBack wordLibs id (abiOf pingEvent) pingEvent (logOf [holderTopic] []) := by
  have encoded : EncodesEvent wordLibs wordEncoding pingEvent (logOf [holderTopic] []) :=
    { topics := ⟨[holderTopic], rfl, List.Forall₂.cons ⟨_, holder_encoded, rfl⟩ List.Forall₂.nil⟩
      data := ⟨[], rfl, rfl⟩ }
  refine ⟨wordEncoding_inverts _, rfl, by decide, encoded, fun restored => ?_⟩
  obtain ⟨ev, decodes, -⟩ := (decodesBack_iff id _).mp restored
  obtain ⟨signed, -⟩ := (decodesTo_iff (wordEncoding_inverts _) (onlyEvent_abiOf _) id _ encoded ev).mp decodes
  cases signed rfl

end EconomicLedger.Decode
