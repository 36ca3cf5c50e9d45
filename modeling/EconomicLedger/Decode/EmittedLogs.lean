import EconomicLedger.Decode.Restoration

/-!
# Emitted logs

The log of an event of addresses and amounts, and the event that decoding it yields.
-/

namespace EconomicLedger.Decode
open Model Text

/-! ## Arguments -/

def addressArg (name : String) (indexed : Bool) (bytes : List UInt8) : EventArg :=
  ⟨name, .address, indexed, .str ("0x" ++ toHex bytes)⟩

def amountArg (name : String) (amount : Nat) : EventArg := ⟨name, .uint 256, false, .int amount⟩

/-- The word an argument is encoded as. -/
def argWord (a : EventArg) : List UInt8 := (encodeWord a.type a.value).getD []

/-- Addresses of 20 bytes, indexed or not, and amounts that fit a word. -/
inductive WordArg : EventArg → Prop
  | address (name : String) (indexed : Bool) (bytes : List UInt8) (size : bytes.length = 20) :
      WordArg (addressArg name indexed bytes)
  | amount (name : String) (n : Nat) (small : n < 2 ^ 256) : WordArg (amountArg name n)

theorem WordArg.isWord {a : EventArg} (word : WordArg a) : a.type.isWord = true := by
  cases word <;> rfl

theorem WordArg.encoded {a : EventArg} (word : WordArg a) : encodeWord a.type a.value = some (argWord a) := by
  cases word with
  | address name indexed bytes size =>
      rw [argWord, addressArg, encodeWord_address bytes size]
      rfl
  | amount name n small =>
      rw [argWord, amountArg, encodeWord_uint n small]
      rfl

/-! ## Logs -/

def OfWords (event : EmittedEvent) : Prop := event.anonymous = false ∧ ∀ a ∈ event.args, WordArg a

def eventTopics (libs : ExternalLibs) (event : EmittedEvent) : List String :=
  signatureTopics libs event ++ event.indexedArgs.map fun a => hexWord (argWord a)

def eventData (event : EmittedEvent) : String := hexWord (event.dataArgs.flatMap argWord)

theorem encodeWords_args (args : List EventArg) (words : ∀ a ∈ args, WordArg a) :
    encodeWords (args.map EventArg.type) (args.map EventArg.value) = some (args.flatMap argWord) := by
  induction args with
  | nil => rfl
  | cons a rest ih =>
      obtain ⟨first, others⟩ := List.forall_mem_cons.mp words
      exact (encodeWords_cons_iff _ _ _ _ _).mpr ⟨_, _, first.encoded, ih others, rfl⟩

section
variable {libs : ExternalLibs} {event : EmittedEvent} (words : OfWords event)
include words

theorem indexedArgs_word (a : EventArg) (member : a ∈ event.indexedArgs) : WordArg a :=
  words.2 a (List.mem_filter.mp member).1

theorem dataArgs_word (a : EventArg) (member : a ∈ event.dataArgs) : WordArg a :=
  words.2 a (List.mem_filter.mp member).1

theorem emitted_encodes (log : RawLog) (topics : log.topics = eventTopics libs event)
    (data : log.data = eventData event) : EncodesEvent libs wordEncoding event log where
  topics := by
    refine ⟨_, topics, ?_⟩
    rw [List.forall₂_map_right_iff, List.forall₂_same]
    intro a member
    have word := indexedArgs_word words a member
    refine ⟨argWord a, ?_, rfl⟩
    rw [topicBytes, if_pos word.isWord]
    exact (encodeWords_singleton_iff _ _ _).mpr word.encoded
  data := ⟨_, encodeWords_args _ (dataArgs_word words), data⟩

end

def plainParams (args : List EventArg) : Dict String Value :=
  Dict.ofList (args.map fun a => (a.name, a.value))

theorem dataParam_word {a : EventArg} (word : WordArg a) :
    dataParam (a.type.input a.name a.indexed) a.value = a.value := by
  cases word with
  | address name indexed bytes size =>
      have lowered : lower ("0x" ++ toHex bytes) = "0x" ++ toHex bytes := by
        rw [lower_append, lower_toHex]
        rfl
      have isAddress : ((addressArg name indexed bytes).type.input (addressArg name indexed bytes).name
          (addressArg name indexed bytes).indexed).type = "address" := rfl
      unfold dataParam
      rw [if_pos isAddress]
      exact congrArg Value.str lowered
  | amount name n small =>
      have other : (AbiType.uint 256).jsonType ≠ "address" := by decide
      have isNumber : ((amountArg name n).type.input (amountArg name n).name
          (amountArg name n).indexed).type ≠ "address" := other
      unfold dataParam
      rw [if_neg isNumber]
      rfl

/-- The log of an event decodes to that event. -/
theorem emitted_decodes (sha256 : Digest) (keccak : String → String) {abi : Abi} {event : EmittedEvent}
    (only : OnlyEvent abi event) (words : OfWords event) (log : RawLog)
    (topics : log.topics = eventTopics ⟨wordDecode, keccak⟩ event) (data : log.data = eventData event) :
    DecodesTo sha256 ⟨wordDecode, keccak⟩ log abi
      (eventOf sha256 log event.entry (plainParams event.indexedArgs) (plainParams event.dataArgs)) := by
  have inverts := wordEncoding_inverts keccak
  have encodes := emitted_encodes words log topics data
  have values : ∀ a ∈ event.indexedArgs, topicValue ⟨wordDecode, keccak⟩ wordEncoding a = .ok a.value :=
    fun a member => by
      have word := indexedArgs_word words a member
      exact topicValue_word inverts a word.isWord _ ((encodeWords_singleton_iff _ _ _).mpr word.encoded)
  rw [decodesTo_iff inverts only sha256 log encodes]
  refine ⟨fun anonymous => absurd anonymous (by rw [words.1]; decide), fun a member => ⟨_, values a member⟩,
    ?_, ?_, ?_⟩
  · intro some_ blank
    obtain ⟨a, rest, cut⟩ := List.exists_cons_of_ne_nil some_
    have whole := encodeWords_args event.dataArgs (dataArgs_word words)
    have word := dataArgs_word words a (cut ▸ List.mem_cons_self)
    have nothing := Option.some.inj (whole.symm.trans blank)
    rw [cut, List.flatMap_cons, List.append_eq_nil_iff] at nothing
    have size := length_encodeWord a.type a.value _ word.encoded
    rw [nothing.1] at size
    cases size
  · intro a member
    exact a.type.tupleBased_of_isWord (dataArgs_word words a member).isWord
  · have indexed : topicParams ⟨wordDecode, keccak⟩ wordEncoding event.indexedArgs =
        plainParams event.indexedArgs := by
      rw [topicParams, plainParams]
      exact congrArg Dict.ofList (List.map_congr_left fun a member => by rw [values a member]; rfl)
    have plain : (event.dataArgs.map fun a => (a.name, dataParam (a.type.input a.name a.indexed) a.value)) =
        event.dataArgs.map fun a => (a.name, a.value) :=
      List.map_congr_left fun a member => by rw [dataParam_word (dataArgs_word words a member)]
    rw [indexed, plain]
    rfl

end EconomicLedger.Decode
