import EconomicLedger.Decode.Logs

/-!
# The log of an event

The types of the ABI specification, as a JSON ABI and as a signature spell them, and the log an
event leaves: its signature and its indexed values in the topics, its other values in the data.
-/

namespace EconomicLedger.Decode
open Model Text

/-! ## Types -/

inductive AbiType where
  | address
  | bool
  | uint (bits : Nat)
  | int (bits : Nat)
  | fixedBytes (size : Nat)
  | function
  | bytes
  | string
  | array (item : AbiType) (length : Option Nat)
  | tuple (components : List (String × AbiType))

def arraySuffix : Option Nat → String
  | none => "[]"
  | some length => "[" ++ toString length ++ "]"

theorem toList_arraySuffix (length : Option Nat) :
    ∃ opening, (arraySuffix length).toList = opening ++ [']'] := by
  cases length with
  | none => exact ⟨['['], rfl⟩
  | some length => exact ⟨'[' :: (toString length).toList, by simp [arraySuffix]⟩

namespace AbiType

mutual
/-- The name of a type in a signature. -/
def canonical : AbiType → String
  | .address => "address"
  | .bool => "bool"
  | .uint bits => "uint" ++ toString bits
  | .int bits => "int" ++ toString bits
  | .fixedBytes size => "bytes" ++ toString size
  | .function => "function"
  | .bytes => "bytes"
  | .string => "string"
  | .array item length => item.canonical ++ arraySuffix length
  | .tuple components => "(" ++ canonicalList components ++ ")"
def canonicalList : List (String × AbiType) → String
  | [] => ""
  | [(_, type)] => type.canonical
  | (_, type) :: next :: rest => type.canonical ++ "," ++ canonicalList (next :: rest)
end

/-- The `type` of an input in a JSON ABI. -/
def jsonType : AbiType → String
  | .tuple _ => "tuple"
  | .array item length => item.jsonType ++ arraySuffix length
  | .address => "address"
  | .bool => "bool"
  | .uint bits => "uint" ++ toString bits
  | .int bits => "int" ++ toString bits
  | .fixedBytes size => "bytes" ++ toString size
  | .function => "function"
  | .bytes => "bytes"
  | .string => "string"

mutual
def components : AbiType → List AbiInput
  | .tuple fields => componentInputs fields
  | .array item _ => item.components
  | _ => []
def componentInputs : List (String × AbiType) → List AbiInput
  | [] => []
  | (name, type) :: rest => ⟨name, type.jsonType, false, type.components⟩ :: componentInputs rest
end

def input (type : AbiType) (name : String) (indexed : Bool) : AbiInput :=
  ⟨name, type.jsonType, indexed, type.components⟩

@[simp] theorem input_type (type : AbiType) (name : String) (indexed : Bool) :
    (type.input name indexed).type = type.jsonType := rfl

def tupleBased : AbiType → Bool
  | .tuple _ => true
  | .array item _ => item.tupleBased
  | _ => false

def isWord : AbiType → Bool
  | .address | .bool | .uint _ | .int _ | .fixedBytes _ | .function => true
  | _ => false

def isBytesWord : AbiType → Bool
  | .fixedBytes _ | .function => true
  | _ => false

theorem jsonType_eq_canonical (type : AbiType) (plain : type.tupleBased = false) :
    type.jsonType = type.canonical := by
  induction type using jsonType.induct with
  | case1 => simp [tupleBased] at plain
  | case2 item length ih => rw [jsonType, canonical, ih (by simpa [tupleBased] using plain)]
  | _ => rfl

theorem startsWith_jsonType (type : AbiType) (suffix : String) :
    startsWith (type.jsonType ++ suffix) "tuple" = type.tupleBased := by
  induction type using jsonType.induct generalizing suffix with
  | case2 item length ih => rw [jsonType, String.append_assoc, ih, tupleBased]
  | _ => simp [jsonType, startsWith, tupleBased, List.isPrefixOf]

theorem tupleBased_of_isWord (type : AbiType) (isWord : type.isWord = true) : type.tupleBased = false := by
  cases type <;> simp_all [AbiType.isWord, tupleBased]

theorem jsonType_ne_address (type : AbiType) (other : type ≠ .address) : type.jsonType ≠ "address" := by
  intro same
  have letters := congrArg String.toList same
  cases type with
  | address => exact other rfl
  | array item length =>
      obtain ⟨opening, closed⟩ := toList_arraySuffix length
      have last := congrArg List.getLast? letters
      rw [jsonType, String.toList_append, closed, ← List.append_assoc, List.getLast?_concat] at last
      simp at last
  | _ => simp [jsonType] at letters

end AbiType

/-! ## Signatures -/

theorem canonicalType_append (name text suffix : String) (indexed : Bool) (components : List AbiInput)
    (alike : startsWith (text ++ suffix) "tuple" = startsWith text "tuple") :
    canonicalType ⟨name, text ++ suffix, indexed, components⟩ =
      canonicalType ⟨name, text, indexed, components⟩ ++ suffix := by
  rw [canonicalType, canonicalType, alike]
  split_ifs with isTuple
  · rw [sliceFrom_append _ _ _ (length_le_of_startsWith isTuple)]
    simp only [String.append_assoc]
  · rfl

theorem canonicalType_plain (type : AbiType) (name : String) (indexed : Bool)
    (plain : type.tupleBased = false) : canonicalType (type.input name indexed) = type.canonical := by
  have other := type.startsWith_jsonType ""
  rw [String.append_empty, plain] at other
  rw [AbiType.input, canonicalType, if_neg (by simp [other]), type.jsonType_eq_canonical plain]

mutual
/-- The signature side expands tuples as the specification does. -/
theorem canonicalType_input (name : String) (indexed : Bool) :
    (type : AbiType) → canonicalType (type.input name indexed) = type.canonical
  | .tuple fields => by
      have inner := canonicalTypes_componentInputs fields
      have nothing : sliceFrom "tuple" "tuple".length = "" := by decide
      rw [AbiType.input, AbiType.jsonType, AbiType.components, canonicalType, if_pos (by decide), inner,
        nothing, String.append_empty, AbiType.canonical]
  | .array item length => by
      have alike := item.startsWith_jsonType (arraySuffix length)
      have bare := item.startsWith_jsonType ""
      rw [String.append_empty] at bare
      have inner := canonicalType_input name indexed item
      rw [AbiType.input, AbiType.jsonType, AbiType.components,
        canonicalType_append _ _ _ _ _ (alike.trans bare.symm), ← AbiType.input, inner, AbiType.canonical]
  | .address => rfl
  | .bool => rfl
  | .uint bits => canonicalType_plain (.uint bits) name indexed rfl
  | .int bits => canonicalType_plain (.int bits) name indexed rfl
  | .fixedBytes size => canonicalType_plain (.fixedBytes size) name indexed rfl
  | .function => rfl
  | .bytes => rfl
  | .string => rfl
theorem canonicalTypes_componentInputs : (fields : List (String × AbiType)) →
    canonicalTypes (AbiType.componentInputs fields) = AbiType.canonicalList fields
  | [] => rfl
  | [(name, type)] => canonicalType_input name false type
  | (name, type) :: (name', type') :: rest => by
      have first := canonicalType_input name false type
      have others := canonicalTypes_componentInputs ((name', type') :: rest)
      rw [AbiType.componentInputs] at others
      rw [AbiType.input] at first
      rw [AbiType.componentInputs, AbiType.componentInputs, canonicalTypes, first, others,
        AbiType.canonicalList]
end

/-! ## Events -/

/-- An argument of an event, with its value as `eth_abi` decodes it. -/
structure EventArg where
  name : String
  type : AbiType
  indexed : Bool
  value : Value

structure EmittedEvent where
  name : String
  anonymous : Bool
  args : List EventArg

namespace EmittedEvent
variable (event : EmittedEvent)

def entry : AbiEntry :=
  { type := some "event"
    name := some event.name
    anonymous := event.anonymous
    inputs := event.args.map fun a => a.type.input a.name a.indexed }

def signature : String :=
  event.name ++ "(" ++ AbiType.canonicalList (event.args.map fun a => (a.name, a.type)) ++ ")"

def indexedArgs : List EventArg := event.args.filter (·.indexed)

def dataArgs : List EventArg := event.args.filter (!·.indexed)

end EmittedEvent

/-- The event is the only one of the ABI, among functions and other entries. -/
def OnlyEvent (abi : Abi) (event : EmittedEvent) : Prop :=
  abi.jsonAbi.filter (·.type = some "event") = [event.entry]

theorem canonicalTypes_args (args : List EventArg) :
    canonicalTypes (args.map fun a => a.type.input a.name a.indexed) =
      AbiType.canonicalList (args.map fun a => (a.name, a.type)) := by
  induction args with
  | nil => rfl
  | cons a rest ih =>
      cases rest with
      | nil => exact canonicalType_input a.name a.indexed a.type
      | cons next rest =>
          simp only [List.map_cons] at ih ⊢
          rw [canonicalTypes, ih, canonicalType_input, AbiType.canonicalList]

/-! ## Encoding -/

/-- The encoding of the ABI specification, where the values are of the types. An address, 20 bytes,
is its text in lower case. -/
structure AbiEncoding where
  encode : List AbiType → List Value → Option (List UInt8)
  /-- The hash that stands for an indexed value of more than a word. -/
  indexedHash : AbiType → Value → List UInt8

/-- What a word is decoded to. -/
def WordValue : AbiType → Value → Prop
  | .address, value => ∃ text, value = .str text
  | .bool, value => ∃ b, value = .bool b
  | .uint _, value | .int _, value => ∃ n, value = .int n
  | .fixedBytes _, value | .function, value => ∃ bytes, value = .bytes bytes
  | _, _ => False

variable (libs : ExternalLibs) (encoding : AbiEncoding)

/-- The first bytes of a word are the encoding of some value. -/
def BeginsWithValue (type : AbiType) (word : List UInt8) : Prop :=
  ∃ value data, encoding.encode [type] [value] = some data ∧ data <+: word

/-- `eth_abi` decodes what was encoded, takes one word for more than a word only if it begins with
an encoding, and knows no type called `tuple`. -/
structure InvertsEncoding : Prop where
  inverts : ∀ types values data, encoding.encode types values = some data →
    libs.abiDecode (types.map AbiType.canonical) data = .ok values
  each : ∀ types values data, encoding.encode types values = some data →
    List.Forall₂ (fun type value => ∃ part, encoding.encode [type] [value] = some part) types values
  words : ∀ types values data, encoding.encode types values = some data → data.length % 32 = 0
  wordValue : ∀ type value data, type.isWord = true → encoding.encode [type] [value] = some data →
    WordValue type value
  address : ∀ value data, encoding.encode [.address] [value] = some data →
    ∃ bytes, bytes.length = 20 ∧ data = List.replicate 12 0 ++ bytes ∧ value = .str ("0x" ++ toHex bytes)
  hashLength : ∀ type value, (encoding.indexedHash type value).length = 32
  oneWord : ∀ type word, type.isWord = false → word.length = 32 →
    ((∃ value rest, libs.abiDecode [type.canonical] word = .ok (value :: rest)) ↔
      BeginsWithValue encoding type word)
  rejectsTuple : ∀ types data, (∃ type ∈ types, startsWith type "tuple" = true) →
    ∃ exc, libs.abiDecode types data = .error exc

def hexWord (bytes : List UInt8) : String := "0x" ++ toHex bytes

/-- An indexed value is its own topic if it is a word, and is hashed otherwise. -/
def topicBytes (a : EventArg) : Option (List UInt8) :=
  if a.type.isWord then encoding.encode [a.type] [a.value] else some (encoding.indexedHash a.type a.value)

def signatureTopics (event : EmittedEvent) : List String :=
  if event.anonymous then [] else ["0x" ++ libs.keccak event.signature]

/-- The log is built for the event as the ABI specification says. -/
structure EncodesEvent (event : EmittedEvent) (log : RawLog) : Prop where
  topics : ∃ topics, log.topics = signatureTopics libs event ++ topics ∧
    List.Forall₂ (fun a topic => ∃ bytes, topicBytes encoding a = some bytes ∧ topic = hexWord bytes)
      event.indexedArgs topics
  data : ∃ bytes, encoding.encode (event.dataArgs.map EventArg.type) (event.dataArgs.map EventArg.value) =
    some bytes ∧ log.data = hexWord bytes

/-! ## What decoding should give back -/

mutual
/-- Bytes are shown in hexadecimal, also inside arrays. -/
def hexed : Value → Value
  | .bytes bytes => .str ("0x" ++ toHex bytes)
  | .seq values => .seq (hexedList values)
  | .none => .none
  | .bool b => .bool b
  | .int n => .int n
  | .str text => .str text
def hexedList : List Value → List Value
  | [] => []
  | value :: rest => hexed value :: hexedList rest
end

/-- The log decodes to the event, with every value that is not hashed under its own name. -/
def DecodesBack (sha256 : Digest) (abi : Abi) (event : EmittedEvent) (log : RawLog) : Prop :=
  ∃ outcome ev, decodeLog sha256 libs log abi = .ok outcome ∧ outcome.success = true ∧
    outcome.decoded = some ev ∧ ev.eventName = event.name ∧
    (∀ a ∈ event.indexedArgs, a.type.isWord = true → ev.indexedParams.get? a.name = some (hexed a.value)) ∧
    ∀ a ∈ event.dataArgs, ev.dataParams.get? a.name = some (hexed a.value)

mutual
def holdsBytes : Value → Bool
  | .bytes _ => true
  | .seq values => anyHoldsBytes values
  | _ => false
def anyHoldsBytes : List Value → Bool
  | [] => false
  | value :: rest => holdsBytes value || anyHoldsBytes rest
end

/-- What `decode_log` can give back. -/
structure Restorable (event : EmittedEvent) : Prop where
  signed : event.anonymous = true → event.indexedArgs = []
  hashes : ∀ a ∈ event.indexedArgs, a.type.isWord = false → a.type.tupleBased = false ∧
    BeginsWithValue encoding a.type (encoding.indexedHash a.type a.value)
  topicBytes : ∀ a ∈ event.indexedArgs, a.type.isBytesWord = false
  tupleFree : ∀ a ∈ event.dataArgs, a.type.tupleBased = false
  nonempty : event.dataArgs ≠ [] →
    encoding.encode (event.dataArgs.map EventArg.type) (event.dataArgs.map EventArg.value) ≠ some []
  innerBytes : ∀ a ∈ event.dataArgs, ∀ values, a.value = .seq values → anyHoldsBytes values = false

end EconomicLedger.Decode
