import EconomicLedger.Decode.Encoding
import EconomicLedger.Decode.Words
import Mathlib.Algebra.Order.Ring.Nat

/-!
# Encoded words

What is written in hexadecimal is read back, and `wordDecode` undoes the encoding of addresses and
`uint256`s.
-/

namespace EconomicLedger.Decode
open Model Text Fallible

/-! ## Hexadecimal text -/

theorem hexDigit?_digitChar (n : Nat) (small : n < 16) :
    isSpace n.digitChar = false ∧ hexDigit? n.digitChar = some n := by
  have all : ∀ n < 16, isSpace n.digitChar = false ∧ hexDigit? n.digitChar = some n := by decide
  exact all n small

theorem fromHex_toHex (bytes : List UInt8) : fromHex (toHex bytes).toList = .ok bytes := by
  rw [toHex, String.toList_ofList]
  induction bytes with
  | nil => rfl
  | cons b rest ih =>
      have size : b.toNat < 256 := b.toNat_lt
      obtain ⟨noBlank, high⟩ := hexDigit?_digitChar (b.toNat / 16) (by omega)
      obtain ⟨-, low⟩ := hexDigit?_digitChar (b.toNat % 16) (by omega)
      have whole : UInt8.ofNat (16 * (b.toNat / 16) + b.toNat % 16) = b := by
        rw [Nat.div_add_mod, UInt8.ofNat_toNat]
      rw [List.flatMap_cons, hexByte, List.cons_append, List.cons_append, List.nil_append, fromHex,
        if_neg (by simp [noBlank]), high, low, ih]
      simp only [ok_bind, whole]
      rfl

theorem startsWith_hexWord (text : String) : startsWith ("0x" ++ text) "0x" = true := by
  simp [startsWith, List.isPrefixOf]

theorem sliceFrom_hexWord (text : String) : sliceFrom ("0x" ++ text) 2 = text := by
  rw [sliceFrom_append _ _ _ (by decide)]
  exact String.empty_append

theorem length_toHex (bytes : List UInt8) : (toHex bytes).length = 2 * bytes.length := by
  rw [toHex, ← String.length_toList, String.toList_ofList]
  induction bytes with
  | nil => rfl
  | cons b rest ih =>
      rw [List.flatMap_cons, List.length_append, ih, List.length_cons]
      have two : (hexByte b).length = 2 := rfl
      omega

theorem hexToBytes_prefixed (text : String) (even : text.length % 2 = 0) :
    hexToBytes ("0x" ++ text) = fromHex text.toList := by
  have body : (if startsWith ("0x" ++ text) "0x" = true then sliceFrom ("0x" ++ text) 2
      else "0x" ++ text) = text := by
    rw [if_pos (startsWith_hexWord text), sliceFrom_hexWord]
  unfold hexToBytes
  rw [body]
  by_cases blank : text = ""
  · rw [if_pos blank, blank]
    rfl
  · rw [if_neg blank, if_neg (by rw [even]; exact not_not.mpr rfl)]

theorem hexToBytes_hexWord (bytes : List UInt8) : hexToBytes (hexWord bytes) = .ok bytes := by
  rw [hexWord, hexToBytes_prefixed _ (by rw [length_toHex]; omega), fromHex_toHex]

theorem toHex_append (bytes others : List UInt8) : toHex (bytes ++ others) = toHex bytes ++ toHex others := by
  rw [toHex, List.flatMap_append, String.ofList_append, toHex, toHex]

theorem lower_toHex (bytes : List UInt8) : lower (toHex bytes) = toHex bytes := by
  have digits : ∀ n < 16, n.digitChar.toLower = n.digitChar := by decide
  rw [lower, toHex, String.toList_ofList, List.map_flatMap]
  refine congrArg String.ofList (List.flatMap_congr fun b _ => ?_)
  have size : b.toNat < 256 := b.toNat_lt
  rw [hexByte, List.map_cons, List.map_cons, List.map_nil, digits _ (by omega), digits _ (by omega)]

theorem sliceFrom_length (s t : String) : sliceFrom (s ++ t) s.length = t := by
  rw [sliceFrom_append _ _ _ (le_refl _), sliceFrom, ← String.length_toList, List.drop_length]
  exact String.empty_append

theorem topicToAddress_hexWord (bytes : List UInt8) (size : bytes.length = 20) :
    topicToAddress (hexWord (List.replicate 12 0 ++ bytes)) = .ok ("0x" ++ toHex bytes) := by
  have padding : ("0x" ++ toHex (List.replicate 12 0)).length = 26 := by decide
  have whole : hexWord (List.replicate 12 0 ++ bytes) =
      ("0x" ++ toHex (List.replicate 12 0)) ++ toHex bytes := by
    rw [hexWord, toHex_append, String.append_assoc]
  have starts : startsWith (hexWord (List.replicate 12 0 ++ bytes)) "0x" = true := startsWith_hexWord _
  have length : (hexWord (List.replicate 12 0 ++ bytes)).length = 66 := by
    rw [whole, String.length_append, padding, length_toHex, size]
  have last : sliceFrom (hexWord (List.replicate 12 0 ++ bytes)) 26 = toHex bytes := by
    rw [whole, ← padding, sliceFrom_length]
  simp only [topicToAddress, if_pos starts, length, if_true, last, lower_toHex]

/-! ## Addresses and integers -/

def wordBytes : Nat → Nat → List UInt8
  | 0, _ => []
  | size + 1, n => wordBytes size (n / 256) ++ [UInt8.ofNat (n % 256)]

def encodeWord : AbiType → Value → Option (List UInt8)
  | .address, .str text =>
      match fromHex (text.toList.drop 2) with
      | .ok bytes =>
          if bytes.length = 20 ∧ text = "0x" ++ toHex bytes then some (List.replicate 12 0 ++ bytes) else none
      | .error _ => none
  | .uint 256, .int n => if 0 ≤ n ∧ n < 2 ^ 256 then some (wordBytes 32 n.toNat) else none
  | _, _ => none

def encodeWords : List AbiType → List Value → Option (List UInt8)
  | [], [] => some []
  | type :: types, value :: values => do
      let word ← encodeWord type value
      let rest ← encodeWords types values
      return word ++ rest
  | _, _ => none

def wordEncoding : AbiEncoding := ⟨encodeWords, fun _ _ => List.replicate 32 0⟩

theorem length_wordBytes (size n : Nat) : (wordBytes size n).length = size := by
  induction size generalizing n with
  | zero => rfl
  | succ size ih => rw [wordBytes, List.length_append, ih, List.length_singleton]

theorem bigEndian_wordBytes (size n : Nat) (small : n < 256 ^ size) : bigEndian (wordBytes size n) = n := by
  induction size generalizing n with
  | zero => simpa [wordBytes, bigEndian, eq_comm] using small
  | succ size ih =>
      have high : n / 256 < 256 ^ size := by
        rw [pow_succ] at small
        exact Nat.div_lt_of_lt_mul (by rwa [Nat.mul_comm])
      have ih := ih (n / 256) high
      rw [bigEndian] at ih
      rw [wordBytes, bigEndian, List.foldl_append, ih, List.foldl_cons, List.foldl_nil,
        UInt8.toNat_ofNat']
      omega

theorem encodeWord_cases (type : AbiType) (value : Value) (word : List UInt8)
    (encoded : encodeWord type value = some word) :
    (type = .address ∧ ∃ bytes, bytes.length = 20 ∧ word = List.replicate 12 0 ++ bytes ∧
      value = .str ("0x" ++ toHex bytes)) ∨
    (type = .uint 256 ∧ ∃ n : Nat, n < 2 ^ 256 ∧ word = wordBytes 32 n ∧ value = .int n) := by
  unfold encodeWord at encoded
  split at encoded
  next text =>
    split at encoded
    next bytes read =>
      split_ifs at encoded with spelled
      obtain rfl := Option.some.inj encoded
      exact Or.inl ⟨rfl, bytes, spelled.1, rfl, by rw [← spelled.2]⟩
    next => cases encoded
  next n =>
    split_ifs at encoded with small
    obtain rfl := Option.some.inj encoded
    exact Or.inr ⟨rfl, n.toNat, by omega, rfl, by rw [Int.toNat_of_nonneg small.1]⟩
  next => cases encoded

theorem encodeWord_address (bytes : List UInt8) (size : bytes.length = 20) :
    encodeWord .address (.str ("0x" ++ toHex bytes)) = some (List.replicate 12 0 ++ bytes) := by
  have digits : ("0x" ++ toHex bytes).toList.drop 2 = (toHex bytes).toList := by
    rw [String.toList_append]
    rfl
  simp only [encodeWord, digits, fromHex_toHex, size, and_self, if_true]

theorem encodeWord_uint (n : Nat) (small : n < 2 ^ 256) :
    encodeWord (.uint 256) (.int n) = some (wordBytes 32 n) := by
  have fits : (0 : Int) ≤ n ∧ (n : Int) < 2 ^ 256 := by omega
  rw [encodeWord, if_pos fits, Int.toNat_natCast]

theorem length_encodeWord (type : AbiType) (value : Value) (word : List UInt8)
    (encoded : encodeWord type value = some word) : word.length = 32 := by
  rcases encodeWord_cases type value word encoded with isAddress | isUint
  · obtain ⟨-, bytes, size, spelled, -⟩ := isAddress
    rw [spelled, List.length_append, List.length_replicate, size]
  · obtain ⟨-, n, -, spelled, -⟩ := isUint
    rw [spelled, length_wordBytes]

theorem wordValue_encodeWord (type : AbiType) (value : Value) (word : List UInt8)
    (encoded : encodeWord type value = some word) : wordValue type.canonical word = .ok value := by
  rcases encodeWord_cases type value word encoded with isAddress | isUint
  · obtain ⟨isType, bytes, size, spelled, text⟩ := isAddress
    have padding : (List.replicate 12 (0 : UInt8)).all (· = 0) = true := by decide
    have other : ¬ "address" = "uint256" := by decide
    have front : word.take 12 = List.replicate 12 0 := by
      rw [spelled, List.take_left' List.length_replicate]
    have back : word.drop 12 = bytes := by
      rw [spelled, List.drop_left' List.length_replicate]
    rw [isType, AbiType.canonical, wordValue, if_neg other, if_pos rfl, front, if_pos padding, back, text]
  · obtain ⟨isType, n, small, spelled, number⟩ := isUint
    have canonical : (AbiType.uint 256).canonical = "uint256" := by decide
    rw [isType, canonical, wordValue, if_pos rfl, spelled, number, bigEndian_wordBytes 32 n (by simpa using small)]

/-! ## Lists of words -/

theorem encodeWords_cons_iff (type : AbiType) (types : List AbiType) (value : Value) (values : List Value)
    (data : List UInt8) : encodeWords (type :: types) (value :: values) = some data ↔
      ∃ word rest, encodeWord type value = some word ∧ encodeWords types values = some rest ∧
        data = word ++ rest := by
  simp only [encodeWords, Option.bind_eq_bind, Option.bind_eq_some_iff, Option.pure_def, Option.some.injEq]
  constructor
  · rintro ⟨word, first, rest, others, same⟩
    exact ⟨word, rest, first, others, same.symm⟩
  · rintro ⟨word, rest, first, others, same⟩
    exact ⟨word, first, rest, others, same.symm⟩

theorem encodeWords_singleton_iff (type : AbiType) (value : Value) (data : List UInt8) :
    encodeWords [type] [value] = some data ↔ encodeWord type value = some data := by
  simp [encodeWords]

/-- What an encoding is made of: one word for each value. -/
theorem encodeWords_eq_some (types : List AbiType) (values : List Value) (data : List UInt8)
    (encoded : encodeWords types values = some data) :
    List.Forall₂ (fun type value => ∃ word, encodeWord type value = some word) types values ∧
      data.length % 32 = 0 ∧ wordDecode (types.map AbiType.canonical) data = .ok values := by
  induction types generalizing values data with
  | nil =>
      cases values with
      | nil =>
          obtain rfl := Option.some.inj encoded
          exact ⟨List.Forall₂.nil, rfl, rfl⟩
      | cons value values => cases encoded
  | cons type types ih =>
      cases values with
      | nil => cases encoded
      | cons value values =>
          obtain ⟨word, rest, first, others, rfl⟩ := (encodeWords_cons_iff _ _ _ _ _).mp encoded
          obtain ⟨each, whole, decoded⟩ := ih values rest others
          have size := length_encodeWord type value word first
          refine ⟨List.Forall₂.cons ⟨word, first⟩ each, ?_, ?_⟩
          · rw [List.length_append, size]
            omega
          · have long : ¬ (word ++ rest).length < 32 := by
              rw [List.length_append, size]
              omega
            rw [List.map_cons, wordDecode, if_neg long, ← size, List.take_left, List.drop_left,
              wordValue_encodeWord type value word first, decoded]
            rfl

theorem wordValue_tuple (type : String) (isTuple : startsWith type "tuple" = true) (word : List UInt8) :
    wordValue type word = .error "not a static word" := by
  have uint : type ≠ "uint256" := by
    rintro rfl
    exact absurd isTuple (by decide)
  have address : type ≠ "address" := by
    rintro rfl
    exact absurd isTuple (by decide)
  rw [wordValue, if_neg uint, if_neg address]

theorem wordDecode_tuple (types : List String) (data : List UInt8)
    (isTuple : ∃ type ∈ types, startsWith type "tuple" = true) : ∃ exc, wordDecode types data = .error exc := by
  cases decoded : wordDecode types data with
  | error exc => exact ⟨exc, rfl⟩
  | ok values =>
      obtain ⟨type, member, starts⟩ := isTuple
      induction types generalizing data values with
      | nil => cases member
      | cons first rest ih =>
          obtain ⟨value, others, head, tail, rfl⟩ := wordDecode_cons first rest data values decoded
          rcases List.mem_cons.mp member with rfl | later
          · rw [wordValue_tuple type starts] at head
            cases head
          · exact absurd (ih _ _ tail later) (by simp)

theorem canonical_hashed (type : AbiType) (hashed : type.isWord = false) :
    type.canonical ≠ "uint256" ∧ type.canonical ≠ "address" := by
  cases type with
  | array item length =>
      obtain ⟨opening, closed⟩ := toList_arraySuffix length
      have last (text : String) (same : (AbiType.array item length).canonical = text) :
          text.toList.getLast? = some ']' := by
        rw [← same, AbiType.canonical, String.toList_append, closed, ← List.append_assoc, List.getLast?_concat]
      exact ⟨fun same => absurd (last _ same) (by decide), fun same => absurd (last _ same) (by decide)⟩
  | tuple fields =>
      have first (text : String) (same : (AbiType.tuple fields).canonical = text) :
          text.toList.head? = some '(' := by
        rw [← same, AbiType.canonical, String.toList_append, String.toList_append]
        rfl
      exact ⟨fun same => absurd (first _ same) (by decide), fun same => absurd (first _ same) (by decide)⟩
  | bytes => exact ⟨by decide, by decide⟩
  | string => exact ⟨by decide, by decide⟩
  | _ => cases hashed

theorem wordEncoding_inverts (keccak : String → String) : InvertsEncoding ⟨wordDecode, keccak⟩ wordEncoding where
  inverts types values data encoded := (encodeWords_eq_some types values data encoded).2.2
  each types values data encoded := by
    refine (encodeWords_eq_some types values data encoded).1.imp fun type value single => ?_
    obtain ⟨word, single⟩ := single
    exact ⟨word, (encodeWords_singleton_iff type value word).mpr single⟩
  words types values data encoded := (encodeWords_eq_some types values data encoded).2.1
  wordValue type value data _ encoded := by
    have single := (encodeWords_singleton_iff type value data).mp encoded
    rcases encodeWord_cases type value data single with isAddress | isUint
    · obtain ⟨isType, bytes, -, -, text⟩ := isAddress
      rw [isType, text]
      exact ⟨_, rfl⟩
    · obtain ⟨isType, n, -, -, number⟩ := isUint
      rw [isType, number]
      exact ⟨_, rfl⟩
  address value data encoded := by
    have single := (encodeWords_singleton_iff .address value data).mp encoded
    rcases encodeWord_cases .address value data single with isAddress | isUint
    · exact isAddress.2
    · cases isUint.1
  hashLength _ _ := List.length_replicate
  oneWord type word hashed size := by
    obtain ⟨notUint, notAddress⟩ := canonical_hashed type hashed
    have rejected : wordDecode [type.canonical] word = .error "not a static word" := by
      rw [wordDecode, if_neg (by omega), wordValue, if_neg notUint, if_neg notAddress]
      rfl
    constructor
    · rintro ⟨value, rest, decoded⟩
      have impossible := rejected.symm.trans decoded
      cases impossible
    · rintro ⟨value, data, encoded, -⟩
      have single := (encodeWords_singleton_iff type value data).mp encoded
      rcases encodeWord_cases type value data single with isAddress | isUint
      · rw [isAddress.1] at hashed
        cases hashed
      · rw [isUint.1] at hashed
        cases hashed
  rejectsTuple := wordDecode_tuple

end EconomicLedger.Decode
