import EconomicLedger.Decode.WordEncoding
import EconomicLedger.Model.Calldata
import Mathlib.Data.List.Find

/-!
# Overloaded names

Both lookups walk over the entries of an ABI and compute the signature of an entry from its name, which
is the signature of the first entry of that name. So an overload is found when it is the first one.
-/

namespace EconomicLedger.Decode
open Model Text

/-! ## Signatures of entries -/

def signatureOf (entry : AbiEntry) : String := canonicalSignature (entry.name.getD "") entry.inputs

def topic0Of (libs : ExternalLibs) (entry : AbiEntry) : String := "0x" ++ libs.keccak (signatureOf entry)

def selectorOf (libs : ExternalLibs) (entry : AbiEntry) : String :=
  "0x" ++ sliceTo (libs.keccak (signatureOf entry)) 8

/-- The entry whose signature is computed for this one. -/
def leader (abi : Abi) (kind : String) (entry : AbiEntry) : Option AbiEntry :=
  entry.name.bind (abi.entryNamed? kind)

/-- On the entries of an ABI the digest is in lower case and tells signatures apart. -/
structure DigestsEntries (libs : ExternalLibs) (abi : Abi) : Prop where
  lowered : ∀ entry ∈ abi.jsonAbi,
    lower (libs.keccak (signatureOf entry)) = libs.keccak (signatureOf entry)
  injective : ∀ entry ∈ abi.jsonAbi, ∀ entry' ∈ abi.jsonAbi,
    libs.keccak (signatureOf entry) = libs.keccak (signatureOf entry') →
      signatureOf entry = signatureOf entry'

variable (libs : ExternalLibs) {abi : Abi}

theorem entryNamed?_some {kind name : String} {entry : AbiEntry}
    (found : abi.entryNamed? kind name = some entry) :
    entry ∈ abi.jsonAbi ∧ entry.type = some kind ∧ entry.name = some name := by
  have holds := List.find?_some found
  exact ⟨List.mem_of_find?_eq_some found, of_decide_eq_true holds⟩

theorem eventSignature_eq (name : String) :
    eventSignature libs abi name = match abi.entryNamed? "event" name with
      | some entry => .ok (topic0Of libs entry)
      | none => .error (.keyError ("event " ++ reprText name ++ " not in ABI " ++ abi.abiVersion)) := by
  unfold eventSignature
  cases found : abi.entryNamed? "event" name with
  | none => rfl
  | some entry => simp only [topic0Of, signatureOf, (entryNamed?_some found).2.2, Option.getD_some]

theorem methodSelector_eq (name : String) :
    methodSelector libs abi name = match abi.entryNamed? "function" name with
      | some entry => .ok (selectorOf libs entry)
      | none => .error (.keyError ("method " ++ reprText name ++ " not in ABI " ++ abi.abiVersion)) := by
  unfold methodSelector
  cases found : abi.entryNamed? "function" name with
  | none => rfl
  | some entry => simp only [selectorOf, signatureOf, (entryNamed?_some found).2.2, Option.getD_some]

/-! ## Events -/

/-- The entry is taken for the event: it is signed and the first event of its name has the event's
signature. -/
def StandsFor (abi : Abi) (event entry : AbiEntry) : Prop :=
  entry.type = some "event" ∧ entry.anonymous = false ∧
    (leader abi "event" entry).map signatureOf = some (signatureOf event)

instance (event entry : AbiEntry) : Decidable (StandsFor abi event entry) :=
  inferInstanceAs (Decidable (_ ∧ _))

/-- The first entry taken for the event has its signature. -/
def EventResolves (abi : Abi) (event : AbiEntry) : Prop :=
  (abi.jsonAbi.find? fun entry => StandsFor abi event entry).map signatureOf = some (signatureOf event)

theorem findEventAbi_topic0 (digests : DigestsEntries libs abi) (event : AbiEntry)
    (member : event ∈ abi.jsonAbi) :
    findEventAbi libs abi (topic0Of libs event) =
      abi.jsonAbi.find? fun entry => StandsFor abi event entry := by
  have target : lower (topic0Of libs event) = topic0Of libs event := by
    rw [topic0Of, lower_append, digests.lowered event member]
    rfl
  have starts : startsWith (topic0Of libs event) "0x" = true := startsWith_hexWord _
  simp only [findEventAbi, target, if_pos starts]
  apply List.find?_congr
  intro entry _
  refine Bool.eq_iff_iff.mpr (Iff.trans ?_ decide_eq_true_iff.symm)
  simp only [Bool.and_eq_true, decide_eq_true_eq, Bool.not_eq_true', StandsFor, and_assoc, leader]
  refine and_congr_right fun _ => and_congr_right fun _ => ?_
  cases entry.name with
  | none => simp
  | some name =>
      simp only [eventSignature_eq, Option.bind_some]
      cases found : abi.entryNamed? "event" name with
      | none => simp
      | some first =>
          have inside := (entryNamed?_some found).1
          have own : lower (topic0Of libs first) = topic0Of libs first := by
            rw [topic0Of, lower_append, digests.lowered first inside]
            rfl
          simp only [own, decide_eq_true_eq, Option.map_some, Option.some.injEq]
          constructor
          · intro same
            exact digests.injective first inside event member (String.append_right_inj "0x" |>.mp same)
          · intro same
            rw [topic0Of, topic0Of, same]

theorem findEventAbi_resolves_iff (digests : DigestsEntries libs abi) (event : AbiEntry)
    (member : event ∈ abi.jsonAbi) :
    (∃ entry, findEventAbi libs abi (topic0Of libs event) = some entry ∧
      signatureOf entry = signatureOf event) ↔ EventResolves abi event := by
  rw [findEventAbi_topic0 libs digests event member, EventResolves, Option.map_eq_some_iff]

/-! ## Names without an opening parenthesis -/

/-- As names in an ABI are identifiers. -/
def PlainNames (abi : Abi) : Prop :=
  ∀ entry ∈ abi.jsonAbi, ∀ name, entry.name = some name → '(' ∉ name.toList

theorem canonicalSignature_name {name name' : String} {inputs inputs' : List AbiInput}
    (plain : '(' ∉ name.toList) (plain' : '(' ∉ name'.toList)
    (same : canonicalSignature name inputs = canonicalSignature name' inputs') : name = name' := by
  have chars := congrArg String.toList same
  simp only [canonicalSignature, String.toList_append, List.append_assoc] at chars
  exact String.toList_inj.mp ((append_cons_inj plain plain').mp chars).1

theorem StandsFor.name (plain : PlainNames abi) {event entry : AbiEntry} (member : event ∈ abi.jsonAbi)
    {name : String} (named : event.name = some name) (stands : StandsFor abi event entry) :
    entry.name = some name := by
  obtain ⟨-, -, resolved⟩ := stands
  obtain ⟨first, led, same⟩ := Option.map_eq_some_iff.mp resolved
  obtain ⟨name', named', found⟩ := Option.bind_eq_some_iff.mp led
  obtain ⟨inside, -, firstNamed⟩ := entryNamed?_some found
  rw [signatureOf, signatureOf, firstNamed, named] at same
  have equal := canonicalSignature_name (plain first inside name' firstNamed)
    (plain event member name named) same
  rw [named']
  exact congrArg some equal

/-- The first event of the name and the first signed one have the signature. -/
def FirstOfName (abi : Abi) (event : AbiEntry) (name : String) : Prop :=
  (abi.entryNamed? "event" name).map signatureOf = some (signatureOf event) ∧
    (abi.jsonAbi.find? fun entry => entry.type = some "event" ∧ entry.anonymous = false ∧
      entry.name = some name).map signatureOf = some (signatureOf event)

theorem eventResolves_iff_first (plain : PlainNames abi) (event : AbiEntry) (member : event ∈ abi.jsonAbi)
    (name : String) (named : event.name = some name) :
    EventResolves abi event ↔ FirstOfName abi event name := by
  unfold EventResolves FirstOfName
  by_cases leads : (abi.entryNamed? "event" name).map signatureOf = some (signatureOf event)
  · have same : (abi.jsonAbi.find? fun entry => StandsFor abi event entry) =
        abi.jsonAbi.find? fun entry => entry.type = some "event" ∧ entry.anonymous = false ∧
          entry.name = some name := by
      apply List.find?_congr
      intro entry _
      refine decide_eq_decide.mpr ⟨fun stands => ?_, fun ⟨type, signed, own⟩ => ?_⟩
      · exact ⟨stands.1, stands.2.1, stands.name plain member named⟩
      · exact ⟨type, signed, by rw [leader, own]; exact leads⟩
    rw [same]
    exact ⟨fun found => ⟨leads, found⟩, fun both => both.2⟩
  · constructor
    · intro resolves
      obtain ⟨entry, found, -⟩ := Option.map_eq_some_iff.mp resolves
      have taken := List.find?_some found
      have stands : StandsFor abi event entry := of_decide_eq_true taken
      have led := stands.2.2
      rw [leader, stands.name plain member named] at led
      exact absurd led leads
    · intro both
      exact absurd both.1 leads

/-! ## Functions -/

/-- No other function has the selector. -/
def OwnSelector (abi : Abi) (method : AbiEntry) : Prop :=
  ∀ entry ∈ abi.jsonAbi, entry.type = some "function" → entry.name ≠ none →
    selectorOf libs entry = selectorOf libs method → entry = method

theorem lower_sliceTo (s : String) (n : Nat) : lower (sliceTo s n) = sliceTo (lower s) n := by
  simp [lower, sliceTo, List.map_take]

theorem lower_selectorOf (digests : DigestsEntries libs abi) (entry : AbiEntry)
    (member : entry ∈ abi.jsonAbi) : lower (selectorOf libs entry) = selectorOf libs entry := by
  rw [selectorOf, lower_append, lower_sliceTo, digests.lowered entry member]
  rfl

/-- The test of the lookup on one entry. -/
def selects (abi : Abi) (selector : String) (entry : AbiEntry) : Bool :=
  entry.type = some "function" &&
    match entry.name with
    | none => false
    | some name =>
        match methodSelector libs abi name with
        | .ok own => lower own = lower selector
        | .error _ => false

theorem selects_iff (digests : DigestsEntries libs abi) (method : AbiEntry)
    (member : method ∈ abi.jsonAbi) (own : OwnSelector libs abi method) (entry : AbiEntry) :
    selects libs abi (selectorOf libs method) entry = true ↔
      entry.type = some "function" ∧ leader abi "function" entry = some method := by
  rw [selects, Bool.and_eq_true, decide_eq_true_eq, leader, lower_selectorOf libs digests method member]
  refine and_congr_right fun _ => ?_
  cases entry.name with
  | none => simp
  | some name =>
      simp only [methodSelector_eq, Option.bind_some]
      cases found : abi.entryNamed? "function" name with
      | none => simp
      | some first =>
          obtain ⟨inside, type, named⟩ := entryNamed?_some found
          simp only [lower_selectorOf libs digests first inside, decide_eq_true_eq, Option.some.injEq]
          constructor
          · exact own first inside type (by simp [named])
          · rintro rfl
            rfl

theorem findMethodBySelector_iff (digests : DigestsEntries libs abi) (method : AbiEntry)
    (member : method ∈ abi.jsonAbi) (name : String) (named : method.name = some name)
    (own : OwnSelector libs abi method) :
    findMethodBySelector libs abi (selectorOf libs method) = some method ↔
      abi.entryNamed? "function" name = some method := by
  have walk : findMethodBySelector libs abi (selectorOf libs method) =
      abi.jsonAbi.find? (selects libs abi (selectorOf libs method)) := rfl
  have test := selects_iff libs digests method member own
  rw [walk]
  constructor
  · intro found
    have led := ((test method).mp (List.find?_some found)).2
    rwa [leader, named] at led
  · intro first
    obtain ⟨type, before, after, split, others⟩ := List.find?_eq_some_iff_append.mp first
    refine List.find?_eq_some_iff_append.mpr ⟨?_, before, after, split, ?_⟩
    · refine (test method).mpr ⟨(of_decide_eq_true type).1, ?_⟩
      rw [leader, named]
      exact first
    · intro entry earlier
      rw [Bool.not_eq_true', ← Bool.not_eq_true, test entry]
      rintro ⟨entryType, led⟩
      obtain ⟨name', named', found⟩ := Option.bind_eq_some_iff.mp led
      have same := (entryNamed?_some found).2.2.symm.trans named
      have skipped := others entry earlier
      simp [entryType, named', same] at skipped

/-! ## Overloads -/

/-- An event is found exactly when the first entry taken for it has its signature, and a function with
a selector of its own exactly when it is the first function of its name. -/
theorem overloads_found_iff (digests : DigestsEntries libs abi) :
    (∀ event ∈ abi.jsonAbi, event.type = some "event" → event.anonymous = false → event.name ≠ none →
      ((∃ entry, findEventAbi libs abi (topic0Of libs event) = some entry ∧
        signatureOf entry = signatureOf event) ↔ EventResolves abi event)) ∧
    (PlainNames abi → ∀ event ∈ abi.jsonAbi, ∀ name, event.name = some name →
      (EventResolves abi event ↔ FirstOfName abi event name)) ∧
    (∀ method ∈ abi.jsonAbi, ∀ name, method.type = some "function" → method.name = some name →
      OwnSelector libs abi method →
      (findMethodBySelector libs abi (selectorOf libs method) = some method ↔
        abi.entryNamed? "function" name = some method)) := by
  refine ⟨?_, ?_, ?_⟩
  · intro event member _ _ _
    exact findEventAbi_resolves_iff libs digests event member
  · intro plain event member name named
    exact eventResolves_iff_first plain event member name named
  · intro method member name _ named own
    exact findMethodBySelector_iff libs digests method member name named own

/-! ### Two payments of one name -/

def paidEntry (kind argument : String) : AbiEntry :=
  { type := some kind
    name := some "paid"
    anonymous := false
    inputs := [{ name := "to", type := argument, indexed := false, components := [] }] }

def paidAbi : Abi :=
  { abiVersion := "v1"
    jsonAbi := [paidEntry "event" "address", paidEntry "event" "uint256",
      paidEntry "function" "address", paidEntry "function" "uint256"] }

/-- A digest that keeps its text. -/
def plainLibs : ExternalLibs := { abiDecode := fun _ _ => .ok [], keccak := id }

theorem signatureOf_paid (kind argument : String) (plain : startsWith argument "tuple" = false) :
    signatureOf (paidEntry kind argument) = "paid" ++ "(" ++ argument ++ ")" := by
  simp [signatureOf, paidEntry, canonicalSignature, canonicalTypes, canonicalType, plain]

theorem paid_digests : DigestsEntries plainLibs paidAbi := by
  constructor
  · intro entry member
    simp only [paidAbi, List.mem_cons, List.not_mem_nil, or_false] at member
    rcases member with rfl | rfl | rfl | rfl <;>
      · rw [signatureOf_paid _ _ (by decide)]
        decide
  · intro entry _ entry' _ same
    exact same

theorem paid_plainNames : PlainNames paidAbi := by
  intro entry member name named
  simp only [paidAbi, List.mem_cons, List.not_mem_nil, or_false] at member
  rcases member with rfl | rfl | rfl | rfl <;>
    · cases named
      decide

theorem selectorOf_paid (kind argument : String) (plain : startsWith argument "tuple" = false) :
    selectorOf plainLibs (paidEntry kind argument) =
      "0x" ++ sliceTo ("paid" ++ "(" ++ argument ++ ")") 8 := by
  rw [selectorOf, signatureOf_paid kind argument plain]
  rfl

theorem paid_ownSelector (argument : String) (declared : argument = "address" ∨ argument = "uint256") :
    OwnSelector plainLibs paidAbi (paidEntry "function" argument) := by
  intro entry member function _ same
  simp only [paidAbi, List.mem_cons, List.not_mem_nil, or_false] at member
  rcases member with rfl | rfl | rfl | rfl
  · simp [paidEntry] at function
  · simp [paidEntry] at function
  · rcases declared with rfl | rfl
    · rfl
    · rw [selectorOf_paid _ _ (by decide), selectorOf_paid _ _ (by decide)] at same
      exact absurd same (by decide)
  · rcases declared with rfl | rfl
    · rw [selectorOf_paid _ _ (by decide), selectorOf_paid _ _ (by decide)] at same
      exact absurd same (by decide)
    · rfl

theorem overloads_found_paid :
    (∃ entry, findEventAbi plainLibs paidAbi (topic0Of plainLibs (paidEntry "event" "address")) =
        some entry ∧ signatureOf entry = signatureOf (paidEntry "event" "address")) ∧
    findMethodBySelector plainLibs paidAbi (selectorOf plainLibs (paidEntry "function" "address")) =
      some (paidEntry "function" "address") := by
  obtain ⟨events, resolves, functions⟩ := overloads_found_iff plainLibs paid_digests
  constructor
  · have inside : paidEntry "event" "address" ∈ paidAbi.jsonAbi := by simp [paidAbi]
    exact (events _ inside rfl rfl (by simp [paidEntry])).mpr
      ((resolves paid_plainNames _ inside "paid" rfl).mpr ⟨rfl, rfl⟩)
  · exact (functions _ (by simp [paidAbi]) "paid" rfl rfl
      (paid_ownSelector "address" (Or.inl rfl))).mpr rfl

/-- Neither the second event nor the second function of the name is found. -/
theorem paid_overloads_lost :
    ¬ (∃ entry, findEventAbi plainLibs paidAbi (topic0Of plainLibs (paidEntry "event" "uint256")) =
        some entry ∧ signatureOf entry = signatureOf (paidEntry "event" "uint256")) ∧
    OwnSelector plainLibs paidAbi (paidEntry "function" "uint256") ∧
    findMethodBySelector plainLibs paidAbi (selectorOf plainLibs (paidEntry "function" "uint256")) ≠
      some (paidEntry "function" "uint256") := by
  refine ⟨?_, paid_ownSelector _ (Or.inr rfl), ?_⟩
  · have inside : paidEntry "event" "uint256" ∈ paidAbi.jsonAbi := by simp [paidAbi]
    rw [findEventAbi_resolves_iff plainLibs paid_digests _ inside,
      eventResolves_iff_first paid_plainNames _ inside "paid" rfl]
    rintro ⟨first, -⟩
    have led : paidAbi.entryNamed? "event" "paid" = some (paidEntry "event" "address") := rfl
    rw [led, Option.map_some, signatureOf_paid _ _ (by decide), signatureOf_paid _ _ (by decide)] at first
    exact absurd first (by decide)
  · have inside : paidEntry "function" "uint256" ∈ paidAbi.jsonAbi := by simp [paidAbi]
    rw [ne_eq, findMethodBySelector_iff plainLibs paid_digests _ inside "paid" rfl
      (paid_ownSelector _ (Or.inr rfl))]
    intro first
    have led : paidAbi.entryNamed? "function" "paid" = some (paidEntry "function" "address") := rfl
    rw [led] at first
    simp [paidEntry] at first

end EconomicLedger.Decode
