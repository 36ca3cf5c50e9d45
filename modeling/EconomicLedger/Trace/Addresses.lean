import EconomicLedger.Lib.Fallible
import EconomicLedger.Model.TraceTree

/-!
# Trace addresses as text

The comma-joined decimal components of an address determine it.
-/

namespace EconomicLedger.Trace
open Model Text Fallible

/-! ## Decimal numbers -/

theorem parseDigits_digits (value : Nat) (afterDigit : Bool) (digits : List Char)
    (decimal : ∀ c ∈ digits, c.isDigit = true) (nonempty : afterDigit = true ∨ digits ≠ []) :
    parseDigits value afterDigit digits = some (Nat.ofDigitChars 10 digits value) := by
  induction digits generalizing value afterDigit with
  | nil => simpa [parseDigits] using nonempty
  | cons c rest ih =>
      have digit := decimal c List.mem_cons_self
      have notUnderscore : c ≠ '_' := by
        rintro rfl
        exact absurd digit (by decide)
      rw [parseDigits, if_neg notUnderscore, if_pos digit,
        ih _ _ (fun d later => decimal d (List.mem_cons_of_mem _ later)) (Or.inl rfl),
        Nat.ofDigitChars_cons]
      rfl

theorem strip_eq_self (cs : List Char) (solid : ∀ c ∈ cs, isSpace c = false) :
    ((cs.dropWhile isSpace).reverse.dropWhile isSpace).reverse = cs := by
  have keep : ∀ l : List Char, (∀ c ∈ l, isSpace c = false) → l.dropWhile isSpace = l := by
    intro l solid
    cases l with
    | nil => rfl
    | cons c rest => rw [List.dropWhile_cons_of_neg (by simp [solid c List.mem_cons_self])]
  rw [keep cs solid, keep cs.reverse fun c member => solid c (List.mem_reverse.mp member),
    List.reverse_reverse]

theorem solid_of_digit (c : Char) (digit : c.isDigit = true) : isSpace c = false := by
  have bounds : 48 ≤ c.toNat ∧ c.toNat ≤ 57 := by
    simpa [Char.isDigit, UInt32.le_iff_toNat_le, ← Char.toNat_val] using digit
  have notBlank : c ≠ ' ' := by
    rintro rfl
    exact absurd bounds.1 (by decide)
  simp only [isSpace, notBlank, false_or, decide_eq_false_iff_not, not_and, not_le]
  omega

theorem parseInt_toString (n : Int) : parseInt (toString n).toList = some n := by
  have decimal : ∀ m : Nat, ∀ c ∈ Nat.toDigits 10 m, c.isDigit = true :=
    fun m c member => Nat.isDigit_of_mem_toDigits (by decide) (by decide) member
  have parsed : ∀ m : Nat, parseDigits 0 false (Nat.toDigits 10 m) = some m := by
    intro m
    rw [parseDigits_digits 0 false _ (decimal m) (Or.inr Nat.toDigits_ne_nil),
      Nat.ofDigitChars_ten_toDigits]
  rw [Int.toString_eq_repr, Int.repr_eq_if]
  by_cases sign : 0 ≤ n
  · rw [if_pos sign, Nat.toList_repr, parseInt,
      strip_eq_self _ fun c member => solid_of_digit c (decimal _ c member)]
    split
    next digits minus =>
      exact absurd (decimal n.toNat '-' (minus ▸ List.mem_cons_self)) (by decide)
    next digits plus =>
      exact absurd (decimal n.toNat '+' (plus ▸ List.mem_cons_self)) (by decide)
    next digits =>
      rw [parsed, Option.map_some]
      exact congrArg some (Int.toNat_of_nonneg sign)
  · rw [if_neg sign, String.toList_append, Nat.toList_repr, parseInt, strip_eq_self]
    · have minus : "-".toList ++ Nat.toDigits 10 (-n).toNat = '-' :: Nat.toDigits 10 (-n).toNat := rfl
      rw [minus]
      simp only [parsed]
      have magnitude : -((-n).toNat : Int) = n := by omega
      exact congrArg some magnitude
    · intro c member
      rcases List.mem_append.mp member with minus | digit
      · have same : c = '-' := by simpa using minus
        rw [same]
        decide
      · exact solid_of_digit c (decimal _ c digit)

theorem toInt_toString (n : Int) : (Value.str (toString n)).toInt = .ok n := by
  simp only [Value.toInt, parseInt_toString]

theorem comma_notMem_toString (n : Int) : ',' ∉ (toString n).toList := by
  rw [Int.toString_eq_repr, Int.repr_eq_if]
  have digits : ∀ m : Nat, ',' ∉ m.repr.toList := by
    intro m member
    rw [Nat.toList_repr] at member
    exact absurd (Nat.isDigit_of_mem_toDigits (by decide) (by decide) member) (by decide)
  split
  · exact digits _
  · rw [String.toList_append, List.mem_append, not_or]
    exact ⟨by decide, digits _⟩

theorem toString_int_ne_empty (n : Int) : (toString n).toList ≠ [] := by
  intro empty
  have parsed := parseInt_toString n
  rw [empty] at parsed
  cases parsed

/-! ## Addresses -/

theorem commaParts_serialize (addr : List Int) :
    commaParts (serializeTraceAddress addr) = addr.map fun i => (toString i).toList := by
  cases addr with
  | nil => rfl
  | cons i rest =>
      have split : ((serializeTraceAddress (i :: rest)).toList).splitOn ',' =
          (i :: rest).map fun i => (toString i).toList := by
        rw [serializeTraceAddress, String.toList_intercalate, List.map_map]
        refine List.splitOn_intercalate ',' ?_ (by simp)
        intro part member
        obtain ⟨j, -, rfl⟩ := List.mem_map.mp member
        exact comma_notMem_toString j
      rw [commaParts, split, List.filter_eq_self]
      intro part member
      obtain ⟨j, -, rfl⟩ := List.mem_map.mp member
      exact decide_eq_true (toString_int_ne_empty j)

theorem parse_serialize (addr : List Int) :
    parseTraceAddress (.str (serializeTraceAddress addr)) = .ok addr := by
  rw [parseTraceAddress]
  cases addr with
  | nil => rfl
  | cons i rest =>
      have nonempty : serializeTraceAddress (i :: rest) ≠ "" := by
        intro empty
        have parts := commaParts_serialize (i :: rest)
        rw [empty] at parts
        cases parts
      rw [if_neg nonempty, commaParts_serialize, mapM_eq_ok_iff, List.forall₂_map_left_iff,
        List.forall₂_same]
      intro j _
      rw [String.ofList_toList]
      exact toInt_toString j

theorem serialize_injective : Function.Injective serializeTraceAddress := by
  intro addr addr' same
  have parsed := parse_serialize addr
  rw [same, parse_serialize addr'] at parsed
  exact (Except.ok.inj parsed).symm

end EconomicLedger.Trace
