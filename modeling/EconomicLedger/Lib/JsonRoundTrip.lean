import EconomicLedger.Lib.JsonText
import Mathlib.Tactic.SplitIfs

/-!
# JSON round trip

Whatever the blanks of a layout, what is written of a tree is read back as the tree.
-/

namespace EconomicLedger.JsonText

/-! ## Characters -/

theorem hexValue_digitChar (d : Nat) (small : d < 16) : hexValue? d.digitChar = some d := by
  have all : ∀ d < 16, hexValue? d.digitChar = some d := by decide
  exact all d small

theorem scanUnit_hex4 (unit : Nat) (small : unit < 65536) (rest : List Char) :
    scanUnit (hex4 unit ++ rest) = some (unit, rest) := by
  have whole : 4096 * (unit / 4096 % 16) + 256 * (unit / 256 % 16) + 16 * (unit / 16 % 16) + unit % 16 =
      unit := by omega
  simp only [hex4, List.cons_append, List.nil_append, scanUnit,
    hexValue_digitChar _ (Nat.mod_lt _ (by decide : 0 < 16)), Option.bind_eq_bind, Option.bind_some, whole]
  rfl

theorem shortEscapes_back (c : Char) (letter : Char) (code : Nat)
    (found : shortEscapes.find? (fun e => e.2 = c.toNat) = some (letter, code)) (rest : List Char) :
    scanEscape (letter :: rest) = some (c, rest) := by
  have own : code = c.toNat := by simpa using List.find?_some found
  subst own
  have listed := List.mem_of_find?_eq_some found
  have back : ∀ e ∈ shortEscapes, e.1 ≠ 'u' ∧ e.1 ≠ '/' ∧
      shortEscapes.find? (·.1 = e.1) = some e := by decide
  obtain ⟨notUnit, notSlash, here⟩ := back _ listed
  rw [scanEscape, if_neg notUnit, if_neg notSlash, here]
  simp

theorem scanEscape_unit (unit : Nat) (plain : unit < 55296 ∨ 57343 < unit) (small : unit < 65536)
    (rest : List Char) : scanEscape ('u' :: hex4 unit ++ rest) = some (Char.ofNat unit, rest) := by
  have notHigh : ¬ (55296 ≤ unit ∧ unit ≤ 56319) := by omega
  have notLow : ¬ (56320 ≤ unit ∧ unit ≤ 57343) := by omega
  rw [List.cons_append, scanEscape, if_pos rfl, scanUnit_hex4 unit small]
  simp [notHigh, notLow]

theorem scanEscape_pair (offset : Nat) (small : offset < 1048576) (rest : List Char) :
    scanEscape ('u' :: hex4 (55296 + offset / 1024) ++ escapeUnit (56320 + offset % 1024) ++ rest) =
      some (Char.ofNat (65536 + offset), rest) := by
  have isHigh : 55296 ≤ 55296 + offset / 1024 ∧ 55296 + offset / 1024 ≤ 56319 := by omega
  have isLow : 56320 ≤ 56320 + offset % 1024 ∧ 56320 + offset % 1024 ≤ 57343 := by omega
  have low : scanLowSurrogate (escapeUnit (56320 + offset % 1024) ++ rest) =
      some (56320 + offset % 1024, rest) := by
    rw [escapeUnit, List.cons_append, List.cons_append, scanLowSurrogate,
      scanUnit_hex4 _ (by omega : 56320 + offset % 1024 < 65536)]
    simp [isLow, guard, pure]
  have code : 65536 + (55296 + offset / 1024 - 55296) * 1024 + (56320 + offset % 1024 - 56320) =
      65536 + offset := by omega
  rw [List.append_assoc, List.cons_append, scanEscape, if_pos rfl,
    scanUnit_hex4 _ (by omega : 55296 + offset / 1024 < 65536)]
  simp only [Option.bind_eq_bind, Option.bind_some, if_pos isHigh, low, code]
  rfl

/-- What `escapeChar` writes for a character is read as the character, whatever follows. -/
theorem scanText_escapeChar (fuel : Nat) (c : Char) (rest : List Char) :
    scanText (fuel + 1) (escapeChar c ++ rest) =
      (scanText fuel rest).map fun read => (c :: read.1, read.2) := by
  have escaped (s : List Char) (read : scanEscape s = some (c, rest)) :
      scanText (fuel + 1) (backslash :: s) = (scanText fuel rest).map fun read => (c :: read.1, read.2) := by
    rw [scanText, if_neg (by decide), if_pos rfl, read]
    simp only [Option.bind_eq_bind, Option.bind_some]
    cases scanText fuel rest with
    | none => rfl
    | some others => rfl
  unfold escapeChar
  cases short : shortEscapes.find? fun e => e.2 = c.toNat with
  | some e => exact escaped _ (shortEscapes_back c e.1 e.2 short rest)
  | none =>
      have unlisted : ∀ e ∈ shortEscapes, e.2 ≠ c.toNat := by
        intro e member
        simpa using List.find?_eq_none.mp short e member
      have notQuote : c ≠ quote := fun same =>
        unlisted (quote, 34) (by decide) (congrArg Char.toNat same).symm
      have notSlash : c ≠ backslash := fun same =>
        unlisted (backslash, 92) (by decide) (congrArg Char.toNat same).symm
      have scalar : c.toNat < 55296 ∨ (57343 < c.toNat ∧ c.toNat < 1114112) := by
        have valid := c.valid
        simpa [UInt32.isValidChar, Nat.isValidChar] using valid
      dsimp only
      split_ifs with printable inUnit
      · have visible : ¬ c.toNat < 32 := by omega
        rw [List.cons_append, List.nil_append, scanText, if_neg notQuote, if_neg notSlash, if_neg visible]
        cases scanText fuel rest with
        | none => rfl
        | some others => rfl
      · have unit := scanEscape_unit c.toNat (by omega) inUnit rest
        rw [Char.ofNat_toNat] at unit
        exact escaped _ unit
      · have code : 65536 + (c.toNat - 65536) = c.toNat := by omega
        have pair := scanEscape_pair (c.toNat - 65536) (by omega) rest
        rw [code, Char.ofNat_toNat] at pair
        exact escaped _ pair

theorem scanText_escaped (s : List Char) (fuel : Nat) (enough : s.length < fuel) (rest : List Char) :
    scanText fuel (s.flatMap escapeChar ++ quote :: rest) = some (s, rest) := by
  induction s generalizing fuel with
  | nil =>
      obtain ⟨fuel, rfl⟩ := Nat.exists_eq_add_of_lt enough
      rfl
  | cons c s ih =>
      obtain ⟨fuel, rfl⟩ : ∃ f, fuel = f + 1 := ⟨fuel - 1, by omega⟩
      rw [List.flatMap_cons, List.append_assoc, scanText_escapeChar,
        ih fuel (by simpa using enough)]
      rfl

theorem escapeChar_ne_nil (c : Char) : escapeChar c ≠ [] := by
  unfold escapeChar
  split
  · exact List.cons_ne_nil _ _
  · split_ifs
    · exact List.cons_ne_nil _ _
    · exact List.cons_ne_nil _ _
    · exact List.cons_ne_nil _ _

theorem length_escaped (s : List Char) : s.length ≤ (s.flatMap escapeChar).length := by
  induction s with
  | nil => exact Nat.le_refl _
  | cons c s ih =>
      have one := List.length_pos_iff.mpr (escapeChar_ne_nil c)
      rw [List.flatMap_cons, List.length_append, List.length_cons]
      omega

theorem scanText_renderText (s : String) (fuel : Nat) (enough : (renderText s).length ≤ fuel)
    (rest : List Char) :
    scanText fuel ((renderText s).tail ++ rest) = some (s.toList, rest) := by
  have size := length_escaped s.toList
  simp only [renderText, List.length_cons, List.length_append] at enough
  rw [renderText, List.tail_cons, List.append_assoc, List.singleton_append]
  exact scanText_escaped s.toList fuel (by omega) rest

/-! ## Numbers -/

/-- What may follow a number: no digit, and nothing that continues it. -/
def EndsNumber (rest : List Char) : Prop :=
  ∀ c tail, rest = c :: tail → c.isDigit = false ∧ c ≠ '.' ∧ c ≠ 'e' ∧ c ≠ 'E'

theorem takeWhile_digits {digits rest : List Char} (decimal : ∀ c ∈ digits, c.isDigit = true)
    (ends : EndsNumber rest) :
    (digits ++ rest).takeWhile Char.isDigit = digits ∧ (digits ++ rest).dropWhile Char.isDigit = rest := by
  have stop : rest.takeWhile Char.isDigit = [] ∧ rest.dropWhile Char.isDigit = rest := by
    cases rest with
    | nil => exact ⟨rfl, rfl⟩
    | cons c tail => simp [(ends c tail rfl).1]
  rw [List.takeWhile_append_of_pos decimal, List.dropWhile_append_of_pos decimal, stop.1, stop.2]
  exact ⟨List.append_nil _, rfl⟩

theorem toDigits_head (n : Nat) (positive : 0 < n) :
    ∃ c tail, Nat.toDigits 10 n = c :: tail ∧ c ≠ '0' ∧ c.isDigit = true := by
  induction n using Nat.strongRecOn with
  | ind n ih =>
      by_cases small : n < 10
      · refine ⟨n.digitChar, [], Nat.toDigits_of_lt_base small, ?_⟩
        have all : ∀ d < 10, 0 < d → d.digitChar ≠ '0' ∧ d.digitChar.isDigit = true := by decide
        exact all n small positive
      · obtain ⟨c, tail, written, nonzero⟩ := ih (n / 10) (by omega) (by omega)
        refine ⟨c, tail ++ [(n % 10).digitChar], ?_, nonzero⟩
        rw [Nat.toDigits_of_base_le (by decide) (by omega), written, List.cons_append]

theorem scanDigits_toDigits (n : Nat) (rest : List Char) (ends : EndsNumber rest) :
    scanDigits (Nat.toDigits 10 n ++ rest) = some (n, rest) := by
  have decimal : ∀ c ∈ Nat.toDigits 10 n, c.isDigit = true :=
    fun c member => Nat.isDigit_of_mem_toDigits (by decide) (by decide) member
  obtain ⟨whole, left⟩ := takeWhile_digits decimal ends
  rcases Nat.eq_zero_or_pos n with rfl | positive
  · rfl
  · obtain ⟨c, tail, written, nonzero, digit⟩ := toDigits_head n positive
    have value : Nat.ofDigitChars 10 (c :: tail) 0 = n := written ▸ Nat.ofDigitChars_ten_toDigits
    rw [written] at whole left ⊢
    rw [List.cons_append] at whole left ⊢
    rw [scanDigits, if_neg nonzero, if_pos digit, whole, left, value]

theorem continuesNumber_of_ends {rest : List Char} (ends : EndsNumber rest) :
    continuesNumber rest = false := by
  cases rest with
  | nil => rfl
  | cons c tail =>
      obtain ⟨-, point, lowerE, upperE⟩ := ends c tail rfl
      simp [continuesNumber, point, lowerE, upperE]

theorem toString_negSucc (m : Nat) : (toString (Int.negSucc m)).toList = '-' :: Nat.toDigits 10 (m + 1) := by
  rw [Int.toString_eq_repr, Int.repr_eq_if, if_neg (by omega), String.toList_append, Nat.toList_repr]
  rfl

theorem scanNumber_toString (n : Int) (rest : List Char) (ends : EndsNumber rest) :
    scanNumber ((toString n).toList ++ rest) = some (.num n, rest) := by
  have done := continuesNumber_of_ends ends
  cases n with
  | ofNat m =>
      have written : (toString (Int.ofNat m)).toList = Nat.toDigits 10 m := Nat.toList_repr
      have unsigned : (Nat.toDigits 10 m).head? ≠ some '-' := by
        intro minus
        have digit : '-'.isDigit = true := Nat.isDigit_of_mem_toDigits (by decide) (by decide)
          (List.mem_of_head? minus)
        cases digit
      rw [written, scanNumber]
      simp [unsigned, scanDigits_toDigits m rest ends, done, guard, pure]
  | negSucc m =>
      rw [toString_negSucc, scanNumber]
      simp [scanDigits_toDigits (m + 1) rest ends, done, guard, pure, Int.negSucc_eq]

theorem digit_bounds {c : Char} (digit : c.isDigit = true) : 48 ≤ c.toNat ∧ c.toNat ≤ 57 := by
  simpa [Char.isDigit, UInt32.le_iff_toNat_le, ← Char.toNat_val] using digit

/-- The codes a number may start with. -/
def isNumeric (c : Char) : Bool := c.toNat = 45 ∨ (48 ≤ c.toNat ∧ c.toNat ≤ 57)

theorem toString_head (n : Int) : ∃ c tail, (toString n).toList = c :: tail ∧ isNumeric c = true := by
  cases n with
  | ofNat m =>
      have written : (toString (Int.ofNat m)).toList = Nat.toDigits 10 m := Nat.toList_repr
      obtain ⟨c, tail, digits⟩ := List.exists_cons_of_ne_nil (Nat.toDigits_ne_nil : Nat.toDigits 10 m ≠ [])
      have digit : c.isDigit = true := Nat.isDigit_of_mem_toDigits (by decide) (by decide)
        (digits ▸ List.mem_cons_self : c ∈ Nat.toDigits 10 m)
      exact ⟨c, tail, written.trans digits, decide_eq_true (Or.inr (digit_bounds digit))⟩
  | negSucc m => exact ⟨'-', Nat.toDigits 10 (m + 1), toString_negSucc m, by decide⟩

theorem ne_of_numeric {c d : Char} (numeric : isNumeric c = true) (other : isNumeric d = false) : c ≠ d := by
  rintro rfl
  rw [numeric] at other
  cases other

/-! ## Blanks -/

structure Layout.Blank (layout : Layout) : Prop where
  afterOpen : ∀ depth, ∀ c ∈ layout.afterOpen depth, isBlank c = true
  afterComma : ∀ depth, ∀ c ∈ layout.afterComma depth, isBlank c = true
  afterColon : ∀ c ∈ layout.afterColon, isBlank c = true
  beforeClose : ∀ depth, ∀ c ∈ layout.beforeClose depth, isBlank c = true

theorem compact_blank : compact.Blank := ⟨nofun, nofun, nofun, nofun⟩

theorem newline_blank (width : Nat) : ∀ c ∈ newline width, isBlank c = true := by
  intro c member
  rcases List.mem_cons.mp member with rfl | space
  · decide
  · rw [List.eq_of_mem_replicate space]
    decide

theorem indented_blank (indent : Nat) : (indented indent).Blank where
  afterOpen := fun _ => newline_blank _
  afterComma := fun _ => newline_blank _
  afterColon := by
    exact List.forall_mem_singleton.mpr (by decide)
  beforeClose := fun _ => newline_blank _

theorem skipBlanks_append {blanks : List Char} (blank : ∀ c ∈ blanks, isBlank c = true) (c : Char)
    (solid : isBlank c = false) (rest : List Char) : skipBlanks (blanks ++ c :: rest) = c :: rest := by
  rw [skipBlanks, List.dropWhile_append_of_pos blank, List.dropWhile_cons_of_neg (by simp [solid])]

theorem skipBlanks_solid (c : Char) (solid : isBlank c = false) (rest : List Char) :
    skipBlanks (c :: rest) = c :: rest :=
  skipBlanks_append (List.forall_mem_nil _) c solid rest

theorem endsNumber_of_blank (c : Char) (blank : isBlank c = true) (rest : List Char) :
    EndsNumber (c :: rest) := by
  rintro _ _ ⟨rfl, rfl⟩
  have code : c.toNat ∈ [32, 9, 10, 13] := of_decide_eq_true blank
  simp only [List.mem_cons, List.not_mem_nil, or_false] at code
  have apart (d : Char) (large : 33 ≤ d.toNat) : c ≠ d := fun same => by
    subst same
    omega
  refine ⟨?_, apart '.' (by decide), apart 'e' (by decide), apart 'E' (by decide)⟩
  rw [Bool.eq_false_iff]
  intro digit
  have bounds := digit_bounds digit
  omega

theorem endsNumber_of_closing (c : Char) (closing : c ∈ [',', ']', closeBrace]) (rest : List Char) :
    EndsNumber (c :: rest) := by
  rintro _ _ ⟨rfl, rfl⟩
  have all : ∀ c ∈ [',', ']', closeBrace], c.isDigit = false ∧ c ≠ '.' ∧ c ≠ 'e' ∧ c ≠ 'E' := by
    simp only [List.forall_mem_cons, List.not_mem_nil, false_implies, implies_true, and_true]
    decide
  exact all c closing

theorem endsNumber_append {blanks : List Char} (blank : ∀ c ∈ blanks, isBlank c = true) {rest : List Char}
    (ends : EndsNumber rest) : EndsNumber (blanks ++ rest) := by
  cases blanks with
  | nil => exact ends
  | cons c others => exact endsNumber_of_blank c (blank c List.mem_cons_self) _

/-! ## Trees -/

mutual
/-- Keys of an object are distinct, as those of a `dict` are. -/
def Tree.Distinct : Tree → Prop
  | .arr items => ItemsDistinct items
  | .obj members => (members.map Prod.fst).Nodup ∧ MembersDistinct members
  | _ => True
def ItemsDistinct : List Tree → Prop
  | [] => True
  | item :: rest => item.Distinct ∧ ItemsDistinct rest
def MembersDistinct : List (String × Tree) → Prop
  | [] => True
  | (_, value) :: rest => value.Distinct ∧ MembersDistinct rest
end

variable {layout : Layout}

theorem renderText_cons (s : String) : renderText s = quote :: (renderText s).tail := rfl

/-- A value starts with a character that is no blank and closes nothing. -/
theorem render_head (layout : Layout) (depth : Nat) (tree : Tree) :
    ∃ c tail, render layout depth tree = c :: tail ∧ isBlank c = false ∧ c ≠ ']' := by
  cases tree with
  | null => exact ⟨_, _, by rw [render]; rfl, by decide, by decide⟩
  | bool b =>
      cases b with
      | true => exact ⟨_, _, by rw [render]; rfl, by decide, by decide⟩
      | false => exact ⟨_, _, by rw [render]; rfl, by decide, by decide⟩
  | num n =>
      obtain ⟨c, tail, written, numeric⟩ := toString_head n
      refine ⟨c, tail, by rw [render, written], ?_, ne_of_numeric numeric (by decide)⟩
      rw [Bool.eq_false_iff]
      intro blank
      have code : c.toNat ∈ [32, 9, 10, 13] := of_decide_eq_true blank
      have start := of_decide_eq_true numeric
      simp only [List.mem_cons, List.not_mem_nil, or_false] at code
      omega
  | str s => exact ⟨_, _, by rw [render]; exact renderText_cons s, by decide, by decide⟩
  | arr items =>
      cases items with
      | nil => exact ⟨_, _, by rw [render], by decide, by decide⟩
      | cons item rest => exact ⟨_, _, by rw [render], by decide, by decide⟩
  | obj members =>
      cases members with
      | nil => exact ⟨_, _, by rw [render], by decide, by decide⟩
      | cons m rest => exact ⟨_, _, by rw [render], by decide, by decide⟩

theorem renderItems_head (layout : Layout) (depth : Nat) (item : Tree) (items : List Tree) :
    ∃ c tail, renderItems layout depth (item :: items) = c :: tail ∧ isBlank c = false ∧ c ≠ ']' := by
  obtain ⟨c, tail, start, solid⟩ := render_head layout (depth + 1) item
  cases items with
  | nil => exact ⟨c, tail, by rw [renderItems, start], solid⟩
  | cons next items => exact ⟨c, _, by rw [renderItems, start, List.cons_append], solid⟩

theorem renderMembers_head (layout : Layout) (depth : Nat) (m : String × Tree) (members : List (String × Tree)) :
    ∃ tail, renderMembers layout depth (m :: members) = quote :: tail := by
  cases members with
  | nil => exact ⟨_, by rw [renderMembers, renderText_cons, List.cons_append]⟩
  | cons next members => exact ⟨_, by rw [renderMembers, renderText_cons, List.cons_append]⟩

theorem scanLiteral_numeric (c : Char) (numeric : isNumeric c = true) (rest : List Char) :
    scanLiteral (c :: rest) = none := by
  have apart : ∀ l ∈ literals, l.1.toList.isPrefixOf (c :: rest) = false := by
    intro l member
    simp only [literals, List.mem_cons, List.not_mem_nil, or_false] at member
    have notN : ('n' == c) = false := beq_eq_false_iff_ne.mpr (ne_of_numeric numeric (by decide)).symm
    have notT : ('t' == c) = false := beq_eq_false_iff_ne.mpr (ne_of_numeric numeric (by decide)).symm
    have notF : ('f' == c) = false := beq_eq_false_iff_ne.mpr (ne_of_numeric numeric (by decide)).symm
    rcases member with rfl | rfl | rfl
    · simp [List.isPrefixOf, notN]
    · simp [List.isPrefixOf, notT]
    · simp [List.isPrefixOf, notF]
  rw [scanLiteral, List.find?_eq_none.mpr fun l member => by simp [apart l member]]
  rfl

theorem scanValue_num (n : Int) (fuel : Nat) (rest : List Char) (ends : EndsNumber rest) :
    scanValue (fuel + 1) ((toString n).toList ++ rest) = some (.num n, rest) := by
  have read := scanNumber_toString n rest ends
  obtain ⟨c, tail, written, numeric⟩ := toString_head n
  rw [written, List.cons_append] at read ⊢
  rw [scanValue, if_neg (ne_of_numeric numeric (by decide)), if_neg (ne_of_numeric numeric (by decide)),
    if_neg (ne_of_numeric numeric (by decide)), scanLiteral_numeric c numeric, read]
  rfl

theorem scanValue_text (s : String) (fuel : Nat) (enough : (renderText s).length ≤ fuel) (rest : List Char) :
    scanValue (fuel + 1) (renderText s ++ rest) = some (.str s, rest) := by
  have read := scanText_renderText s fuel enough rest
  rw [renderText_cons, List.cons_append, scanValue, if_pos rfl, read]
  simp [pure]

/-- What `scanMembers` does after a key and its value. -/
def memberTail (fuel : Nat) (key : String) (value : Tree) :
    List Char → Option (List (String × Tree) × List Char)
  | [] => none
  | c :: rest =>
      if c = closeBrace then some ([(key, value)], rest)
      else if c = ',' then do
        let (others, rest) ← scanMembers fuel (skipBlanks rest)
        return ((key, value) :: others, rest)
      else none

theorem scanMembers_key (blank : layout.Blank) (key : String) (depth : Nat) (value : Tree) (fuel : Nat)
    (enough : (renderText key).length ≤ fuel) (rest : List Char)
    (read : scanValue fuel (render layout (depth + 1) value ++ rest) = some (value, rest)) :
    scanMembers (fuel + 1)
        (renderText key ++ (':' :: (layout.afterColon ++ (render layout (depth + 1) value ++ rest)))) =
      memberTail fuel key value (skipBlanks rest) := by
  obtain ⟨c, tail, start, solid, -⟩ := render_head layout (depth + 1) value
  rw [renderText_cons, List.cons_append, scanMembers, if_pos rfl, scanText_renderText key fuel enough]
  simp only [Option.bind_eq_bind, Option.bind_some, skipBlanks_solid ':' (by decide)]
  rw [start, List.cons_append] at read ⊢
  rw [if_pos trivial, skipBlanks_append blank.afterColon c solid, read, Option.bind_some,
    String.ofList_toList]
  cases skipBlanks rest with
  | nil => rfl
  | cons d others => rfl

mutual
/-- What is rendered is read back, whatever follows that does not continue a number. -/
theorem scanValue_render (blank : layout.Blank) : ∀ (tree : Tree), tree.Distinct → ∀ depth fuel rest,
    3 * (render layout depth tree).length ≤ fuel → EndsNumber rest →
      scanValue fuel (render layout depth tree ++ rest) = some (tree, rest)
  | .null, _, depth, fuel, rest, enough, _ => by
      rw [render] at enough ⊢
      obtain ⟨fuel, rfl⟩ : ∃ f, fuel = f + 1 := ⟨fuel - 1, by simp at enough; omega⟩
      rfl
  | .bool true, _, depth, fuel, rest, enough, _ => by
      rw [render] at enough ⊢
      obtain ⟨fuel, rfl⟩ : ∃ f, fuel = f + 1 := ⟨fuel - 1, by simp at enough; omega⟩
      rfl
  | .bool false, _, depth, fuel, rest, enough, _ => by
      rw [render] at enough ⊢
      obtain ⟨fuel, rfl⟩ : ∃ f, fuel = f + 1 := ⟨fuel - 1, by simp at enough; omega⟩
      rfl
  | .num n, _, depth, fuel, rest, enough, ends => by
      rw [render] at enough ⊢
      obtain ⟨c, tail, written, -⟩ := toString_head n
      rw [written, List.length_cons] at enough
      obtain ⟨fuel, rfl⟩ : ∃ f, fuel = f + 1 := ⟨fuel - 1, by omega⟩
      exact scanValue_num n fuel rest ends
  | .str s, _, depth, fuel, rest, enough, _ => by
      rw [render] at enough ⊢
      have size : 0 < (renderText s).length := by simp [renderText]
      obtain ⟨fuel, rfl⟩ : ∃ f, fuel = f + 1 := ⟨fuel - 1, by omega⟩
      exact scanValue_text s fuel (by omega) rest
  | .arr [], _, depth, fuel, rest, enough, _ => by
      rw [render] at enough ⊢
      obtain ⟨fuel, rfl⟩ : ∃ f, fuel = f + 2 := ⟨fuel - 2, by simp at enough; omega⟩
      rfl
  | .arr (item :: items), distinct, depth, fuel, rest, enough, _ => by
      rw [render] at enough ⊢
      simp only [List.length_cons, List.length_append] at enough
      obtain ⟨fuel, rfl⟩ : ∃ f, fuel = f + 3 := ⟨fuel - 3, by omega⟩
      obtain ⟨c, tail, start, solid, notClose⟩ := renderItems_head layout depth item items
      have inside := scanItems_render blank (item :: items) (List.cons_ne_nil _ _) distinct depth (fuel + 1) rest
        (by omega)
      simp only [List.cons_append, List.append_assoc, List.nil_append]
      rw [scanValue, if_neg (by decide), if_neg (by decide), if_pos rfl]
      rw [start, List.cons_append] at inside ⊢
      rw [skipBlanks_append (blank.afterOpen depth) c solid, scanArray, if_neg notClose, inside]
      rfl
  | .obj [], _, depth, fuel, rest, enough, _ => by
      rw [render] at enough ⊢
      obtain ⟨fuel, rfl⟩ : ∃ f, fuel = f + 2 := ⟨fuel - 2, by simp at enough; omega⟩
      rfl
  | .obj (m :: members), distinct, depth, fuel, rest, enough, _ => by
      rw [render] at enough ⊢
      simp only [List.length_cons, List.length_append] at enough
      obtain ⟨fuel, rfl⟩ : ∃ f, fuel = f + 3 := ⟨fuel - 3, by omega⟩
      obtain ⟨tail, start⟩ := renderMembers_head layout depth m members
      have inside := scanMembers_render blank (m :: members) (List.cons_ne_nil _ _) distinct.2 depth
        (fuel + 1) rest (by omega)
      have dict : (Dict.ofList (m :: members)).entries = m :: members :=
        congrArg Dict.entries (Dict.ofList_entries ⟨m :: members, distinct.1⟩)
      simp only [List.cons_append, List.append_assoc, List.nil_append]
      rw [scanValue, if_neg (by decide), if_pos rfl]
      rw [start, List.cons_append] at inside ⊢
      rw [skipBlanks_append (blank.afterOpen depth) quote (by decide), scanObject, if_neg (by decide), inside]
      simp only [Option.bind_eq_bind, Option.bind_some, dict]
      rfl
theorem scanItems_render (blank : layout.Blank) : ∀ (items : List Tree), items ≠ [] → ItemsDistinct items →
    ∀ depth fuel rest, 3 * (renderItems layout depth items).length + 1 ≤ fuel →
      scanItems fuel (renderItems layout depth items ++ (layout.beforeClose depth ++ ']' :: rest)) =
        some (items, rest)
  | [], nonempty, _, _, _, _, _ => absurd rfl nonempty
  | [item], _, distinct, depth, fuel, rest, enough => by
      rw [renderItems] at enough ⊢
      obtain ⟨fuel, rfl⟩ : ∃ f, fuel = f + 1 := ⟨fuel - 1, by omega⟩
      have ends := endsNumber_append (blank.beforeClose depth) (endsNumber_of_closing ']' (by decide) rest)
      have first := scanValue_render blank item distinct.1 (depth + 1) fuel _ (by omega) ends
      rw [scanItems, first]
      simp only [Option.bind_eq_bind, Option.bind_some,
        skipBlanks_append (blank.beforeClose depth) ']' (by decide) rest]
      rfl
  | item :: next :: items, _, distinct, depth, fuel, rest, enough => by
      rw [renderItems] at enough ⊢
      simp only [List.length_cons, List.length_append] at enough
      obtain ⟨fuel, rfl⟩ : ∃ f, fuel = f + 1 := ⟨fuel - 1, by omega⟩
      obtain ⟨c, tail, start, solid, -⟩ := renderItems_head layout depth next items
      have others := scanItems_render blank (next :: items) (List.cons_ne_nil _ _) distinct.2 depth fuel rest
        (by omega)
      have first := scanValue_render blank item distinct.1 (depth + 1) fuel
        (',' :: (layout.afterComma depth ++ renderItems layout depth (next :: items) ++
          (layout.beforeClose depth ++ ']' :: rest))) (by omega) (endsNumber_of_closing ',' (by decide) _)
      rw [List.append_assoc, List.cons_append, scanItems, first]
      simp only [Option.bind_eq_bind, Option.bind_some, skipBlanks_solid ',' (by decide)]
      rw [if_neg (by decide), if_pos trivial, List.append_assoc]
      rw [start, List.cons_append] at others ⊢
      rw [skipBlanks_append (blank.afterComma depth) c solid, others]
      rfl
theorem scanMembers_render (blank : layout.Blank) : ∀ (members : List (String × Tree)),
    members ≠ [] → MembersDistinct members → ∀ depth fuel rest,
      3 * (renderMembers layout depth members).length + 1 ≤ fuel →
      scanMembers fuel (renderMembers layout depth members ++
        (layout.beforeClose depth ++ closeBrace :: rest)) = some (members, rest)
  | [], nonempty, _, _, _, _, _ => absurd rfl nonempty
  | [(key, value)], _, distinct, depth, fuel, rest, enough => by
      rw [renderMembers] at enough ⊢
      simp only [List.length_cons, List.length_append] at enough
      obtain ⟨fuel, rfl⟩ : ∃ f, fuel = f + 1 := ⟨fuel - 1, by omega⟩
      have ends := endsNumber_append (blank.beforeClose depth)
        (endsNumber_of_closing closeBrace (by decide) rest)
      have first := scanValue_render blank value distinct.1 (depth + 1) fuel _ (by omega) ends
      simp only [List.append_assoc, List.cons_append]
      rw [scanMembers_key blank key depth value fuel (by omega) _ first,
        skipBlanks_append (blank.beforeClose depth) closeBrace (by decide) rest]
      rfl
  | (key, value) :: next :: members, _, distinct, depth, fuel, rest, enough => by
      rw [renderMembers] at enough ⊢
      simp only [List.length_cons, List.length_append] at enough
      obtain ⟨fuel, rfl⟩ : ∃ f, fuel = f + 1 := ⟨fuel - 1, by omega⟩
      obtain ⟨tail, start⟩ := renderMembers_head layout depth next members
      have others := scanMembers_render blank (next :: members) (List.cons_ne_nil _ _) distinct.2 depth fuel rest
        (by omega)
      have first := scanValue_render blank value distinct.1 (depth + 1) fuel
        (',' :: (layout.afterComma depth ++ (renderMembers layout depth (next :: members) ++
          (layout.beforeClose depth ++ closeBrace :: rest)))) (by omega)
        (endsNumber_of_closing ',' (by decide) _)
      simp only [List.append_assoc, List.cons_append]
      rw [scanMembers_key blank key depth value fuel (by omega) _ first, skipBlanks_solid ',' (by decide),
        memberTail, if_neg (by decide), if_pos rfl]
      rw [start, List.cons_append] at others ⊢
      rw [skipBlanks_append (blank.afterComma depth) quote (by decide), others]
      rfl
end

/-- `json.loads` undoes `json.dumps`. -/
theorem loads_dumps (blank : layout.Blank) (tree : Tree) (distinct : tree.Distinct) :
    loads (dumps layout tree) = some tree := by
  have read := scanValue_render blank tree distinct 0 (3 * (render layout 0 tree).length + 1) []
    (Nat.le_succ _) nofun
  obtain ⟨c, tail, start, solid, -⟩ := render_head layout 0 tree
  rw [List.append_nil] at read
  rw [loads, dumps, String.toList_ofList]
  rw [start] at read ⊢
  rw [skipBlanks_solid c solid, read]
  rfl

end EconomicLedger.JsonText
