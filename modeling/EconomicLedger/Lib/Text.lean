import Mathlib.Data.List.Basic
import Mathlib.Tactic.SplitIfs
import Std.Data.String.ToInt

/-!
# Text keys

ASCII case folding, prefixes, and keys made by joining fields with a bar. The injectivity lemmas
peel one bar-free field off either end of a joined key, so a key is readable as long as at most
one of its fields may hold a bar.
-/

namespace EconomicLedger.Text

/-- `str.lower` on ASCII text. -/
def lower (s : String) : String := String.ofList (s.toList.map Char.toLower)

def upper (s : String) : String := String.ofList (s.toList.map Char.toUpper)

def startsWith (s pre : String) : Bool := pre.toList.isPrefixOf s.toList

def sliceFrom (s : String) (n : Nat) : String := String.ofList (s.toList.drop n)

def sliceTo (s : String) (n : Nat) : String := String.ofList (s.toList.take n)

/-- The fields of a key, separated by bars. -/
def joinBar : List String → String
  | [] => ""
  | [field] => field
  | field :: next :: rest => field ++ "|" ++ joinBar (next :: rest)

def BarFree (s : String) : Prop := '|' ∉ s.toList

instance (s : String) : Decidable (BarFree s) := inferInstanceAs (Decidable ('|' ∉ s.toList))

/-! ## Case folding -/

theorem toNat_toLower (c : Char) :
    c.toLower.toNat = if 65 ≤ c.toNat ∧ c.toNat ≤ 90 then c.toNat + 32 else c.toNat := by
  have bounds : (c.val ≥ 'A'.val ∧ c.val ≤ 'Z'.val) ↔ (65 ≤ c.toNat ∧ c.toNat ≤ 90) := by
    simp [UInt32.le_iff_toNat_le, ← Char.toNat_val]
  unfold Char.toLower
  by_cases upper : c.val ≥ 'A'.val ∧ c.val ≤ 'Z'.val
  · have small := (bounds.mp upper).2
    rw [dif_pos upper, if_pos (bounds.mp upper)]
    simp only [← Char.toNat_val, UInt32.toNat_add]
    rw [← Char.toNat_val] at small
    have gap : ('a'.val - 'A'.val).toNat = 32 := by decide
    omega
  · rw [dif_neg upper, if_neg (fun h => upper (bounds.mpr h))]

theorem toLower_toLower (c : Char) : c.toLower.toLower = c.toLower := by
  apply Char.toNat_inj.mp
  rw [toNat_toLower c.toLower, toNat_toLower c]
  split_ifs <;> omega

theorem toLower_eq_bar (c : Char) : c.toLower = '|' ↔ c = '|' := by
  rw [← Char.toNat_inj, ← Char.toNat_inj, toNat_toLower]
  have bar : '|'.toNat = 124 := by decide
  split_ifs <;> omega

@[simp] theorem toList_lower (s : String) : (lower s).toList = s.toList.map Char.toLower :=
  String.toList_ofList

theorem lower_append (s t : String) : lower (s ++ t) = lower s ++ lower t := by
  rw [lower, String.toList_append, List.map_append, String.ofList_append]
  rfl

@[simp] theorem lower_lower (s : String) : lower (lower s) = lower s := by
  apply String.ext_iff.mpr
  simp only [toList_lower, List.map_map]
  exact List.map_congr_left fun c _ => toLower_toLower c

@[simp] theorem lower_empty : lower "" = "" := rfl

@[simp] theorem lower_eq_empty (s : String) : lower s = "" ↔ s = "" := by
  rw [String.ext_iff, String.ext_iff, toList_lower]
  simp

@[simp] theorem barFree_lower (s : String) : BarFree (lower s) ↔ BarFree s := by
  simp only [BarFree, toList_lower, List.mem_map, toLower_eq_bar, exists_eq_right]

/-! ## Slices -/

theorem length_le_of_startsWith {s pre : String} (starts : startsWith s pre = true) :
    pre.length ≤ s.length := by
  have within := (List.isPrefixOf_iff_prefix.mp starts).length_le
  rwa [String.length_toList, String.length_toList] at within

theorem sliceFrom_append (s t : String) (n : Nat) (within : n ≤ s.length) :
    sliceFrom (s ++ t) n = sliceFrom s n ++ t := by
  rw [← String.length_toList] at within
  rw [sliceFrom, String.toList_append, List.drop_append_of_le_length within, String.ofList_append,
    String.ofList_toList, sliceFrom]

/-! ## Decimal fields -/

theorem notMem_nat (c : Char) (other : c.isDigit = false) (n : Nat) : c ∉ n.repr.toList := by
  intro member
  rw [Nat.toList_repr] at member
  have digit := Nat.isDigit_of_mem_toDigits (by decide) (by decide) member
  exact absurd digit (Bool.eq_false_iff.mp other)

theorem notMem_int (c : Char) (other : c.isDigit = false) (unsigned : c ≠ '-') (n : Int) :
    c ∉ (toString n).toList := by
  rw [Int.toString_eq_repr, Int.repr_eq_if]
  split_ifs
  · exact notMem_nat c other _
  · intro member
    rw [String.toList_append, List.mem_append] at member
    rcases member with sign | digits
    · exact unsigned (List.mem_singleton.mp sign)
    · exact notMem_nat c other _ digits

theorem barFree_nat (n : Nat) : BarFree n.repr := notMem_nat '|' (by decide) n

@[simp] theorem barFree_int (n : Int) : BarFree (toString n) :=
  notMem_int '|' (by decide) (by decide) n

@[simp] theorem toString_int_inj (m n : Int) : toString m = toString n ↔ m = n := by
  rw [Int.toString_eq_repr, Int.toString_eq_repr, Int.repr_inj]

@[simp] theorem toString_nat_inj (m n : Nat) : toString m = toString n ↔ m = n :=
  Nat.repr_inj

@[simp] theorem barFree_toString_nat (n : Nat) : BarFree (toString n) := barFree_nat n

/-! ## Joined keys -/

theorem append_cons_inj {α : Type*} {sep : α} {a b x y : List α} (freeA : sep ∉ a)
    (freeB : sep ∉ b) : a ++ sep :: x = b ++ sep :: y ↔ a = b ∧ x = y := by
  refine ⟨fun same => ?_, fun ⟨first, rest⟩ => by rw [first, rest]⟩
  induction a generalizing b with
  | nil =>
      cases b with
      | nil => simpa using same
      | cons d b =>
          rw [List.nil_append, List.cons_append, List.cons.injEq] at same
          exact absurd (same.1 ▸ List.mem_cons_self) freeB
  | cons c a ih =>
      cases b with
      | nil =>
          rw [List.nil_append, List.cons_append, List.cons.injEq] at same
          exact absurd (same.1 ▸ List.mem_cons_self) freeA
      | cons d b =>
          simp only [List.cons_append, List.cons.injEq] at same
          obtain ⟨first, rest⟩ := ih (fun h => freeA (List.mem_cons_of_mem _ h))
            (fun h => freeB (List.mem_cons_of_mem _ h)) same.2
          exact ⟨by rw [same.1, first], rest⟩

theorem append_cons_inj_right {α : Type*} {sep : α} {a b x y : List α} (freeX : sep ∉ x)
    (freeY : sep ∉ y) : a ++ sep :: x = b ++ sep :: y ↔ a = b ∧ x = y := by
  have reversed := append_cons_inj (x := a.reverse) (y := b.reverse)
    (List.mem_reverse.not.mpr freeX) (List.mem_reverse.not.mpr freeY)
  rw [← List.reverse_inj]
  simpa [and_comm] using reversed

theorem toList_joinBar_cons {field : String} {rest : List String} (nonempty : rest ≠ []) :
    (joinBar (field :: rest)).toList = field.toList ++ '|' :: (joinBar rest).toList := by
  cases rest with
  | nil => exact absurd rfl nonempty
  | cons next rest => simp [joinBar]

theorem joinBar_cons_inj {a b : String} {xs ys : List String} (freeA : BarFree a)
    (freeB : BarFree b) (hx : xs ≠ []) (hy : ys ≠ []) :
    joinBar (a :: xs) = joinBar (b :: ys) ↔ a = b ∧ joinBar xs = joinBar ys := by
  rw [String.ext_iff, toList_joinBar_cons hx, toList_joinBar_cons hy,
    append_cons_inj freeA freeB, ← String.ext_iff, ← String.ext_iff]

theorem toList_joinBar_concat {fields : List String} {last : String} (nonempty : fields ≠ []) :
    (joinBar (fields ++ [last])).toList = (joinBar fields).toList ++ '|' :: last.toList := by
  induction fields with
  | nil => exact absurd rfl nonempty
  | cons field rest ih =>
      by_cases empty : rest = []
      · simp [empty, joinBar]
      · rw [List.cons_append, toList_joinBar_cons (by simp), ih empty, toList_joinBar_cons empty]
        simp

theorem joinBar_concat_inj {a b : String} {x y : List String} (freeA : BarFree a)
    (freeB : BarFree b) (hx : x ≠ []) (hy : y ≠ []) :
    joinBar (x ++ [a]) = joinBar (y ++ [b]) ↔ joinBar x = joinBar y ∧ a = b := by
  rw [String.ext_iff, toList_joinBar_concat hx, toList_joinBar_concat hy,
    append_cons_inj_right freeA freeB, ← String.ext_iff, ← String.ext_iff]

theorem joinBar_tagged_inj {tag tag' body body' suffix suffix' : String} (freeTag : BarFree tag)
    (freeTag' : BarFree tag') (free : BarFree suffix) (free' : BarFree suffix') :
    joinBar [tag, body, suffix] = joinBar [tag', body', suffix'] ↔
      tag = tag' ∧ body = body' ∧ suffix = suffix' := by
  rw [joinBar_cons_inj freeTag freeTag' (by simp) (by simp)]
  exact and_congr_right fun _ =>
    joinBar_concat_inj (x := [body]) (y := [body']) free free' (by simp) (by simp)

end EconomicLedger.Text
