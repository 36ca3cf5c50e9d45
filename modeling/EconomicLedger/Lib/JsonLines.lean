import EconomicLedger.Lib.JsonRoundTrip

/-!
# JSON lines

One compact document on each line. A document holds printable characters only, so the line breaks are
those between documents.
-/

namespace EconomicLedger.JsonText

def lineBreak : Char := Char.ofNat 10

def dumpsLines (rows : List Tree) : String :=
  String.ofList ([lineBreak].intercalate (rows.map (render compact 0)))

def loadsLines (text : String) : Option (List Tree) :=
  if text = "" then some []
  else (text.toList.splitOn lineBreak).mapM fun line => loads (String.ofList line)

/-! ## Printable characters -/

def Printable (s : List Char) : Prop := ∀ c ∈ s, 32 ≤ c.toNat ∧ c.toNat ≤ 126

instance (s : List Char) : Decidable (Printable s) :=
  List.decidableBAll (fun c : Char => 32 ≤ c.toNat ∧ c.toNat ≤ 126) s

structure Layout.OneLine (layout : Layout) : Prop where
  afterOpen : ∀ depth, Printable (layout.afterOpen depth)
  afterComma : ∀ depth, Printable (layout.afterComma depth)
  afterColon : Printable layout.afterColon
  beforeClose : ∀ depth, Printable (layout.beforeClose depth)

theorem compact_oneLine : compact.OneLine := ⟨nofun, nofun, nofun, nofun⟩

theorem printable_append {s t : List Char} (left : Printable s) (right : Printable t) :
    Printable (s ++ t) :=
  fun c member => (List.mem_append.mp member).elim (left c) (right c)

theorem printable_cons {c : Char} (first : 32 ≤ c.toNat ∧ c.toNat ≤ 126) {s : List Char} (rest : Printable s) :
    Printable (c :: s) :=
  printable_append (List.forall_mem_singleton.mpr first) rest

theorem printable_escapeUnit (unit : Nat) : Printable (escapeUnit unit) := by
  have hex : ∀ d < 16, 32 ≤ d.digitChar.toNat ∧ d.digitChar.toNat ≤ 126 := by decide
  have digit (n : Nat) := hex (n % 16) (Nat.mod_lt n (by decide))
  intro c member
  simp only [escapeUnit, hex4, List.mem_cons, List.not_mem_nil, or_false] at member
  rcases member with rfl | rfl | rfl | rfl | rfl | rfl
  · decide
  · decide
  · exact digit _
  · exact digit _
  · exact digit _
  · exact digit _

theorem printable_escapeChar (c : Char) : Printable (escapeChar c) := by
  unfold escapeChar
  split
  · next e found =>
      have letters : ∀ e ∈ shortEscapes, 32 ≤ e.1.toNat ∧ e.1.toNat ≤ 126 := by decide
      exact printable_cons (by decide)
        (printable_cons (letters _ (List.mem_of_find?_eq_some found)) (List.forall_mem_nil _))
  · split_ifs with visible
    · exact List.forall_mem_singleton.mpr visible
    · exact printable_escapeUnit _
    · exact printable_append (printable_escapeUnit _) (printable_escapeUnit _)

theorem printable_renderText (s : String) : Printable (renderText s) := by
  refine printable_cons (by decide) (printable_append ?_ (by decide))
  intro c member
  obtain ⟨d, -, here⟩ := List.mem_flatMap.mp member
  exact printable_escapeChar d c here

theorem printable_toString (n : Int) : Printable (toString n).toList := by
  have digits (m : Nat) : Printable (Nat.toDigits 10 m) := by
    intro c member
    have bounds := digit_bounds (Nat.isDigit_of_mem_toDigits (by decide) (by decide) member)
    omega
  cases n with
  | ofNat m =>
      have written : (toString (Int.ofNat m)).toList = Nat.toDigits 10 m := Nat.toList_repr
      exact written ▸ digits m
  | negSucc m =>
      rw [toString_negSucc]
      exact printable_cons (by decide) (digits _)

variable {layout : Layout}

mutual
theorem printable_render (line : layout.OneLine) : ∀ (tree : Tree) (depth : Nat),
    Printable (render layout depth tree)
  | .null, _ => by
      rw [render]
      decide
  | .bool true, _ => by
      rw [render]
      decide
  | .bool false, _ => by
      rw [render]
      decide
  | .num n, _ => by
      rw [render]
      exact printable_toString n
  | .str s, _ => by
      rw [render]
      exact printable_renderText s
  | .arr [], _ => by
      rw [render]
      decide
  | .arr (item :: rest), depth => by
      rw [render]
      have items := printable_renderItems line (item :: rest) depth
      exact printable_cons (by decide) (printable_append (printable_append (line.afterOpen depth) items)
        (printable_append (line.beforeClose depth) (by decide)))
  | .obj [], _ => by
      rw [render]
      decide
  | .obj (m :: rest), depth => by
      rw [render]
      have members := printable_renderMembers line (m :: rest) depth
      exact printable_cons (by decide) (printable_append (printable_append (line.afterOpen depth) members)
        (printable_append (line.beforeClose depth) (by decide)))
theorem printable_renderItems (line : layout.OneLine) : ∀ (items : List Tree) (depth : Nat),
    Printable (renderItems layout depth items)
  | [], _ => by
      rw [renderItems]
      exact List.forall_mem_nil _
  | [item], depth => by
      rw [renderItems]
      exact printable_render line item (depth + 1)
  | item :: next :: rest, depth => by
      rw [renderItems]
      have others := printable_renderItems line (next :: rest) depth
      exact printable_append (printable_render line item (depth + 1))
        (printable_cons (by decide) (printable_append (line.afterComma depth) others))
theorem printable_renderMembers (line : layout.OneLine) : ∀ (members : List (String × Tree)) (depth : Nat),
    Printable (renderMembers layout depth members)
  | [], _ => by
      rw [renderMembers]
      exact List.forall_mem_nil _
  | [(key, value)], depth => by
      rw [renderMembers]
      have written := printable_render line value (depth + 1)
      exact printable_append (printable_renderText key)
        (printable_cons (by decide) (printable_append line.afterColon written))
  | (key, value) :: next :: rest, depth => by
      rw [renderMembers]
      have written := printable_render line value (depth + 1)
      have others := printable_renderMembers line (next :: rest) depth
      exact printable_append (printable_renderText key) (printable_cons (by decide)
        (printable_append line.afterColon (printable_append written
          (printable_cons (by decide) (printable_append (line.afterComma depth) others)))))
end

/-! ## Lines -/

theorem lineBreak_notMem (tree : Tree) : lineBreak ∉ render compact 0 tree := by
  intro member
  have visible := printable_render compact_oneLine tree 0 lineBreak member
  exact absurd visible.1 (by decide)

theorem mapM_loads (rows : List Tree) (distinct : ∀ row ∈ rows, row.Distinct) :
    rows.mapM (fun row => loads (String.ofList (render compact 0 row))) = some rows := by
  induction rows with
  | nil => rfl
  | cons row rest ih =>
      have first : loads (String.ofList (render compact 0 row)) = some row :=
        loads_dumps compact_blank row (distinct row List.mem_cons_self)
      rw [List.mapM_cons, first, ih fun other member => distinct other (List.mem_cons_of_mem row member)]
      rfl

theorem loadsLines_dumpsLines (rows : List Tree) (distinct : ∀ row ∈ rows, row.Distinct) :
    loadsLines (dumpsLines rows) = some rows := by
  cases rows with
  | nil => rfl
  | cons row rest =>
      have broken : (dumpsLines (row :: rest)).toList.splitOn lineBreak =
          (row :: rest).map (render compact 0) := by
        rw [dumpsLines, String.toList_ofList]
        apply List.splitOn_intercalate
        · intro line member
          obtain ⟨tree, -, rfl⟩ := List.mem_map.mp member
          exact lineBreak_notMem tree
        · exact List.cons_ne_nil _ _
      have nonempty : dumpsLines (row :: rest) ≠ "" := by
        intro blank
        obtain ⟨c, tail, start, -⟩ := render_head compact 0 row
        rw [blank, List.map_cons, start] at broken
        cases broken
      rw [loadsLines, if_neg nonempty, broken, List.mapM_map]
      exact mapM_loads (row :: rest) distinct

end EconomicLedger.JsonText
