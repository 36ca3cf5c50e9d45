import Mathlib.Data.List.Basic
import Mathlib.Tactic.SplitIfs

/-!
# CSV text

`writeRows` is Python's `csv.writer` with minimal quoting: a field that holds a comma, a quote or a line
break is quoted, its quotes doubled. `readRows` is `csv.reader`, one character after another. Rows of any
fields are read back.
-/

namespace EconomicLedger.Csv

def quote : Char := Char.ofNat 34
def carriageReturn : Char := Char.ofNat 13
def lineFeed : Char := Char.ofNat 10

/-! ## Writing -/

def isSpecial (c : Char) : Bool := c = ',' ∨ c = quote ∨ c = carriageReturn ∨ c = lineFeed

def double (c : Char) : List Char := if c = quote then [quote, quote] else [c]

def writeField (f : String) : List Char :=
  if f.toList.any isSpecial then quote :: (f.toList.flatMap double ++ [quote]) else f.toList

def writeFields : List String → List Char
  | [] => []
  | [f] => writeField f
  | f :: next :: rest => writeField f ++ ',' :: writeFields (next :: rest)

/-- A row of one empty field is quoted, so that it is not an empty line. -/
def writeRow (fields : List String) : List Char :=
  (if fields = [""] then [quote, quote] else writeFields fields) ++ [carriageReturn, lineFeed]

def writeRows (rows : List (List String)) : String := String.ofList (rows.flatMap writeRow)

/-! ## Reading -/

inductive Mode where
  | startRecord
  | startField
  | inField
  | inQuoted
  | quoteInQuoted
  | afterReturn
deriving DecidableEq

structure Reader where
  mode : Mode
  rows : List (List String)
  row : List String
  field : List Char

namespace Reader

def start : Reader := ⟨.startRecord, [], [], []⟩

def saveField (r : Reader) (mode : Mode) : Reader := ⟨mode, r.rows, r.row ++ [String.ofList r.field], []⟩

def endRow (r : Reader) (mode : Mode) : Reader := ⟨mode, r.rows ++ [r.row], [], []⟩

def addChar (r : Reader) (mode : Mode) (c : Char) : Reader := ⟨mode, r.rows, r.row, r.field ++ [c]⟩

def become (r : Reader) (mode : Mode) : Reader := ⟨mode, r.rows, r.row, r.field⟩

/-- What ends a field wherever it stands unquoted. -/
def stepUnquoted (r : Reader) (c : Char) (other : Reader) : Reader :=
  if c = carriageReturn then (r.saveField .startField).endRow .afterReturn
  else if c = lineFeed then (r.saveField .startField).endRow .startRecord
  else if c = ',' then r.saveField .startField
  else other

def stepField (r : Reader) (c : Char) : Reader :=
  r.stepUnquoted c (if c = quote then r.become .inQuoted else r.addChar .inField c)

def stepRecord (r : Reader) (c : Char) : Reader :=
  if c = carriageReturn then r.endRow .afterReturn
  else if c = lineFeed then r.endRow .startRecord
  else r.stepField c

def step (r : Reader) (c : Char) : Reader :=
  match r.mode with
  | .startRecord => r.stepRecord c
  | .startField => r.stepField c
  | .inField => r.stepUnquoted c (r.addChar .inField c)
  | .inQuoted => if c = quote then r.become .quoteInQuoted else r.addChar .inQuoted c
  | .quoteInQuoted => r.stepUnquoted c (r.addChar (if c = quote then .inQuoted else .inField) c)
  | .afterReturn => if c = lineFeed then r.become .startRecord else r.stepRecord c

/-- At the end of the text a row that was begun counts. -/
def finish (r : Reader) : List (List String) :=
  match r.mode with
  | .startRecord | .afterReturn => r.rows
  | _ => ((r.saveField .startField).endRow .startRecord).rows

end Reader

def readRows (text : String) : List (List String) := (text.toList.foldl Reader.step Reader.start).finish

/-! ## A field -/

/-- The modes in which a comma or a line break ends the field. -/
def Closing (mode : Mode) : Prop := mode = .startField ∨ mode = .inField ∨ mode = .quoteInQuoted

theorem step_closing (r : Reader) (closing : Closing r.mode) (c : Char)
    (ends : c = ',' ∨ c = carriageReturn) : r.step c = r.stepUnquoted c r := by
  have unquoted (other other' : Reader) : r.stepUnquoted c other = r.stepUnquoted c other' := by
    rcases ends with rfl | rfl
    · rfl
    · rfl
  unfold Reader.step
  rcases closing with mode | mode | mode
  · rw [mode]
    exact unquoted _ _
  · rw [mode]
    exact unquoted _ _
  · rw [mode]
    exact unquoted _ _

theorem step_plain (r : Reader) (mode : r.mode = .startField ∨ r.mode = .inField) (c : Char)
    (plain : isSpecial c = false) : r.step c = r.addChar .inField c := by
  simp only [isSpecial, decide_eq_false_iff_not, not_or] at plain
  obtain ⟨notComma, notQuote, notReturn, notFeed⟩ := plain
  unfold Reader.step
  rcases mode with mode | mode
  · rw [mode]
    simp [Reader.stepField, Reader.stepUnquoted, notComma, notQuote, notReturn, notFeed]
  · rw [mode]
    simp [Reader.stepUnquoted, notComma, notReturn, notFeed]

theorem read_plain (f : List Char) (plain : ∀ c ∈ f, isSpecial c = false) (r : Reader)
    (mode : r.mode = .startField ∨ r.mode = .inField) :
    ∃ mode', Closing mode' ∧ f.foldl Reader.step r = ⟨mode', r.rows, r.row, r.field ++ f⟩ := by
  induction f generalizing r with
  | nil => exact ⟨r.mode, mode.imp id Or.inl, by simp⟩
  | cons c f ih =>
      obtain ⟨mode', closing, read⟩ := ih (fun d member => plain d (List.mem_cons_of_mem c member))
        (r.addChar .inField c) (Or.inr rfl)
      refine ⟨mode', closing, ?_⟩
      rw [List.foldl_cons, step_plain r mode c (plain c List.mem_cons_self), read]
      simp [Reader.addChar]

theorem read_doubled (f : List Char) (r : Reader) (mode : r.mode = .inQuoted) :
    (f.flatMap double).foldl Reader.step r = ⟨.inQuoted, r.rows, r.row, r.field ++ f⟩ := by
  induction f generalizing r with
  | nil =>
      obtain ⟨_, rows, row, field⟩ := r
      subst mode
      simp
  | cons c f ih =>
      have one : (double c).foldl Reader.step r = r.addChar .inQuoted c := by
        unfold double
        split_ifs with isQuote
        · subst isQuote
          simp only [List.foldl_cons, List.foldl_nil, Reader.step, mode]
          rfl
        · simp [Reader.step, mode, isQuote]
      rw [List.flatMap_cons, List.foldl_append, one, ih _ rfl]
      simp [Reader.addChar]

theorem read_field (f : String) (rows : List (List String)) (row : List String) :
    ∃ mode, Closing mode ∧
      (writeField f).foldl Reader.step ⟨.startField, rows, row, []⟩ = ⟨mode, rows, row, f.toList⟩ := by
  unfold writeField
  split_ifs with special
  · refine ⟨.quoteInQuoted, Or.inr (Or.inr rfl), ?_⟩
    have opened : Reader.step ⟨.startField, rows, row, []⟩ quote = ⟨.inQuoted, rows, row, []⟩ := rfl
    rw [List.foldl_cons, opened, List.foldl_append, read_doubled _ _ rfl]
    rfl
  · have plain : ∀ c ∈ f.toList, isSpecial c = false := by
      simpa [List.any_eq_false] using special
    obtain ⟨mode, closing, read⟩ := read_plain f.toList plain ⟨.startField, rows, row, []⟩ (Or.inl rfl)
    exact ⟨mode, closing, read⟩

/-! ## Rows -/

def rowBreak : List Char := [carriageReturn, lineFeed]

theorem read_fields (f : String) (rest : List String) (rows : List (List String)) (row : List String) :
    (writeFields (f :: rest) ++ rowBreak).foldl Reader.step ⟨.startField, rows, row, []⟩ =
      ⟨.startRecord, rows ++ [row ++ f :: rest], [], []⟩ := by
  induction rest generalizing f row with
  | nil =>
      obtain ⟨mode, closing, read⟩ := read_field f rows row
      rw [writeFields, List.foldl_append, read, rowBreak, List.foldl_cons,
        step_closing _ closing _ (Or.inr rfl)]
      simp [Reader.stepUnquoted, Reader.saveField, Reader.endRow, Reader.step, Reader.become]
  | cons next rest ih =>
      obtain ⟨mode, closing, read⟩ := read_field f rows row
      rw [writeFields, List.append_assoc, List.cons_append, List.foldl_append, read, List.foldl_cons,
        step_closing _ closing _ (Or.inl rfl)]
      have saved : Reader.stepUnquoted ⟨mode, rows, row, f.toList⟩ ',' ⟨mode, rows, row, f.toList⟩ =
          ⟨.startField, rows, row ++ [f], []⟩ := by
        simp [Reader.stepUnquoted, Reader.saveField, carriageReturn, lineFeed]
      rw [saved, ih next (row ++ [f]), List.append_assoc, List.singleton_append]

/-- At the start of a record a field starts, unless the line is empty. -/
theorem stepRecord_eq (rows : List (List String)) (c : Char) (notReturn : c ≠ carriageReturn)
    (notFeed : c ≠ lineFeed) :
    Reader.step ⟨.startRecord, rows, [], []⟩ c = Reader.step ⟨.startField, rows, [], []⟩ c := by
  simp [Reader.step, Reader.stepRecord, Reader.stepField, Reader.stepUnquoted, notReturn, notFeed,
    Reader.become, Reader.saveField, Reader.addChar]

theorem writeField_head (f : String) (nonempty : f ≠ "") :
    ∃ c tail, writeField f = c :: tail ∧ c ≠ carriageReturn ∧ c ≠ lineFeed := by
  unfold writeField
  split_ifs with special
  · exact ⟨quote, _, rfl, by decide, by decide⟩
  · cases chars : f.toList with
    | nil => exact absurd (String.toList_eq_nil_iff.mp chars) nonempty
    | cons c tail =>
        rw [chars] at special
        simp [isSpecial] at special
        exact ⟨c, tail, rfl, special.1.2.2.1, special.1.2.2.2⟩

theorem read_row (fields : List String) (rows : List (List String)) :
    (writeRow fields).foldl Reader.step ⟨.startRecord, rows, [], []⟩ =
      ⟨.startRecord, rows ++ [fields], [], []⟩ := by
  cases fields with
  | nil => rfl
  | cons f rest =>
      unfold writeRow
      split_ifs with single
      · obtain ⟨rfl, rfl⟩ := List.cons.inj single
        rfl
      · have head : ∃ c tail, writeFields (f :: rest) = c :: tail ∧ c ≠ carriageReturn ∧ c ≠ lineFeed := by
          by_cases empty : f = ""
          · subst empty
            cases rest with
            | nil => exact absurd rfl single
            | cons next rest => exact ⟨',', _, rfl, by decide, by decide⟩
          · obtain ⟨c, tail, start, notBreak⟩ := writeField_head f empty
            cases rest with
            | nil => exact ⟨c, tail, start, notBreak⟩
            | cons next rest => exact ⟨c, _, by rw [writeFields, start, List.cons_append], notBreak⟩
        obtain ⟨c, tail, start, notReturn, notFeed⟩ := head
        have whole := read_fields f rest rows []
        rw [start, List.cons_append, List.foldl_cons] at whole ⊢
        rw [stepRecord_eq rows c notReturn notFeed]
        exact whole

/-- `csv.reader` reads what `csv.writer` writes. -/
theorem readRows_writeRows (rows : List (List String)) : readRows (writeRows rows) = rows := by
  have read (before : List (List String)) :
      (rows.flatMap writeRow).foldl Reader.step ⟨.startRecord, before, [], []⟩ =
        ⟨.startRecord, before ++ rows, [], []⟩ := by
    induction rows generalizing before with
    | nil => simp
    | cons fields rest ih =>
        rw [List.flatMap_cons, List.foldl_append, read_row, ih, List.append_assoc, List.singleton_append]
  rw [readRows, writeRows, String.toList_ofList]
  exact congrArg Reader.finish (read [])

end EconomicLedger.Csv
