import EconomicLedger.Lib.Dict

/-!
# JSON text

`dumps` writes a tree as Python's `json.dumps` does: what is not printable ASCII is escaped, and a layout
gives the blanks. `loads` reads a text as `json.loads` does, with whole numbers only.
-/

namespace EconomicLedger.JsonText

inductive Tree where
  | null
  | bool (b : Bool)
  | num (n : Int)
  | str (s : String)
  | arr (items : List Tree)
  | obj (members : List (String × Tree))

/-! ## Writing -/

def quote : Char := Char.ofNat 34
def backslash : Char := Char.ofNat 92
def openBrace : Char := Char.ofNat 123
def closeBrace : Char := Char.ofNat 125

def hex4 (unit : Nat) : List Char :=
  [(unit / 4096 % 16).digitChar, (unit / 256 % 16).digitChar, (unit / 16 % 16).digitChar,
    (unit % 16).digitChar]

def escapeUnit (unit : Nat) : List Char := backslash :: 'u' :: hex4 unit

/-- The letters after a backslash, with the code each stands for. -/
def shortEscapes : List (Char × Nat) :=
  [(quote, 34), (backslash, 92), ('b', 8), ('f', 12), ('n', 10), ('r', 13), ('t', 9)]

/-- A code above 65535 is written as two surrogates. -/
def escapeChar (c : Char) : List Char :=
  match shortEscapes.find? fun e => e.2 = c.toNat with
  | some (letter, _) => [backslash, letter]
  | none =>
      if 32 ≤ c.toNat ∧ c.toNat ≤ 126 then [c]
      else if c.toNat < 65536 then escapeUnit c.toNat
      else escapeUnit (55296 + (c.toNat - 65536) / 1024) ++ escapeUnit (56320 + (c.toNat - 65536) % 1024)

def renderText (s : String) : List Char := quote :: (s.toList.flatMap escapeChar ++ [quote])

/-- The blanks of a document; a depth counts the brackets around. -/
structure Layout where
  afterOpen : Nat → List Char
  afterComma : Nat → List Char
  afterColon : List Char
  beforeClose : Nat → List Char

def compact : Layout := ⟨fun _ => [], fun _ => [], [], fun _ => []⟩

def newline (width : Nat) : List Char := Char.ofNat 10 :: List.replicate width ' '

/-- `indent=`. -/
def indented (indent : Nat) : Layout :=
  ⟨fun depth => newline (indent * (depth + 1)), fun depth => newline (indent * (depth + 1)), [' '],
    fun depth => newline (indent * depth)⟩

mutual
def render (layout : Layout) (depth : Nat) : Tree → List Char
  | .null => "null".toList
  | .bool true => "true".toList
  | .bool false => "false".toList
  | .num n => (toString n).toList
  | .str s => renderText s
  | .arr [] => ['[', ']']
  | .arr (item :: rest) =>
      '[' :: (layout.afterOpen depth ++ renderItems layout depth (item :: rest) ++
        (layout.beforeClose depth ++ [']']))
  | .obj [] => [openBrace, closeBrace]
  | .obj (m :: rest) =>
      openBrace :: (layout.afterOpen depth ++ renderMembers layout depth (m :: rest) ++
        (layout.beforeClose depth ++ [closeBrace]))
def renderItems (layout : Layout) (depth : Nat) : List Tree → List Char
  | [] => []
  | [item] => render layout (depth + 1) item
  | item :: next :: rest =>
      render layout (depth + 1) item ++
        (',' :: (layout.afterComma depth ++ renderItems layout depth (next :: rest)))
def renderMembers (layout : Layout) (depth : Nat) : List (String × Tree) → List Char
  | [] => []
  | [(key, value)] =>
      renderText key ++ (':' :: (layout.afterColon ++ render layout (depth + 1) value))
  | (key, value) :: next :: rest =>
      renderText key ++ (':' :: (layout.afterColon ++ (render layout (depth + 1) value ++
        (',' :: (layout.afterComma depth ++ renderMembers layout depth (next :: rest))))))
end

/-- `json.dumps`. -/
def dumps (layout : Layout) (tree : Tree) : String := String.ofList (render layout 0 tree)

/-! ## Reading -/

def isBlank (c : Char) : Bool := c.toNat ∈ [32, 9, 10, 13]

def skipBlanks (s : List Char) : List Char := s.dropWhile isBlank

def hexValue? (c : Char) : Option Nat :=
  if '0' ≤ c ∧ c ≤ '9' then some (c.toNat - 48)
  else if 'a' ≤ c ∧ c ≤ 'f' then some (c.toNat - 87)
  else if 'A' ≤ c ∧ c ≤ 'F' then some (c.toNat - 55)
  else none

def scanUnit : List Char → Option (Nat × List Char)
  | a :: b :: c :: d :: rest => do
      let a ← hexValue? a
      let b ← hexValue? b
      let c ← hexValue? c
      let d ← hexValue? d
      return (4096 * a + 256 * b + 16 * c + d, rest)
  | _ => none

/-- The second of two surrogates. -/
def scanLowSurrogate : List Char → Option (Nat × List Char)
  | slash :: u :: rest => do
      guard (slash = backslash ∧ u = 'u')
      let (low, rest) ← scanUnit rest
      guard (56320 ≤ low ∧ low ≤ 57343)
      return (low, rest)
  | _ => none

/-- After a backslash. A surrogate on its own is no character here. -/
def scanEscape : List Char → Option (Char × List Char)
  | [] => none
  | letter :: rest =>
      if letter = 'u' then do
        let (unit, rest) ← scanUnit rest
        if 55296 ≤ unit ∧ unit ≤ 56319 then
          let (low, rest) ← scanLowSurrogate rest
          return (Char.ofNat (65536 + (unit - 55296) * 1024 + (low - 56320)), rest)
        else if 56320 ≤ unit ∧ unit ≤ 57343 then none
        else return (Char.ofNat unit, rest)
      else if letter = '/' then some ('/', rest)
      else (shortEscapes.find? (·.1 = letter)).map fun e => (Char.ofNat e.2, rest)

def scanText : Nat → List Char → Option (List Char × List Char)
  | 0, _ => none
  | _ + 1, [] => none
  | fuel + 1, c :: rest =>
      if c = quote then some ([], rest)
      else if c = backslash then do
        let (decoded, rest) ← scanEscape rest
        let (others, rest) ← scanText fuel rest
        return (decoded :: others, rest)
      else if c.toNat < 32 then none
      else do
        let (others, rest) ← scanText fuel rest
        return (c :: others, rest)

def scanDigits (s : List Char) : Option (Nat × List Char) :=
  match s with
  | [] => none
  | c :: rest =>
      if c = '0' then some (0, rest)
      else if c.isDigit then
        some (Nat.ofDigitChars 10 (s.takeWhile Char.isDigit) 0, s.dropWhile Char.isDigit)
      else none

/-- A number with a fraction or an exponent is refused. -/
def continuesNumber (s : List Char) : Bool :=
  match s with
  | [] => false
  | c :: _ => c = '.' ∨ c = 'e' ∨ c = 'E'

def scanNumber (s : List Char) : Option (Tree × List Char) := do
  let negative := s.head? = some '-'
  let (n, rest) ← scanDigits (if negative then s.tail else s)
  guard (continuesNumber rest = false)
  return (.num (if negative then -(n : Int) else n), rest)

def literals : List (String × Tree) := [("null", .null), ("true", .bool true), ("false", .bool false)]

def scanLiteral (s : List Char) : Option (Tree × List Char) :=
  (literals.find? fun l => l.1.toList.isPrefixOf s).map fun l => (l.2, s.drop l.1.length)

mutual
def scanValue : Nat → List Char → Option (Tree × List Char)
  | 0, _ => none
  | _ + 1, [] => none
  | fuel + 1, c :: rest =>
      if c = quote then do
        let (s, rest) ← scanText fuel rest
        return (.str (String.ofList s), rest)
      else if c = openBrace then do
        let (members, rest) ← scanObject fuel (skipBlanks rest)
        return (.obj (Dict.ofList members).entries, rest)
      else if c = '[' then do
        let (items, rest) ← scanArray fuel (skipBlanks rest)
        return (.arr items, rest)
      else (scanLiteral (c :: rest)).or (scanNumber (c :: rest))
/-- After `[`. -/
def scanArray : Nat → List Char → Option (List Tree × List Char)
  | 0, _ => none
  | _ + 1, [] => none
  | fuel + 1, c :: rest => if c = ']' then some ([], rest) else scanItems fuel (c :: rest)
def scanItems : Nat → List Char → Option (List Tree × List Char)
  | 0, _ => none
  | fuel + 1, s => do
      let (item, rest) ← scanValue fuel s
      match skipBlanks rest with
      | [] => none
      | c :: rest =>
          if c = ']' then return ([item], rest)
          else if c = ',' then do
            let (others, rest) ← scanItems fuel (skipBlanks rest)
            return (item :: others, rest)
          else none
/-- After an opening brace. -/
def scanObject : Nat → List Char → Option (List (String × Tree) × List Char)
  | 0, _ => none
  | _ + 1, [] => none
  | fuel + 1, c :: rest => if c = closeBrace then some ([], rest) else scanMembers fuel (c :: rest)
def scanMembers : Nat → List Char → Option (List (String × Tree) × List Char)
  | 0, _ => none
  | _ + 1, [] => none
  | fuel + 1, c :: rest =>
      if c = quote then do
        let (key, rest) ← scanText fuel rest
        match skipBlanks rest with
        | [] => none
        | colon :: rest =>
            if colon = ':' then do
              let (value, rest) ← scanValue fuel (skipBlanks rest)
              match skipBlanks rest with
              | [] => none
              | c :: rest =>
                  if c = closeBrace then return ([(String.ofList key, value)], rest)
                  else if c = ',' then do
                    let (others, rest) ← scanMembers fuel (skipBlanks rest)
                    return ((String.ofList key, value) :: others, rest)
                  else none
            else none
      else none
end

/-- `json.loads`: blanks may stand around the value, and nothing else. A character is seen by three scanners
at most. -/
def loads (text : String) : Option Tree := do
  let (tree, rest) ← scanValue (3 * text.toList.length + 1) (skipBlanks text.toList)
  guard (skipBlanks rest = [])
  return tree

end EconomicLedger.JsonText
