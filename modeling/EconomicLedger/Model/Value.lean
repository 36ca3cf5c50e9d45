import EconomicLedger.Lib.Text

/-!
# Python values

The `Any` of a parameter dictionary, with the `int`, `str` and truth value of Python, and the
exceptions the pipeline can raise.
-/

namespace EconomicLedger.Model
open Text

inductive PyError where
  | keyError (detail : String)
  | valueError (detail : String)
  | typeError (detail : String)
  | fileNotFound (detail : String)
  | isADirectory (detail : String)
  | notADirectory (detail : String)
  | fileExists (detail : String)
deriving Repr, DecidableEq

abbrev Py := Except PyError

/-- What `eth_abi` decodes to: `seq` stands for a tuple or an array. -/
inductive Value where
  | none
  | bool (b : Bool)
  | int (n : Int)
  | str (s : String)
  | bytes (bs : List UInt8)
  | seq (vs : List Value)
deriving Repr

/-! ## `bytes.hex` and `bytes.fromhex` -/

def hexByte (b : UInt8) : List Char := [(b.toNat / 16).digitChar, (b.toNat % 16).digitChar]

def toHex (bs : List UInt8) : String := String.ofList (bs.flatMap hexByte)

def hexDigit? (c : Char) : Option Nat :=
  if '0' ≤ c ∧ c ≤ '9' then some (c.toNat - 48)
  else if 'a' ≤ c ∧ c ≤ 'f' then some (c.toNat - 87)
  else if 'A' ≤ c ∧ c ≤ 'F' then some (c.toNat - 55)
  else none

def isSpace (c : Char) : Bool := c = ' ' ∨ (9 ≤ c.toNat ∧ c.toNat ≤ 13)

/-- Blanks are skipped between bytes but not inside one. -/
def fromHex : List Char → Py (List UInt8)
  | [] => .ok []
  | [c] => if isSpace c then .ok [] else .error (.valueError "non-hexadecimal number found in fromhex() arg")
  | high :: low :: rest =>
      if isSpace high then fromHex (low :: rest)
      else match hexDigit? high, hexDigit? low with
        | some h, some l => do
            let bytes ← fromHex rest
            return UInt8.ofNat (16 * h + l) :: bytes
        | _, _ => .error (.valueError "non-hexadecimal number found in fromhex() arg")

/-! ## `repr` and `str` -/

/-- The quote `repr` picks: a double one only around text that holds single quotes alone. -/
def quoteOf (codes : List Nat) : Nat := if 39 ∈ codes ∧ 34 ∉ codes then 34 else 39

/-- A character inside quotes. From `ascii` on, codes are escaped (bytes) or kept (text). -/
def reprChar (quote ascii code : Nat) : List Char :=
  if code = 92 ∨ code = quote then [Char.ofNat 92, Char.ofNat code]
  else if code = 9 then [Char.ofNat 92, 't']
  else if code = 10 then [Char.ofNat 92, 'n']
  else if code = 13 then [Char.ofNat 92, 'r']
  else if code < 32 ∨ code = 127 ∨ ascii ≤ code then
    [Char.ofNat 92, 'x', (code / 16).digitChar, (code % 16).digitChar]
  else [Char.ofNat code]

def quoted (ascii : Nat) (codes : List Nat) : String :=
  let quote := quoteOf codes
  String.ofList ([Char.ofNat quote] ++ codes.flatMap (reprChar quote ascii) ++ [Char.ofNat quote])

def reprText (s : String) : String := quoted 0x110000 (s.toList.map Char.toNat)

def reprBytes (bs : List UInt8) : String := "b" ++ quoted 128 (bs.map UInt8.toNat)

mutual
def Value.repr : Value → String
  | .none => "None"
  | .bool true => "True"
  | .bool false => "False"
  | .int n => toString n
  | .str s => reprText s
  | .bytes bs => reprBytes bs
  | .seq [v] => "(" ++ v.repr ++ ",)"
  | .seq vs => "(" ++ Value.reprList vs ++ ")"
def Value.reprList : List Value → String
  | [] => ""
  | [v] => v.repr
  | v :: next :: rest => v.repr ++ ", " ++ Value.reprList (next :: rest)
end

def Value.text : Value → String
  | .str s => s
  | v => v.repr

/-! ## `int` and truth -/

def parseDigits (value : Nat) (afterDigit : Bool) : List Char → Option Nat
  | [] => if afterDigit then some value else none
  | c :: rest =>
      if c = '_' then
        if afterDigit then parseDigits value false rest else none
      else if c.isDigit then parseDigits (10 * value + (c.toNat - 48)) true rest
      else none

/-- A decimal literal: blanks around it, an optional sign, single underscores between digits. -/
def parseInt (cs : List Char) : Option Int :=
  match ((cs.dropWhile isSpace).reverse.dropWhile isSpace).reverse with
  | '-' :: digits => (parseDigits 0 false digits).map fun n => -(n : Int)
  | '+' :: digits => (parseDigits 0 false digits).map Int.ofNat
  | digits => (parseDigits 0 false digits).map Int.ofNat

def Value.toInt : Value → Py Int
  | .int n => .ok n
  | .bool b => .ok (if b then 1 else 0)
  | .str s =>
      match parseInt s.toList with
      | some n => .ok n
      | .none => .error (.valueError ("invalid literal for int() with base 10: " ++ reprText s))
  | .bytes bs =>
      match parseInt (bs.map fun b => Char.ofNat b.toNat) with
      | some n => .ok n
      | .none => .error (.valueError ("invalid literal for int() with base 10: " ++ reprBytes bs))
  | .none => .error (.typeError "int() argument must be a string, a bytes-like object or a real number")
  | .seq _ => .error (.typeError "int() argument must be a string, a bytes-like object or a real number")

/-- `int(s, 16)` after the sign: an underscore may stand between digits and after the `0x`. -/
def parseHexDigits (value : Nat) (mayEnd mayUnderscore : Bool) : List Char → Option Nat
  | [] => if mayEnd then some value else none
  | c :: rest =>
      if c = '_' then
        if mayUnderscore then parseHexDigits value false false rest else none
      else
        match hexDigit? c with
        | some d => parseHexDigits (16 * value + d) true true rest
        | none => none

def parseHexNat : List Char → Option Nat
  | '0' :: 'x' :: digits => parseHexDigits 0 false true digits
  | '0' :: 'X' :: digits => parseHexDigits 0 false true digits
  | digits => parseHexDigits 0 false false digits

def parseHexInt (cs : List Char) : Option Int :=
  match ((cs.dropWhile isSpace).reverse.dropWhile isSpace).reverse with
  | '-' :: digits => (parseHexNat digits).map fun n => -(n : Int)
  | '+' :: digits => (parseHexNat digits).map Int.ofNat
  | digits => (parseHexNat digits).map Int.ofNat

def intBase16 (s : String) : Py Int :=
  match parseHexInt s.toList with
  | some n => .ok n
  | none => .error (.valueError ("invalid literal for int() with base 16: " ++ reprText s))

def Value.truthy : Value → Bool
  | .none => false
  | .bool b => b
  | .int n => n ≠ 0
  | .str s => s ≠ ""
  | .bytes bs => bs ≠ []
  | .seq vs => !vs.isEmpty

/-- `v or w`. -/
def Value.orElse (v w : Value) : Value := if v.truthy then v else w

def Value.isNone : Value → Bool
  | .none => true
  | _ => false

def Value.typeName : Value → String
  | .none => "NoneType"
  | .bool _ => "bool"
  | .int _ => "int"
  | .str _ => "str"
  | .bytes _ => "bytes"
  | .seq _ => "list"

def Value.optionalText : Value → Option String
  | .none => Option.none
  | v => some v.text

end EconomicLedger.Model
