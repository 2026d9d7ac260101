import InlineAsm.Decimal.Notation
import InlineAsm.Json.Tree

/-!
JSON texts without blanks.
-/

namespace InlineAsm.Json

/-- A float always shows that it is one: it has a point or an exponent. It is written positionally from 1e-5 up to
1e16. Of two shortest decimals that are equally near the even one is written. -/
def floatText (x : Double) : String :=
  let size :=
    if x.magnitude = 0 then "0.0"
    else
      let d := Decimal.shortest .even x.magnitude
      let p := d.pointPosition
      if 0 ≤ d.exponent ∧ p ≤ 16 then d.positional ++ ".0"
      else if -5 < p ∧ p ≤ 16 then d.positional
      else d.scientific
  if x.negative then "-" ++ size else size

def Number.text : Number → String
  | .unsigned n => Text.Numeral.ofNat n.toNat
  | .negative i _ => Text.Numeral.ofInt i.toInt
  | .float x _ => floatText x

def hexDigits (n : Nat) : List Char :=
  let ds := Nat.toDigits 16 n
  List.replicate (4 - ds.length) '0' ++ ds

/-- Only the quote, the backslash and the control characters are escaped. -/
def escaped (c : Char) : List Char :=
  if c = '"' then ['\\', '"']
  else if c = '\\' then ['\\', '\\']
  else if c = '\x08' then ['\\', 'b']
  else if c = '\x0c' then ['\\', 'f']
  else if c = '\n' then ['\\', 'n']
  else if c = '\r' then ['\\', 'r']
  else if c = '\t' then ['\\', 't']
  else if c.toNat < 0x20 then ['\\', 'u'] ++ hexDigits c.toNat
  else [c]

def quoted (s : String) : String := String.ofList (['"'] ++ s.toList.flatMap escaped ++ ['"'])

mutual

def text : Json → String
  | .null => "null"
  | .bool true => "true"
  | .bool false => "false"
  | .number n => n.text
  | .string s => quoted s
  | .array items => "[" ++ ",".intercalate (textAll items) ++ "]"
  | .object members => "\x7b" ++ ",".intercalate (textMembers members) ++ "\x7d"

def textAll : List Json → List String
  | [] => []
  | j :: rest => j.text :: textAll rest

def textMembers : List (String × Json) → List String
  | [] => []
  | (key, j) :: rest => (quoted key ++ ":" ++ j.text) :: textMembers rest

end

end InlineAsm.Json
