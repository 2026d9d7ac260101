import InlineAsm.Text.Visible

/-!
Quoted texts, as messages show them. NUL, tab, the two line breaks, the backslash and the delimiter have escapes of
their own; any other character that is not visible is written by its code point in hexadecimal.
-/

namespace InlineAsm.Text

/-- A character as it stands between two `delimiter`s. -/
def escaped (delimiter c : Char) : List Char :=
  if c = '\x00' then ['\\', '0']
  else if c = '\t' then ['\\', 't']
  else if c = '\r' then ['\\', 'r']
  else if c = '\n' then ['\\', 'n']
  else if c = '\\' ∨ c = delimiter then ['\\', c]
  else if isVisible c then [c]
  else ['\\', 'u', '\x7b'] ++ Nat.toDigits 16 c.toNat ++ ['\x7d']

/-- The characters `cs` between two `delimiter`s. -/
def quoted (delimiter : Char) (cs : List Char) : String :=
  String.ofList ([delimiter] ++ cs.flatMap (escaped delimiter) ++ [delimiter])

end InlineAsm.Text
