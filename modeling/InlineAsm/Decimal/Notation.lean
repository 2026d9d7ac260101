import InlineAsm.Decimal.Shortest
import InlineAsm.Text.Numeral

/-!
Ways to write a decimal: `positional` with a point and zeros only, `scientific` with one digit before the point and
a power of ten.
-/

namespace InlineAsm.Decimal

def digits (d : Decimal) : List Char := Text.Numeral.digits d.coefficient

/-- How many digits stand before the point; not positive if the first digit stands behind it. -/
def pointPosition (d : Decimal) : Int := d.digits.length + d.exponent

def zeros (n : Nat) : List Char := List.replicate n '0'

def positional (d : Decimal) : String :=
  let p := d.pointPosition
  String.ofList <|
    if 0 ≤ d.exponent then d.digits ++ zeros d.exponent.toNat
    else if 0 < p then d.digits.take p.toNat ++ ['.'] ++ d.digits.drop p.toNat
    else ['0', '.'] ++ zeros (-p).toNat ++ d.digits

/-- The power of ten always has a sign. -/
def scientific (d : Decimal) : String :=
  let fraction := match d.digits.drop 1 with
    | [] => []
    | rest => '.' :: rest
  let power := d.pointPosition - 1
  String.ofList (d.digits.take 1 ++ fraction ++ ['e', if power < 0 then '-' else '+']) ++
    Text.Numeral.ofNat power.natAbs

end InlineAsm.Decimal
