/-!
Decimal numerals. `ofNat` and `ofInt` write them; `readNatural` reads one up to a limit. A numeral may begin with a
plus sign, and of two faults the one further left is reported.
-/

namespace InlineAsm.Text.Numeral

/-- The decimal digits of a number, the most significant first. -/
def digits (n : Nat) : List Char :=
  if n < 10 then [Nat.digitChar n] else digits (n / 10) ++ [Nat.digitChar (n % 10)]

def ofNat (n : Nat) : String := String.ofList (digits n)

def ofInt (i : Int) : String :=
  if i < 0 then "-" ++ ofNat i.natAbs else ofNat i.natAbs

/-- Why a text is no numeral. -/
inductive Fault where
  | empty
  | invalidDigit
  | tooLarge
  deriving DecidableEq, Repr

def Fault.message : Fault → String
  | .empty => "cannot parse integer from empty string"
  | .invalidDigit => "invalid digit found in string"
  | .tooLarge => "number too large to fit in target type"

def digitValue? (c : Char) : Option Nat :=
  if '0' ≤ c ∧ c ≤ '9' then some (c.toNat - '0'.toNat) else none

/-- Reads digits behind a number `n` that is read already. -/
def readDigits (limit n : Nat) : List Char → Except Fault Nat
  | [] => .ok n
  | c :: rest =>
    match digitValue? c with
    | none => .error .invalidDigit
    | some d => if limit < 10 * n + d then .error .tooLarge else readDigits limit (10 * n + d) rest

/-- The number of at most `limit` that the text writes. -/
def readNatural (limit : Nat) : List Char → Except Fault Nat
  | [] => .error .empty
  | ['+'] => .error .invalidDigit
  | '+' :: rest => readDigits limit 0 rest
  | cs => readDigits limit 0 cs

end InlineAsm.Text.Numeral
