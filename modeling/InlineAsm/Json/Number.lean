import InlineAsm.Binary.Double
import InlineAsm.Json.Document

/-!
The numbers of JSON trees: a number is an integer of 64 bits, unsigned or negative, or else a finite float.
-/

namespace InlineAsm.Json

inductive Number where
  | unsigned (n : UInt64)
  | negative (i : Int64) (sign : i < 0)
  | float (x : Double) (finite : x.isFinite = true)

namespace Number

/-- The integer in 64 bits with a sign, if it fits. -/
def int64? (i : Int) : Option Int64 :=
  if -twoPow 63 ≤ i ∧ i < twoPow 63 then some (.ofInt i) else none

/-- The integer in 64 bits without a sign, if it fits. -/
def uint64? (i : Int) : Option UInt64 :=
  if 0 ≤ i ∧ i < twoPow 64 then some (.ofNat i.toNat) else none

def ofInt64 (i : Int64) : Number :=
  if h : i < 0 then .negative i h else .unsigned i.toUInt64

def ofUInt64 (n : UInt64) : Number := .unsigned n

def ofDouble? (x : Double) : Option Number :=
  if h : x.isFinite = true then some (.float x h) else none

def asInt64? : Number → Option Int64
  | .unsigned n => if n.toNat < twoPow 63 then some n.toInt64 else none
  | .negative i _ => some i
  | .float _ _ => none

def asUInt64? : Number → Option UInt64
  | .unsigned n => some n
  | .negative _ _ => none
  | .float _ _ => none

/-- An integer counts as the number of double precision nearest to it. -/
def asDouble? : Number → Option Double
  | .unsigned n => some (.ofInt n.toNat)
  | .negative i _ => some (.ofInt i.toInt)
  | .float x _ => some x

/-! ### Reading -/

/-- The largest significand that is read exactly. -/
def significandLimit : Nat := twoPow 64 - 1

/-- Digits of the integer part: once one does not fit the significand, it and all later ones only count. -/
def absorbInteger (s : Nat × Nat) (d : Nat) : Nat × Nat :=
  if s.2 = 0 ∧ 10 * s.1 + d ≤ significandLimit then (10 * s.1 + d, 0) else (s.1, s.2 + 1)

/-- Digits of the fraction: those from the first that does not fit the significand are left out. The second
component counts the digits taken. -/
def absorbFraction (significand taken : Nat) : List Nat → Nat × Nat
  | [] => (significand, taken)
  | d :: rest =>
    if 10 * significand + d ≤ significandLimit then absorbFraction (10 * significand + d) (taken + 1) rest
    else (significand, taken)

open Binary (double)

/-- The greatest power of ten that is a number of double precision. -/
def greatestPower : Nat := 308

/-- The units of the number nearest to a power of ten. -/
def powerUnits (k : Nat) : Nat := double.units (double.nearest (tenPow k * twoPow double.scale) 1)

def times (magnitude k : Nat) : Nat :=
  double.nearest (double.units magnitude * powerUnits k) (twoPow double.scale)

def quotient (magnitude k : Nat) : Nat :=
  double.nearest (double.units magnitude * twoPow double.scale) (powerUnits k)

/-- Division by a power of ten, in steps of at most the greatest power. -/
def shrink (magnitude k : Nat) : Nat :=
  if k ≤ greatestPower then quotient magnitude k
  else if magnitude = 0 then 0
  else shrink (quotient magnitude greatestPower) (k - greatestPower)
termination_by k
decreasing_by simp_all [greatestPower]; omega

/-- The significand is rounded first and the product or quotient by a power of ten after it, so the result may
differ from the nearest number in its last place. An infinite product is no number. -/
def scaled? (significand : Nat) (exponent : Int) : Option Nat :=
  let magnitude := double.nearest (significand * twoPow double.scale) 1
  if exponent < 0 then some (shrink magnitude exponent.natAbs)
  else if exponent.toNat ≤ greatestPower then
    let product := times magnitude exponent.toNat
    if product < double.infinity then some product else none
  else if significand = 0 then some 0
  else none

/-- Exponents are kept within 32 bits. -/
def clamp (e : Int) : Int := max (-twoPow 31) (min e (twoPow 31 - 1))

def floatOf? (n : Numeral) (significand : Nat) (exponent : Int) : Option Number := do
  let magnitude ← match n.exponent with
    | none => scaled? significand exponent
    | some (minus, ds) =>
      let e : Nat := ds.foldl (fun n d => 10 * n + d) 0
      if e < twoPow 31 then
        scaled? significand (clamp (if minus then exponent - (e : Int) else exponent + (e : Int)))
      else if minus ∨ significand = 0 then some 0
      else none
  ofDouble? (.ofMagnitude n.negative magnitude)

/-- An integer as it is written, in the bits of its sign. -/
def ofSignificand? (negative : Bool) (significand : Nat) : Option Number :=
  if negative then (int64? (-significand)).map ofInt64 else (uint64? significand).map ofUInt64

/-- The meaning of a written number. Without a fraction, an exponent and a minus sign in front of zero it is an
integer if it fits 64 bits. -/
def ofNumeral? (n : Numeral) : Option Number :=
  let (integral, dropped) := n.integer.foldl absorbInteger (0, 0)
  let (significand, taken) := absorbFraction integral 0 n.fraction
  if n.fraction.isEmpty ∧ n.exponent.isNone ∧ dropped = 0 ∧ ¬ (n.negative ∧ integral = 0) then
    (ofSignificand? n.negative integral).or (floatOf? n significand 0)
  else floatOf? n significand (dropped - taken)

end InlineAsm.Json.Number
