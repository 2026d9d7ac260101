import InlineAsm.Binary.Format

/-!
Numbers of double and single precision, kept as their bits so that the payload of a not-a-number survives. The
conversions round to nearest, ties to even.
-/

namespace InlineAsm

/-- A number of double precision. -/
structure Double where
  bits : BitVec 64
  deriving DecidableEq

/-- A number of single precision. -/
structure Single where
  bits : BitVec 32
  deriving DecidableEq

namespace Double

open Binary (double single)

def negative (x : Double) : Bool := x.bits.msb

def magnitude (x : Double) : Nat := x.bits.toNat % double.signWeight

def isNaN (x : Double) : Bool := double.infinity < x.magnitude

def isInfinite (x : Double) : Bool := x.magnitude = double.infinity

def isFinite (x : Double) : Bool := x.magnitude < double.infinity

def ofMagnitude (negative : Bool) (magnitude : Nat) : Double :=
  ⟨BitVec.ofNat 64 ((if negative then double.signWeight else 0) + magnitude)⟩

def zero : Double := ofMagnitude false 0

/-- Equality of numbers: the two zeros are equal, and what is not a number equals nothing. -/
def eq (x y : Double) : Bool :=
  !x.isNaN && !y.isNaN && (x.bits == y.bits || (x.magnitude == 0 && y.magnitude == 0))

def ofInt (i : Int) : Double :=
  ofMagnitude (i < 0) (double.nearest (i.natAbs * twoPow double.scale) 1)

/-- The number of single precision nearest to `x`. What is not a number stays so, quietly, with the upper bits of
its payload. -/
def toSingle (x : Double) : Single :=
  let magnitude :=
    if x.isNaN then single.infinity + twoPow 22 + x.magnitude / twoPow 29 % twoPow 22
    else if x.isInfinite then single.infinity
    else single.nearest (double.units x.magnitude) (twoPow (double.scale - single.scale))
  ⟨BitVec.ofNat 32 ((if x.negative then single.signWeight else 0) + magnitude)⟩

end Double

namespace Single

open Binary (double single)

def negative (x : Single) : Bool := x.bits.msb

def magnitude (x : Single) : Nat := x.bits.toNat % single.signWeight

/-- Every number of single precision is one of double precision. -/
def toDouble (x : Single) : Double :=
  .ofMagnitude x.negative <|
    if single.infinity < x.magnitude then double.infinity + twoPow 51 + x.magnitude % twoPow 22 * twoPow 29
    else if x.magnitude = single.infinity then double.infinity
    else double.nearest (single.units x.magnitude * twoPow (double.scale - single.scale)) 1

end Single

end InlineAsm
