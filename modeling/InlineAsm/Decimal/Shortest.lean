import InlineAsm.Binary.Double

/-!
The shortest decimal of a number of double precision: among the decimals that read back as the number, those on the
coarsest grid of powers of ten, and of these the nearest. `shortest` walks the grids from coarse to fine and tests
the two neighbours of the number on each.
-/

namespace InlineAsm

/-- The number `coefficient` times ten to the power of `exponent`. -/
structure Decimal where
  coefficient : Nat
  exponent : Int
  deriving DecidableEq, Repr

namespace Decimal

/-- Which of two equally near decimals is taken. -/
inductive Tie where
  | up
  | even

/-- The finest grid that is needed is ten to the power of minus `finest`: it is finer than the unit. -/
def finest : Nat := 324

/-- The numbers between `lower` and `upper`, with the ends if `closed`, around `value`. -/
structure Interval where
  lower : Nat
  value : Nat
  upper : Nat
  closed : Bool

def Interval.contains (i : Interval) (x : Nat) : Bool :=
  if i.closed then i.lower ≤ x && x ≤ i.upper else i.lower < x && x < i.upper

/-- The numbers that round to a positive magnitude. They are counted in half units over ten to the power of
`finest`, so that the points of every grid are whole numbers. -/
def roundingInterval (magnitude : Nat) : Interval :=
  let u := Binary.double.units
  let scaled (x : Nat) := x * tenPow finest
  { lower := scaled (u (magnitude - 1) + u magnitude)
    value := scaled (2 * u magnitude)
    upper := scaled (u magnitude + u (magnitude + 1))
    closed := magnitude % 2 = 0 }

/-- The multiple of `step` nearest to the value within the interval, if there is one. -/
def Interval.hit? (i : Interval) (tie : Tie) (step : Nat) : Option Nat :=
  let q := i.value / step
  match i.contains (q * step), i.contains ((q + 1) * step) with
  | false, false => none
  | true, false => some q
  | false, true => some (q + 1)
  | true, true =>
    let below := i.value - q * step
    let above := (q + 1) * step - i.value
    if below < above then some q
    else if above < below then some (q + 1)
    else match tie with
      | .up => some (q + 1)
      | .even => some (if q % 2 = 0 then q else q + 1)

/-- The first hit on the grids of steps `step`, `step / 10`, … -/
def search (i : Interval) (tie : Tie) (step : Nat) : Nat → Decimal
  | 0 => ⟨(i.hit? tie step).getD 0, -finest⟩
  | n + 1 =>
    match i.hit? tie step with
    | some c => ⟨c, (n + 1 : Int) - finest⟩
    | none => search i tie (step / 10) n

/-- The shortest decimal that reads back as the positive finite `magnitude`. -/
def shortest (tie : Tie) (magnitude : Nat) : Decimal :=
  -- No finite number reaches ten to the power of 309.
  let coarsest := finest + 309
  search (roundingInterval magnitude) tie (twoPow (Binary.double.scale + 1) * tenPow coarsest) coarsest

end Decimal

end InlineAsm
