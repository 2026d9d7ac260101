import InlineAsm.Power

/-!
Binary floating-point formats in exact arithmetic. A magnitude is the bit pattern of a number without its sign. The
least positive number of a format is its unit; every finite magnitude is a whole number of units, and `nearest`
finds the magnitude nearest to a quotient of units, a tie going to the even pattern.
-/

namespace InlineAsm.Binary

structure Format where
  /-- Stored bits of the significand. -/
  fractionBits : Nat
  exponentBits : Nat

def double : Format := ⟨52, 11⟩

def single : Format := ⟨23, 8⟩

/-- The integer nearest to `n / d`, a half going to the even neighbour. -/
def roundQuotient (n d : Nat) : Nat :=
  let q := n / d
  let r := n % d
  if 2 * r < d ∨ (2 * r = d ∧ q % 2 = 0) then q else q + 1

namespace Format

/-- The magnitude of infinity; the magnitudes beyond it are not numbers. -/
def infinity (f : Format) : Nat := (twoPow f.exponentBits - 1) * twoPow f.fractionBits

/-- The weight of the sign bit. -/
def signWeight (f : Format) : Nat := twoPow (f.exponentBits + f.fractionBits)

/-- The unit is two to the power of minus `scale`. -/
def scale (f : Format) : Nat := twoPow (f.exponentBits - 1) - 2 + f.fractionBits

/-- The value of a magnitude in units. -/
def units (f : Format) (magnitude : Nat) : Nat :=
  let fraction := magnitude % twoPow f.fractionBits
  match magnitude / twoPow f.fractionBits with
  | 0 => fraction
  | e + 1 => (twoPow f.fractionBits + fraction) * twoPow e

/-- The magnitude nearest to `n / d` units; infinity once that is the nearest. -/
def nearest (f : Format) (n d : Nat) : Nat :=
  -- A quotient with more bits than a significand is rounded to a multiple of two to the power of `shift`. A
  -- significand that rounds up to the next power of two carries into the exponent by itself.
  let shift := (n / d).log2 - f.fractionBits
  min (shift * twoPow f.fractionBits + roundQuotient n (d * twoPow shift)) f.infinity

end Format

end InlineAsm.Binary
