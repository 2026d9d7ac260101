/-!
Bytes in little-endian order, and lists cut into blocks of one length.
-/

namespace InlineAsm.Bytes

/-- The low `width` bytes of a number, the least significant first. -/
def ofNat : Nat → Nat → List UInt8
  | 0, _ => []
  | width + 1, n => UInt8.ofNat n :: ofNat width (n / 256)

def toNat : List UInt8 → Nat
  | [] => 0
  | b :: rest => b.toNat + 256 * toNat rest

/-- The blocks of `n` elements that a list consists of. The last one is shorter if the length is no multiple. -/
def blocks {α : Type} : Nat → List α → List (List α)
  | 0, _ => []
  | _, [] => []
  | n + 1, x :: rest => (x :: rest.take n) :: blocks (n + 1) (rest.drop n)
termination_by _ xs => xs.length
decreasing_by simp only [List.length_drop, List.length_cons]; omega

end InlineAsm.Bytes
