/-!
Powers of two and of ten, the radices of the formats in this library.
-/

namespace InlineAsm

def twoPow (k : Nat) : Nat := Nat.pow 2 k

def tenPow (k : Nat) : Nat := Nat.pow 10 k

end InlineAsm
