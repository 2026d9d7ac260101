import InlineAsm.CType

/-!
Types of the parameters of compiled code. Elements and bytes are counted in machine words of 64 bits, so the counts
wrap around, as they do in an optimised build; a build with overflow checks stops where they would.
-/

namespace InlineAsm

inductive NativeType where
  | scalar (t : CType)
  | array (element : CType) (dims : List Nat)
  | pointer (inner : NativeType)
  deriving DecidableEq

namespace NativeType

/-- The type behind all pointers. -/
def pointee : NativeType → NativeType
  | pointer inner => inner.pointee
  | t => t

def element : NativeType → CType
  | scalar t => t
  | array t _ => t
  | pointer inner => inner.element

/-- One more than the greatest machine word. -/
def wordLimit : Nat := twoPow 64

/-- The number of elements of an array with these sizes. -/
def count (dims : List Nat) : Nat := dims.foldl (fun n d => n * d % wordLimit) 1

def elementCount : NativeType → Nat
  | scalar _ => 1
  | array _ dims => count dims
  | pointer inner => inner.elementCount

/-- The bytes behind all pointers. -/
def storageSize (t : NativeType) : Nat := t.element.size * t.elementCount % wordLimit

/-- The bytes that the storage takes in memory: whole words, and at least one. -/
def allocated (t : NativeType) : Nat := 8 * max 1 ((t.storageSize + 7) / 8)

/-- The greatest number of bytes that one allocation may ask for. -/
def allocationLimit : Nat := twoPow 63 - 1

def isByAddress : NativeType → Bool
  | scalar _ => false
  | _ => true

def name : NativeType → String
  | scalar t => t.name
  | array t dims => t.name ++ String.join (dims.map fun n => "[" ++ Text.Numeral.ofNat n ++ "]")
  | pointer inner => inner.name ++ " *"

end NativeType

end InlineAsm
