import InlineAsm.CType

/-!
Declared types of variables: scalars, and arrays whose sizes may be left open. The size of an array type is that of
its outermost axis; `dims` lists the sizes from there inwards.
-/

namespace InlineAsm

/-- The length of an axis. -/
abbrev Size := { n : Nat // 0 < n }

inductive DataType where
  | scalar (t : CType)
  /-- An array without a size takes that of the first value bound to it. -/
  | array (inner : DataType) (size : Option Size)
  deriving DecidableEq

namespace DataType

def element : DataType → CType
  | scalar t => t
  | array inner _ => inner.element

def dims : DataType → List (Option Nat)
  | scalar _ => []
  | array inner size => size.map Subtype.val :: inner.dims

def isArray : DataType → Bool
  | scalar _ => false
  | array _ _ => true

/-- The sizes of all axes, if none is open. -/
def sizes? (d : DataType) : Option (List Nat) := d.dims.mapM id

def isResolved (d : DataType) : Bool := d.dims.all Option.isSome

def axisText : Option Nat → String
  | some n => "[" ++ Text.Numeral.ofNat n ++ "]"
  | none => "[]"

def axesText (d : DataType) : String := String.join (d.dims.map axisText)

/-- The name of the type, such as `int[2][]`. -/
def name (d : DataType) : String := d.element.name ++ d.axesText

/-- The declaration of a parameter. Arrays are passed by their address in any case. -/
def declaration (d : DataType) (identifier : String) (byPointer : Bool) : String :=
  match d with
  | scalar t => t.name ++ (if byPointer then " * " else " ") ++ identifier
  | array _ _ => d.element.name ++ " " ++ identifier ++ d.axesText

end DataType

end InlineAsm
