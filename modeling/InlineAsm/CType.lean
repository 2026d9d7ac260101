import InlineAsm.Power
import InlineAsm.Text.Blank
import InlineAsm.Text.Numeral

/-!
The scalar types of C, with the sizes that they have on an LP64 host, where `long` and pointers take 8 bytes. A name is
read word by word, so any blanks separate its words, and a redundant `int` is allowed.
-/

namespace InlineAsm

inductive CType where
  | short
  | int
  | long
  | longLong
  | unsignedShort
  | unsignedInt
  | unsignedLong
  | unsignedLongLong
  | float
  | double
  | char
  deriving DecidableEq, Repr

namespace CType

def all : List CType :=
  [short, int, long, longLong, unsignedShort, unsignedInt, unsignedLong, unsignedLongLong, float, double, char]

def name : CType → String
  | short => "short"
  | int => "int"
  | long => "long"
  | longLong => "long long"
  | unsignedShort => "unsigned short"
  | unsignedInt => "unsigned int"
  | unsignedLong => "unsigned long"
  | unsignedLongLong => "unsigned long long"
  | float => "float"
  | double => "double"
  | char => "char"

/-- The name that a longer or shorter spelling stands for. -/
def canonicalName : String → String
  | "short int" => "short"
  | "long int" => "long"
  | "long long int" => "long long"
  | "unsigned short int" => "unsigned short"
  | "unsigned" => "unsigned int"
  | "unsigned long int" => "unsigned long"
  | "unsigned long long int" => "unsigned long long"
  | other => other

def ofName? (s : String) : Option CType :=
  let spaced := String.ofList ([' '].intercalate (Text.words s.toList))
  all.find? fun t => t.name == canonicalName spaced

/-- How a scalar is stored. Widths are in bytes. -/
inductive Storage where
  | signed (width : Nat)
  | unsigned (width : Nat)
  | floating (width : Nat)
  | character
  deriving DecidableEq, Repr

def storage : CType → Storage
  | short => .signed 2
  | int => .signed 4
  | long => .signed 8
  | longLong => .signed 8
  | unsignedShort => .unsigned 2
  | unsignedInt => .unsigned 4
  | unsignedLong => .unsigned 8
  | unsignedLongLong => .unsigned 8
  | float => .floating 4
  | double => .floating 8
  | char => .character

def Storage.size : Storage → Nat
  | .signed n | .unsigned n | .floating n => n
  | .character => 1

/-- The size in bytes. -/
def size (t : CType) : Nat := t.storage.size

/-- The least and the greatest value of an integer type. -/
def range (t : CType) : Option (Int × Int) :=
  match t.storage with
  | .signed n => some (-twoPow (8 * n - 1), twoPow (8 * n - 1) - 1)
  | .unsigned n => some (0, twoPow (8 * n) - 1)
  | _ => none

def isInteger (t : CType) : Bool := t.range.isSome

end CType

/-- An integer that does not fit its type and will wrap around. -/
structure RangeWarning where
  type : CType
  value : Int
  min : Int
  max : Int
  deriving DecidableEq

open Text.Numeral (ofInt) in
def RangeWarning.message (w : RangeWarning) : String :=
  ofInt w.value ++ " is not in range of '" ++ w.type.name ++ "' ([" ++ ofInt w.min ++ ", " ++ ofInt w.max ++ "])"

end InlineAsm
