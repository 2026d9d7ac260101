import InlineAsm.DataType.Basic
import InlineAsm.Error
import InlineAsm.NativeType

/-!
Values against types. `DataType.check` accepts a value and answers the type with its open axes fixed by that value,
together with a warning for each integer that will wrap around; each axis takes the length of the first list that
stands on it, and every other list on the axis has to have the same length.
-/

namespace InlineAsm

namespace CType

/-- The integers outside the range of a type are accepted with a warning. -/
def check (t : CType) (v : Value) : Except Mismatch (Option RangeWarning) :=
  match t.storage, v with
  | .signed _, .int i | .unsigned _, .int i =>
    match t.range with
    | some (min, max) => .ok (if i < min ∨ max < i then some ⟨t, i, min, max⟩ else none)
    | none => .ok none
  | .signed _, v | .unsigned _, v => .error (.notInteger t v.kind)
  | .floating _, .int _ | .floating _, .float _ => .ok none
  | .floating _, v => .error (.notNumber t v.kind)
  | .character, .text s =>
    match s.toList with
    | [c] => if c.toNat ≤ 0xFF then .ok none else .error (.wideCharacter c)
    | cs => .error (.notOneCharacter cs.length)
  | .character, v => .error (.notText v.kind)

def zero (t : CType) : Value :=
  match t.storage with
  | .signed _ | .unsigned _ => .int 0
  | .floating _ => .float .zero
  | .character => .ofChar '\x00'

end CType

namespace DataType

mutual

def check : DataType → Value → Except Mismatch (DataType × List RangeWarning)
  | scalar t, v => do return (scalar t, (← t.check v).toList)
  | array inner _, .list [] => .error (.emptyList inner.element)
  | array inner size, .list (v :: vs) =>
    let length : Size := ⟨vs.length + 1, Nat.succ_pos _⟩
    match size.filter (· ≠ length) with
    | some n => .error (.wrongLength inner.element (.list (v :: vs)) length n)
    | none => do
      let (inner, warnings) ← checkAll inner (v :: vs)
      return (array inner (some length), warnings)
  | array inner _, v => .error (.notList inner.element v)

/-- Checks the values on one axis. What one value fixes holds for those after it. -/
def checkAll (d : DataType) : List Value → Except Mismatch (DataType × List RangeWarning)
  | [] => .ok (d, [])
  | v :: vs => do
    let (d, warnings) ← check d v
    let (d, later) ← checkAll d vs
    return (d, warnings ++ later)

end

/-- A list of one and the same value. -/
def replicated (n : Nat) (v : Value) : Except Error Value :=
  if NativeType.allocationLimit < Value.itemSize * n then .error (.storage .tooLarge)
  else .ok (.list (List.replicate n v))

/-- The value of the type that is zero everywhere, built from the innermost axis outwards. -/
def defaultValue (d : DataType) : Except Error Value :=
  match d.sizes? with
  | none => .error (.noDefault d)
  | some dims => dims.foldrM replicated d.element.zero

/-- The type of a parameter that holds values of this type. -/
def native? : DataType → Option NativeType
  | scalar t => some (.scalar t)
  | d => d.sizes?.map (.array d.element)

def native (d : DataType) : Except Error NativeType :=
  match d.native? with
  | some t => .ok t
  | none => .error (.openAxis d)

/-- Adds an outermost axis. -/
def wrap (inner : DataType) : Option Nat → Except Error DataType
  | none => .ok (array inner none)
  | some n => if h : 0 < n then .ok (array inner (some ⟨n, h⟩)) else .error .zeroSize

/-- The type with these axes, outermost first. -/
def ofDims (element : CType) : List (Option Nat) → Except Error DataType
  | [] => .ok (scalar element)
  | size :: dims => do (← ofDims element dims).wrap size

end DataType

end InlineAsm
