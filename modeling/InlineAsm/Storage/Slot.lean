import InlineAsm.DataType.Check
import InlineAsm.Storage.Scalar

/-!
Slots: the storage behind one parameter of compiled code. An array lies there in row-major order without gaps.
Storing checks the whole value first and then writes it leaf by leaf. Memory that may be asked for is taken to be
there; the lists of leaves that storing and loading need for a moment are not counted.
-/

namespace InlineAsm

structure Slot where
  type : NativeType
  bytes : List UInt8
  size_eq : bytes.length = type.storageSize

namespace Slot

/-- The slot whose bytes are all zero. -/
def zeroed (t : NativeType) : Slot := ⟨t, List.replicate t.storageSize 0, List.length_replicate⟩

/-- A slot in new memory. -/
def fresh (t : NativeType) : Except Error Slot :=
  if NativeType.allocationLimit < t.allocated then .error (.storage .tooLarge) else .ok (zeroed t)

/-- Replaces the bytes at the front. What does not fit is dropped. -/
def overwrite (s : Slot) (front : List UInt8) : Slot :=
  { s with
    bytes := front.take s.bytes.length ++ s.bytes.drop front.length
    size_eq := by
      have := s.size_eq
      simp only [List.length_append, List.length_take, List.length_drop]
      omega }

/-- The declared type of the values that a slot takes. Without sizes an array has one open axis. -/
def shape : NativeType → Except Error DataType
  | .scalar t => .ok (.scalar t)
  | .array t [] => DataType.ofDims t [none]
  | .array t dims => DataType.ofDims t (dims.map some)
  | .pointer inner => shape inner

/-- Checks a value against the shape of the slot. -/
def check (s : Slot) (v : Value) : Except Error (List RangeWarning) := do
  return (← ((← shape s.type).check v).mapError .mismatch).2

/-- The slot after a value was stored, with the warnings or the reason why not. The leaves are written one behind the
other, and a leaf that has no encoding or no place would end the writing there. -/
def store (s : Slot) (v : Value) : Slot × Except Error (List RangeWarning) :=
  match s.check v with
  | .error e => (s, .error e)
  | .ok warnings =>
    let (front, refusal) := s.type.element.encodeAll v.leaves
    (s.overwrite front,
      if s.bytes.length < front.length then .error (.storage .outOfBounds)
      else match refusal with
        | some m => .error (.mismatch m)
        | none => .ok warnings)

/-- A fresh slot that holds a value. -/
def ofValue (t : NativeType) (v : Value) : Except Error Slot := do
  match (← fresh t).store v with
  | (s, .ok _) => .ok s
  | (_, .error e) => .error e

/-- Nests leaves in lists by the sizes of the axes, outermost first. -/
def nest : List Nat → List Value → Except Error Value
  | _ :: size :: dims, leaves =>
    let stride := NativeType.count (size :: dims)
    if stride = 0 then .error (.storage .emptyStride)
    else do return .list (← (Bytes.blocks stride leaves).mapM (nest (size :: dims)))
  | _, leaves => .ok (.list leaves)

/-- The value that the bytes stand for. -/
def load (s : Slot) : Except Error Value :=
  let leaves := (Bytes.blocks s.type.element.size s.bytes).map s.type.element.decode
  match s.type.pointee with
  | .array _ dims => nest dims leaves
  | _ => .ok (leaves.headD .unit)

end Slot

end InlineAsm
