import InlineAsm.Error

/-!
Values as JSON trees and back. JSON has no tuples, no infinite floats and integers of 64 bits only: a tuple turns
into an array, a float that is not finite into null, and an integer that does not fit into the text of its digits.
-/

namespace InlineAsm.Value

mutual

def toJson : Value → Json
  | .int i =>
    match Json.Number.int64? i with
    | some n => .number (.ofInt64 n)
    | none =>
      match Json.Number.uint64? i with
      | some n => .number (.ofUInt64 n)
      | none => .string (Text.Numeral.ofInt i)
  | .float x =>
    match Json.Number.ofDouble? x with
    | some n => .number n
    | none => .null
  | .text s => .string s
  | .list items => .array (toJsonAll items)
  | .tuple items => .array (toJsonAll items)
  | .unit => .null

def toJsonAll : List Value → List Json
  | [] => []
  | v :: rest => v.toJson :: toJsonAll rest

end

/-- A number is tried as an integer with a sign, as one without, and as a float. -/
def ofNumber (n : Json.Number) : Except Error Value :=
  match n.asInt64? with
  | some i => .ok (.int i.toInt)
  | none =>
    match n.asUInt64? with
    | some i => .ok (.int i.toNat)
    | none =>
      match n.asDouble? with
      | some x => .ok (.float x)
      | none => .error (.unconvertibleNumber n)

mutual

/-- Booleans and objects have no value. -/
def ofJson : Json → Except Error Value
  | .null => .ok .unit
  | .bool b => .error (.unconvertible (.bool b))
  | .number n => ofNumber n
  | .string s => .ok (.text s)
  | .array items => do return .list (← ofJsonAll items)
  | .object members => .error (.unconvertible (.object members))

def ofJsonAll : List Json → Except Error (List Value)
  | [] => .ok []
  | j :: rest => do return (← ofJson j) :: (← ofJsonAll rest)

end

def ofJsonText (s : String) : Except Error Value :=
  match Json.ofText? s with
  | some j => ofJson j
  | none => .error .invalidJson

end InlineAsm.Value
