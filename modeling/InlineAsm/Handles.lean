import InlineAsm.DataType.Name

/-!
Construction of variables and labels. Each kind has its own counter, which a successful construction advances by one;
a failed one leaves both counters as they are. A variable with a literal gets the type that the literal fixes.

The counters have no bound. A counter in a 64-bit word gives the same handles as long as fewer than 2^64 constructions
of its kind succeed, and then starts again.
-/

namespace InlineAsm

/-- The handles given out last. -/
structure Handles where
  vars : Nat := 0
  labels : Nat := 0
  deriving DecidableEq

namespace Handles

/-- The type of a variable, with the warnings that its literal raises. -/
def typing (type : DataType) : Option Value → Except Error (DataType × List RangeWarning)
  | some v => (type.check v).mapError .mismatch
  | none => .ok (type, [])

def variableOfType (h : Handles) (type : DataType) (literal : Option Value) : Handles × Except Error Variable :=
  match typing type literal with
  | .error e => (h, .error e)
  | .ok (type, warnings) =>
    let handle := h.vars + 1
    ({ h with vars := handle }, .ok { handle, type, literal, warnings })

/-- A variable whose type is given by its name. -/
def declare (h : Handles) (typeName : String) (literal : Option Value) : Handles × Except Error Variable :=
  match DataType.ofName typeName with
  | .error e => (h, .error e)
  | .ok type => h.variableOfType type literal

/-- A label needs a body. -/
def label (h : Handles) (body : List Instruction) : Handles × Except Error Label :=
  if body.isEmpty then (h, .error .emptyLabel)
  else
    let handle := h.labels + 1
    ({ h with labels := handle }, .ok ⟨handle, body⟩)

end Handles

/-- What a variable starts with: its literal, or else zero. -/
def Variable.initialValue (v : Variable) : Except Error Value :=
  match v.literal with
  | some x => .ok x
  | none => v.type.defaultValue

end InlineAsm
