import InlineAsm.DataType.Basic
import InlineAsm.Value

/-!
Variables and the roles that they take in a compiled function. The handle alone identifies a variable: it names the
parameter in C and the operand in the assembly.
-/

namespace InlineAsm

/-- How a variable takes part in a call. -/
inductive Role where
  | input
  | output
  /-- Neither passed in nor read back. -/
  | scratch
  deriving DecidableEq, Repr

def Role.name : Role → String
  | .input => "input"
  | .output => "output"
  | .scratch => "local"

structure Variable where
  handle : Nat
  /-- Without open axes if the variable has a literal. -/
  type : DataType
  literal : Option Value
  /-- Raised by the literal. -/
  warnings : List RangeWarning

namespace Variable

instance : BEq Variable := ⟨fun v w => v.handle == w.handle⟩

/-- The identifier of the parameter in C. -/
def symbol (v : Variable) : String := "v" ++ Text.Numeral.ofNat v.handle

/-- The operand in the assembly. -/
def token (v : Variable) : String := "%[" ++ v.symbol ++ "]"

def description (v : Variable) : String := v.symbol ++ ": " ++ v.type.name

end Variable

end InlineAsm
