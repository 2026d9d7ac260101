import InlineAsm.Instruction.Basic

/-!
Opcodes as data: a name, one set of capabilities for each operand, and the registers touched implicitly. An operand
fits if at least one capability of its slot admits it.
-/

namespace InlineAsm

/-- A shape of operands. -/
inductive Capability where
  | register
  /-- A general purpose register of any width. -/
  | generalRegister
  | segmentRegister
  /-- The register `cl`, which holds the count of a shift. -/
  | countRegister
  | var
  | label
  /-- An integer. -/
  | number
  | float
  deriving DecidableEq, Repr

namespace Capability

def all : List Capability :=
  [.register, .generalRegister, .segmentRegister, .countRegister, .var, .label, .number, .float]

def name : Capability → String
  | .register => "Register"
  | .generalRegister => "GeneralRegister"
  | .segmentRegister => "SegmentRegister"
  | .countRegister => "CountRegister"
  | .var => "Variable"
  | .label => "Label"
  | .number => "Number"
  | .float => "Float"

def ofName? (s : String) : Option Capability := all.find? fun c => c.name == s

def admits : Capability → Operand → Bool
  | .register, .register _ => true
  | .generalRegister, .register r => r.isGeneralPurpose
  | .segmentRegister, .register r => r.isSegment
  | .countRegister, .register r => r = .cl
  | .var, .var _ => true
  | .label, .label _ => true
  | .number, .literal (.int _) => true
  | .float, .literal (.float _) => true
  | _, _ => false

/-- A list of capabilities, such as `[GeneralRegister, Variable]`. -/
def listText (slot : List Capability) : String := "[" ++ ", ".intercalate (slot.map name) ++ "]"

end Capability

structure Opcode where
  name : String
  slots : List (List Capability)
  implicit : List Register
  deriving DecidableEq

end InlineAsm
