import InlineAsm.Register
import InlineAsm.Variable

/-!
Operands, instructions and labels. A label owns the instructions that stand behind it, and an instruction that jumps
to a label holds it as an operand, so a body of instructions is a tree in which labels may be shared. Like variables,
labels are told apart by their handles.
-/

namespace InlineAsm

/-- An immediate operand. -/
inductive Literal where
  | int (i : Int)
  | float (x : Double)
  deriving DecidableEq

mutual

inductive Operand where
  | register (r : Register)
  | var (v : Variable)
  | label (l : Label)
  | literal (x : Literal)

/-- An opcode with its operands, and the registers that it touches without naming them. -/
structure Instruction where
  opcode : String
  operands : List Operand
  implicit : List Register

/-- A jump target with the instructions behind it. -/
structure Label where
  handle : Nat
  body : List Instruction

end

namespace Literal

def text : Literal → String
  | int i => Text.Numeral.ofInt i
  | float x => x.text

/-- Equality that compares floats as numbers. -/
def same : Literal → Literal → Bool
  | int i, int j => i == j
  | float x, float y => x.eq y
  | _, _ => false

end Literal

namespace Label

instance : BEq Label := ⟨fun l m => l.handle == m.handle⟩

def name (l : Label) : String := "label" ++ Text.Numeral.ofNat l.handle

end Label

namespace Operand

inductive Kind where
  | register
  | var
  | label
  | literal
  deriving DecidableEq, Repr

def Kind.name : Kind → String
  | .register => "register"
  | .var => "variable"
  | .label => "label"
  | .literal => "literal"

def kind : Operand → Kind
  | register _ => .register
  | var _ => .var
  | label _ => .label
  | literal _ => .literal

def text : Operand → String
  | register r => r.name
  | var v => v.token
  | label l => l.name
  | literal x => x.text

def register? : Operand → Option Register
  | register r => some r
  | _ => none

def var? : Operand → Option Variable
  | var v => some v
  | _ => none

def label? : Operand → Option Label
  | label l => some l
  | _ => none

/-- Equality that compares variables and labels by handle and floats as numbers. -/
def same : Operand → Operand → Bool
  | register r, register s => r == s
  | var v, var w => v == w
  | label l, label m => l == m
  | literal x, literal y => x.same y
  | _, _ => false

def sameAll : List Operand → List Operand → Bool
  | [], [] => true
  | x :: xs, y :: ys => x.same y && sameAll xs ys
  | _, _ => false

end Operand

namespace Instruction

/-- The variables among the operands. -/
def vars (i : Instruction) : List Variable := i.operands.filterMap Operand.var?

/-- The labels among the operands. -/
def labels (i : Instruction) : List Label := i.operands.filterMap Operand.label?

/-- The registers touched: those among the operands, then the implicit ones. -/
def registers (i : Instruction) : List Register := i.operands.filterMap Operand.register? ++ i.implicit

/-- One line of assembly, such as `mov eax, 4;`. -/
def text (i : Instruction) : String :=
  match i.operands with
  | [] => i.opcode ++ ";"
  | operands => i.opcode ++ " " ++ ", ".intercalate (operands.map Operand.text) ++ ";"

def same (i j : Instruction) : Bool :=
  i.opcode == j.opcode && Operand.sameAll i.operands j.operands && i.implicit == j.implicit

end Instruction

namespace Label

/-- The line of assembly that defines a label, such as `label7: inc eax;jmp label3;`. -/
def text (l : Label) : String := l.name ++ ": " ++ String.join (l.body.map Instruction.text)

/-- The label with each instruction on a line of its own. -/
def listing (l : Label) : String :=
  l.name ++ ":\n" ++ String.join (l.body.map fun i => "    " ++ i.text ++ "\n")

end Label

end InlineAsm
