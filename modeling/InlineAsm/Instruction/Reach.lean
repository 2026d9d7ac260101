import InlineAsm.Instruction.Basic

/-!
Labels and variables that an instruction reaches through the bodies of labels. `Label.visit` walks the labels depth
first and in order, and extends a list of those seen already, so that a shared label is walked once.
-/

namespace InlineAsm

mutual

/-- The labels seen after a walk from a label, given those seen before it. -/
def Label.visit : Label → List Label → List Label
  | ⟨handle, body⟩, seen =>
    if seen.contains ⟨handle, body⟩ then seen else Instruction.visitAll body (seen ++ [⟨handle, body⟩])

def Instruction.visitAll : List Instruction → List Label → List Label
  | [], seen => seen
  | ⟨_, operands, _⟩ :: rest, seen => Instruction.visitAll rest (Operand.visitAll operands seen)

def Operand.visitAll : List Operand → List Label → List Label
  | [], seen => seen
  | .label l :: rest, seen => Operand.visitAll rest (l.visit seen)
  | .register _ :: rest, seen => Operand.visitAll rest seen
  | .var _ :: rest, seen => Operand.visitAll rest seen
  | .literal _ :: rest, seen => Operand.visitAll rest seen

end

namespace Label

/-- The variables among the operands of the body. -/
def bodyVars (l : Label) : List Variable := l.body.flatMap Instruction.vars

/-- The labels reached from the body, in the order of the walk. -/
def reached (l : Label) : List Label := (l.visit []).filter fun m => m != l

/-- The variables of the label and of all labels it reaches. -/
def vars (l : Label) : List Variable := (l.visit []).flatMap bodyVars

end Label

namespace Instruction

/-- The labels reached from an instruction, each once, in the order of the walk. -/
def reachedLabels (i : Instruction) : List Label := Operand.visitAll i.operands []

/-- The variables of the instruction and of all labels it reaches. -/
def reachedVars (i : Instruction) : List Variable :=
  i.vars ++ i.reachedLabels.flatMap Label.bodyVars

end Instruction

end InlineAsm
