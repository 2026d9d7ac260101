import InlineAsm.Error
import InlineAsm.Instruction.Reach

/-!
The references of a body: every variable that an instruction reaches has to be registered, and every label that it
reaches is emitted once.
-/

namespace InlineAsm.Instruction

/-- Appends the labels that are not there yet. -/
def addLabels (labels : List Label) (found : List Label) : List Label :=
  found.foldl (fun labels l => if labels.contains l then labels else labels ++ [l]) labels

/-- The labels that instructions reach, after those there already. The instructions are counted from `index`. -/
def emittedLabels (registered : Variable → Bool) (index : Nat) :
    List Instruction → List Label → Except Error (List Label)
  | [], labels => .ok labels
  | i :: rest, labels =>
    match i.reachedVars.find? fun v => !registered v with
    | some v => .error (.notRegistered index v)
    | none => emittedLabels registered (index + 1) rest (addLabels labels i.reachedLabels)

end InlineAsm.Instruction
