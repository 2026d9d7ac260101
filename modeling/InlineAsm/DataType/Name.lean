import InlineAsm.DataType.Check
import InlineAsm.Text.Pattern

/-!
Names of declared types, such as `int`, `unsigned long` and `double[2][]`. A name is the name of a scalar type in
small letters and spaces, followed by the sizes of the axes in brackets, outermost first; blanks may stand around the
scalar's name and around each bracket. A size without a number is left open. One pattern tells the scalar's name from
the brackets, and another takes the brackets apart.
-/

namespace InlineAsm.DataType

open Text (Pattern)

/-- `\s*` -/
def blankRun : Pattern := .many true (.one .blank)

/-- `\d*` -/
def digitRun : Pattern := .many true (.one .digit)

/-- `[a-z][a-z ]*?` -/
def scalarName : Pattern :=
  .seq (.one (.range 'a' 'z')) (.many false (.one (.either (.range 'a' 'z') (.single ' '))))

/-- The size in brackets, with blanks around it: `\[\s*` in front and `\s*\]` behind. -/
def bracket (size : Pattern) : Pattern :=
  .seq (.one (.single '[')) (.seq blankRun (.seq size (.seq blankRun (.one (.single ']')))))

/-- `^\s*([a-z][a-z ]*?)\s*((?:\[\s*\d*\s*\]\s*)*)$` -/
def typeName : Pattern :=
  .seq .start (.seq blankRun (.seq (.group 1 scalarName) (.seq blankRun
    (.seq (.group 2 (.many true (.seq (bracket digitRun) blankRun))) .finish))))

/-- `\[\s*(\d*)\s*\]` -/
def dimension : Pattern := bracket (.group 1 digitRun)

/-- The size that the digits in a bracket stand for. -/
def size (digits : List Char) : Except Error (Option Nat) :=
  if digits.isEmpty then .ok none
  else match Text.Numeral.readNatural (NativeType.wordLimit - 1) digits with
    | .ok n => .ok (some n)
    | .error fault => .error (.invalidSize (String.ofList digits) fault)

def scalarOfName (s : String) : Except Error CType :=
  match CType.ofName? s with
  | some t => .ok t
  | none => .error (.unknownTypeName s)

def ofName (s : String) : Except Error DataType :=
  match typeName.find? s.toList with
  | none => .error (.malformedTypeName s)
  | some groups => do
    let t ← scalarOfName (String.ofList (Pattern.groupText groups 1))
    let sizes := (dimension.findAll (Pattern.groupText groups 2)).map fun g => Pattern.groupText g 1
    ofDims t (← sizes.mapM size)

end InlineAsm.DataType
