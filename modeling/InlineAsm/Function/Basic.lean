import InlineAsm.Function.References
import InlineAsm.Function.Roles
import InlineAsm.Handles
import InlineAsm.Storage.Slot

/-!
Functions: a body of instructions, and what the last successful compilation made of it. `plan` checks the body against
three lists of variables and writes the source; `compile` hands the source to a bridge and keeps the old compilation
on any failure; `invoke` marshals the arguments, runs the entry point and reads the outputs.
-/

namespace InlineAsm

/-- Compiled code: from the bytes of all slots before a run to those after it. -/
abbrev Entry := List (List UInt8) → List (List UInt8)

/-- What turns source text into compiled code, with effects in `m`: a compiler that answers the path of its artifact,
and a loader. -/
structure Bridge (m : Type → Type) where
  compile : String → m (Except Error String)
  load : String → List NativeType → m (Except Error Entry)

/-- All that is settled before a bridge is asked. -/
structure Plan extends Roles where
  body : List Instruction
  /-- The labels that are emitted behind the body. -/
  labels : List Label
  signature : List NativeType

namespace Plan

def unit (p : Plan) : SourceUnit := .synthesize p.body p.labels p.bindings p.signature

def text (p : Plan) : String := p.unit.text

end Plan

structure Compiled extends Plan where
  /-- The text that the bridge was given. -/
  source : String
  entry : Entry

structure Function where
  body : List Instruction
  compiled : Option Compiled := none

/-- One run of the entry point. -/
structure Invocation where
  before : List Slot
  after : List Slot
  result : Value

namespace Function

def isCompiled (f : Function) : Bool := f.compiled.isSome

def source? (f : Function) : Option String := f.compiled.map fun c => c.source

def signature? (f : Function) : Option (List NativeType) := f.compiled.map fun c => c.signature

/-- The role of a variable and its position among the parameters. -/
def roleOf? (f : Function) (v : Variable) : Option (Role × Nat) := do (← f.compiled).toRoles.roleOf? v

def plan (f : Function) (inputs locals outputs : List Variable) : Except Error Plan := do
  let roles ← Roles.resolve inputs locals outputs
  let labels ← Instruction.emittedLabels roles.registers 0 f.body []
  let signature ← roles.bindings.mapM Binding.native
  return { roles with body := f.body, labels, signature }

variable {m : Type → Type} [Monad m]

def build (bridge : Bridge m) (p : Plan) : m (Except Error Compiled) := do
  let source := p.text
  match ← bridge.compile source with
  | .error e => return .error e
  | .ok artifact =>
    match ← bridge.load artifact p.signature with
    | .error e => return .error e
    | .ok entry => return .ok { p with source, entry }

/-- The function afterwards, and whether the compilation succeeded. -/
def compile (bridge : Bridge m) (f : Function) (inputs locals outputs : List Variable) :
    m (Function × Except Error Unit) := do
  match f.plan inputs locals outputs with
  | .error e => return (f, .error e)
  | .ok p =>
    match ← build bridge p with
    | .error e => return (f, .error e)
    | .ok compiled => return ({ f with compiled }, .ok ())

/-- Refusals of an argument name its index. -/
def argumentError (index : Nat) : Error → Error
  | .mismatch m => .argument index m
  | e => e

/-- A slot for each parameter. The inputs take the arguments in order, counted from `index`; the others take their
initial values. -/
def marshal (index : Nat) : List (Binding × NativeType) → List Value → Except Error (List Slot)
  | [], _ => .ok []
  | (⟨_, .input⟩, _) :: _, [] => .error (.argumentCount (index + 1) index)
  | (⟨_, .input⟩, t) :: rest, v :: args => do
    let slot ← (Slot.ofValue t v).mapError (argumentError index)
    return slot :: (← marshal (index + 1) rest args)
  | (b, t) :: rest, args => do
    let slot ← Slot.ofValue t (← b.var.initialValue)
    return slot :: (← marshal index rest args)

/-- The slots with the bytes that a run left in them. -/
def receive : List Slot → List (List UInt8) → List Slot
  | s :: slots, bytes :: rest => s.overwrite bytes :: receive slots rest
  | slots, _ => slots

/-- No output is the unit, one output stands for itself, and several form a tuple. -/
def gather : List Value → Value
  | [] => .unit
  | [v] => v
  | vs => .tuple vs

def isOutput (b : Binding) : Bool := b.role = .output

/-- The values in the slots of the outputs. -/
def outputs (bindings : List Binding) (slots : List Slot) : Except Error (List Value) :=
  ((bindings.zip slots).filter fun p => isOutput p.1).mapM fun p => p.2.load

/-- The slots that a call with these arguments starts with. -/
def prepare (c : Compiled) (args : List Value) : Except Error (List Slot) := do
  let expected := (c.bindings.filter fun b => b.role = .input).length
  if args.length ≠ expected then throw (.argumentCount expected args.length)
  marshal 0 (c.bindings.zip c.signature) args

/-- A call in which `run` runs the entry point, with effects in `m`. -/
def invokeWith (run : Entry → List (List UInt8) → m (List (List UInt8))) (f : Function) (args : List Value) :
    m (Except Error Invocation) := do
  match f.compiled with
  | none => return .error .notCompiled
  | some c =>
    match prepare c args with
    | .error e => return .error e
    | .ok before =>
      let after := receive before (← run c.entry (before.map Slot.bytes))
      return (outputs c.bindings after).map fun results => { before, after, result := gather results }

def invoke (f : Function) (args : List Value) : Except Error Invocation :=
  Id.run (f.invokeWith (fun entry bytes => pure (entry bytes)) args)

def call (f : Function) (args : List Value) : Except Error Value := do return (← f.invoke args).result

end Function

end InlineAsm
