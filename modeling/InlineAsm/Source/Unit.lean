import InlineAsm.Instruction.Basic
import InlineAsm.NativeType
import InlineAsm.Source.Quoted

/-!
The C source of a compiled function, as data and as text. It has two functions. The body takes the variables as
parameters and holds the assembly: each variable is an output operand in a register, and is tied back as an input
operand so that the register holds its value at the start. The entry point takes one address per parameter and calls
the body.
-/

namespace InlineAsm

/-- A variable in the role that it takes. -/
structure Binding where
  var : Variable
  role : Role

namespace Source

/-- A parameter of the body. -/
structure Parameter where
  type : DataType
  symbol : String
  /-- An output is passed by its address. -/
  output : Bool
  deriving DecidableEq

namespace Parameter

def ofBinding (b : Binding) : Parameter := ⟨b.var.type, b.var.symbol, b.role = .output⟩

def declaration (p : Parameter) : String := p.type.declaration p.symbol p.output

/-- The expression for the variable: a scalar output is reached through its pointer. -/
def lvalue (p : Parameter) : String := if p.output && !p.type.isArray then "*" ++ p.symbol else p.symbol

end Parameter

/-- An output operand of the assembly, by the name that its tokens use. -/
structure OutputOperand where
  symbol : String
  lvalue : String
  deriving DecidableEq

def OutputOperand.text (o : OutputOperand) : String := "[" ++ o.symbol ++ "] \"=r\" (" ++ o.lvalue ++ ")"

/-- An input operand in the register of the output operand that it is tied to. -/
structure InputOperand where
  tie : Nat
  lvalue : String
  deriving DecidableEq

def InputOperand.text (i : InputOperand) : String :=
  "\"" ++ Text.Numeral.ofNat i.tie ++ "\" (" ++ i.lvalue ++ ")"

/-- What the entry point hands on from the address at an index. -/
inductive Argument where
  | value (t : CType) (index : Nat)
  | address (index : Nat)
  deriving DecidableEq

namespace Argument

def ofType (index : Nat) : NativeType → Argument
  | .scalar t => value t index
  | _ => address index

def slotText (index : Nat) : String := "args[" ++ Text.Numeral.ofNat index ++ "]"

def text : Argument → String
  | value t index => "*(" ++ t.name ++ " *) " ++ slotText index
  | address index => slotText index

end Argument

end Source

open Source in
structure SourceUnit where
  parameters : List Parameter
  /-- The lines of assembly. -/
  lines : List String
  outputs : List OutputOperand
  inputs : List InputOperand
  clobbers : List String
  arguments : List Argument
  deriving DecidableEq

namespace SourceUnit

open Source

/-- The clobber names of the registers touched, each once, in the order of their first use. -/
def clobbers? (touched : List Register) : List Register :=
  (touched.filterMap Register.clobber?).foldl (fun seen r => if seen.contains r then seen else seen ++ [r]) []

def synthesize (body : List Instruction) (labels : List Label) (bindings : List Binding)
    (signature : List NativeType) : SourceUnit :=
  let parameters := bindings.map Parameter.ofBinding
  let emitted := body ++ labels.flatMap Label.body
  { parameters
    lines := match body.map Instruction.text ++ labels.map Label.text with
      | [] => [""]
      | lines => lines
    outputs := parameters.map fun p => ⟨p.symbol, p.lvalue⟩
    inputs := parameters.mapIdx fun index p => ⟨index, p.lvalue⟩
    clobbers := (clobbers? (emitted.flatMap Instruction.registers)).map Register.name ++ ["cc"]
    arguments := signature.mapIdx Argument.ofType }

def commaList (items : List String) : String := ", ".intercalate items

/-- Each line of assembly as a string literal. -/
def quotedLines (u : SourceUnit) : List String := u.lines.map quoted

/-- The body is never inlined, since the labels in it must not be defined twice. -/
def bodyText (u : SourceUnit) : String :=
  "static __attribute__((noinline)) void xasm_body(" ++
    (if u.parameters.isEmpty then "void" else commaList (u.parameters.map Parameter.declaration)) ++ ") \x7b\n" ++
  "    __asm__ __volatile__ (\n" ++
  String.join (u.quotedLines.map fun line => "        " ++ line ++ "\n") ++
  "        : " ++ commaList (u.outputs.map OutputOperand.text) ++ "\n" ++
  "        : " ++ commaList (u.inputs.map InputOperand.text) ++ "\n" ++
  "        : " ++ commaList (u.clobbers.map quoted) ++ "\n" ++
  "    );\n\x7d\n"

def entryText (u : SourceUnit) : String :=
  "void xasm_entry(void ** args) \x7b\n" ++
  (if u.arguments.isEmpty then "    (void) args;\n" else "") ++
  "    xasm_body(" ++ commaList (u.arguments.map Argument.text) ++ ");\n\x7d\n"

def text (u : SourceUnit) : String := u.bodyText ++ "\n" ++ u.entryText

end SourceUnit

end InlineAsm
