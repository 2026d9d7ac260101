import InlineAsm.Error

/-!
Application of opcodes to operands, and the opcodes that are built in. `Opcode.apply` counts the operands first and
then reports the first one that no capability of its slot admits.
-/

namespace InlineAsm

namespace Opcode

/-- The first operand that its slot does not admit, counted from `index`. -/
def refused? (index : Nat) : List (List Capability) → List Operand → Option (Nat × List Capability × Operand)
  | slot :: slots, x :: operands =>
    if slot.any (·.admits x) then refused? (index + 1) slots operands else some (index, slot, x)
  | _, _ => none

def apply (o : Opcode) (operands : List Operand) : Except Error Instruction :=
  if operands.length ≠ o.slots.length then
    .error (.operandCount o.name o.slots.length operands.length)
  else match refused? 0 o.slots operands with
    | some (index, slot, x) => .error (.operandKind o.name x.kind index slot)
    | none => .ok ⟨o.name, operands, o.implicit⟩

end Opcode

/-- The built-in opcodes. -/
inductive Mnemonic where
  | mov | and | or | xor | not | neg | shl | shr | sal | sar | xchg | add | adc | sub | sbb | inc | dec
  | cbw | cwd | cdq | idiv | mul | div | imul | bt | bts | btr | btc | bsf | bsr | cmp | test
  | jmp | je | jne | jl | jg | nop
  deriving DecidableEq, Repr

namespace Mnemonic

def all : List Mnemonic :=
  [mov, and, or, xor, not, neg, shl, shr, sal, sar, xchg, add, adc, sub, sbb, inc, dec, cbw, cwd, cdq, idiv, mul,
   div, imul, bt, bts, btr, btc, bsf, bsr, cmp, test, jmp, je, jne, jl, jg, nop]

def name : Mnemonic → String
  | mov => "mov" | and => "and" | or => "or" | xor => "xor" | not => "not" | neg => "neg"
  | shl => "shl" | shr => "shr" | sal => "sal" | sar => "sar" | xchg => "xchg"
  | add => "add" | adc => "adc" | sub => "sub" | sbb => "sbb" | inc => "inc" | dec => "dec"
  | cbw => "cbw" | cwd => "cwd" | cdq => "cdq"
  | idiv => "idiv" | mul => "mul" | div => "div" | imul => "imul"
  | bt => "bt" | bts => "bts" | btr => "btr" | btc => "btc" | bsf => "bsf" | bsr => "bsr"
  | cmp => "cmp" | test => "test"
  | jmp => "jmp" | je => "je" | jne => "jne" | jl => "jl" | jg => "jg" | nop => "nop"

/-- An operand that is written to. -/
def target : List Capability := [.generalRegister, .var]

/-- An operand that is read. -/
def source : List Capability := [.generalRegister, .var, .number]

/-- The count of a shift: `cl` or a number. -/
def shiftCount : List Capability := [.countRegister, .number]

/-- Only `mov` reaches the segment registers. -/
def slots : Mnemonic → List (List Capability)
  | mov =>
    [[.generalRegister, .segmentRegister, .var], [.generalRegister, .segmentRegister, .var, .number]]
  | and | or | xor | add | adc | sub | sbb | imul | bt | bts | btr | btc | cmp | test => [target, source]
  | not | neg | inc | dec | idiv | mul | div => [target]
  | shl | shr | sal | sar => [target, shiftCount]
  | xchg | bsf | bsr => [target, target]
  | jmp | je | jne | jl | jg => [[.label]]
  | cbw | cwd | cdq | nop => []

def implicit : Mnemonic → List Register
  | cbw => [.eax]
  | cwd | cdq | idiv | mul | div => [.eax, .edx]
  | _ => []

def opcode (m : Mnemonic) : Opcode := ⟨m.name, m.slots, m.implicit⟩

def ofName? (s : String) : Option Mnemonic := all.find? fun m => m.name == s

/-- The built-in instruction of that name. -/
def instruction (name : String) (operands : List Operand) : Except Error Instruction :=
  match ofName? name with
  | some m => m.opcode.apply operands
  | none => .error (.unknownMnemonic name)

end Mnemonic

end InlineAsm
