import InlineAsm.Json.Printer
import InlineAsm.Mismatch
import InlineAsm.Opcode

/-!
Everything that can fail, by cause. `Error.kind` sorts the causes, and `Error.message` words them.
-/

namespace InlineAsm

/-- What memory does not allow. No error is returned for it: the call ends there. -/
inductive StorageFault where
  /-- More elements than the storage holds. -/
  | outOfBounds
  /-- An axis whose elements have no size. -/
  | emptyStride
  /-- An allocation above the limit. -/
  | tooLarge
  deriving DecidableEq, Repr

/-- Why a toolchain can not be configured. -/
inductive ConfigError where
  | emptyCompiler
  | zeroTimeout
  | invalidDocument
  | invalidWidth (text : String)
  /-- Flags in which a quote is left open. -/
  | openQuote (flags : String)
  | invalidTimeout (text : String) (fault : Text.Numeral.Fault)
  /-- A failure that the loader reports in its own words. -/
  | other (text : String)

inductive Error where
  | mismatch (m : Mismatch)
  /-- An argument of a call, counted among the inputs. -/
  | argument (index : Nat) (m : Mismatch)
  | noDefault (type : DataType)
  | unconvertible (json : Json)
  | unconvertibleNumber (n : Json.Number)
  | operandKind (opcode : String) (kind : Operand.Kind) (index : Nat) (slot : List Capability)
  | operandCount (opcode : String) (expected actual : Nat)
  | argumentCount (expected actual : Nat)
  | malformedTypeName (name : String)
  | unknownTypeName (name : String)
  | invalidSize (text : String) (fault : Text.Numeral.Fault)
  | zeroSize
  | openAxis (type : DataType)
  /-- An open axis in the type of a variable that takes a role. -/
  | openVariable (role : Role) (v : Variable)
  | invalidJson
  | unknownRegister (name : String)
  | unknownMnemonic (name : String)
  | emptyLabel
  | registeredTwice (index : Nat) (v : Variable) (earlier role : Role)
  | inputWithLiteral (index : Nat) (v : Variable)
  | notRegistered (instruction : Nat) (v : Variable)
  | compilation (status : Option Int) (text : String)
  | notCompiled
  | load (text : String)
  | io (text : String)
  | config (e : ConfigError)
  | storage (f : StorageFault)

namespace Error

inductive Kind where
  | argumentType
  | argumentsNumber
  | argumentValue
  | variableDoesNotExist
  | compilation
  | functionIsNotCompiled
  | load
  | io
  | config
  | storage
  deriving DecidableEq, Repr

def kind : Error → Kind
  | mismatch _ | argument _ _ | noDefault _ | unconvertible _ | unconvertibleNumber _ | operandKind _ _ _ _ =>
    .argumentType
  | operandCount _ _ _ | argumentCount _ _ => .argumentsNumber
  | malformedTypeName _ | unknownTypeName _ | invalidSize _ _ | zeroSize | openAxis _ | openVariable _ _
  | invalidJson | unknownRegister _ | unknownMnemonic _ | emptyLabel | registeredTwice _ _ _ _
  | inputWithLiteral _ _ => .argumentValue
  | notRegistered _ _ => .variableDoesNotExist
  | compilation _ _ => .compilation
  | notCompiled => .functionIsNotCompiled
  | load _ => .load
  | io _ => .io
  | config _ => .config
  | storage _ => .storage

end Error

/-- The list in which variables of a role are given. -/
def Role.listName : Role → String
  | .input => "inputs"
  | .output => "outputs"
  | .scratch => "locals"

def ConfigError.message : ConfigError → String
  | emptyCompiler => "Compiler must not be empty"
  | zeroTimeout => "Timeout must be at least one second"
  | invalidDocument => "Invalid toolchain config"
  | invalidWidth s => "Invalid target width '" ++ s ++ "' (expected 32 or 64)"
  | openQuote flags => "Can not split XASM_CFLAGS='" ++ flags ++ "': missing closing quote"
  | invalidTimeout s fault => "Invalid XASM_TIMEOUT_SECS='" ++ s ++ "': " ++ fault.message
  | other s => s

def StorageFault.message : StorageFault → String
  | outOfBounds => "More elements than the storage holds"
  | emptyStride => "The elements of an axis have no size"
  | tooLarge => "More memory than one allocation may ask for"

namespace Error

open Text.Numeral (ofNat)

def openAxisText (d : DataType) : String :=
  "Array type " ++ d.name ++ " has an unresolved dimension; bind a value or give every size"

def statusText : Option Int → String
  | none => "None"
  | some n => "Some(" ++ Text.Numeral.ofInt n ++ ")"

def countText (context : String) (expected actual : Nat) : String :=
  context ++ ": expected " ++ ofNat expected ++ ", got " ++ ofNat actual

/-- The cause in words, without the kind of the error. -/
def detail : Error → String
  | mismatch m => m.message
  | argument i m => "argument " ++ ofNat i ++ ": " ++ m.message
  | noDefault d => "One of the dimensions of " ++ d.name ++ " is unknown, can not build its default value"
  | unconvertible j => "Can not convert JSON " ++ j.text ++ " to a value"
  | unconvertibleNumber n => "Can not convert JSON number " ++ n.text ++ " to a value"
  | operandKind opcode kind i slot =>
    opcode ++ ": unsupported " ++ kind.name ++ " operand with index " ++ ofNat i ++ " (admits " ++
      Capability.listText slot ++ ")"
  | operandCount opcode n m => countText (opcode ++ ": invalid number of operands") n m
  | argumentCount n m => countText "Function call: invalid number of arguments" n m
  | malformedTypeName s => "Invalid type name: '" ++ s ++ "'"
  | unknownTypeName s => "Unknown name for C type: '" ++ s ++ "'"
  | invalidSize s fault => "Invalid array size '" ++ s ++ "': " ++ fault.message
  | zeroSize => "Invalid array size 0 (expected size > 0)"
  | openAxis d => openAxisText d
  | openVariable role v => role.name ++ " variable " ++ v.description ++ ": " ++ openAxisText v.type
  | invalidJson => "Invalid JSON value"
  | unknownRegister s =>
    "Unknown register '" ++ s ++ "'. Use Register::names() to list the available names"
  | unknownMnemonic s => "Unknown instruction mnemonic '" ++ s ++ "'"
  | emptyLabel => "A label needs at least one instruction"
  | registeredTwice i v earlier role =>
    role.listName ++ "[" ++ ofNat i ++ "]: variable " ++ v.description ++ " is registered as " ++ earlier.name ++
      " and " ++ role.name
  | inputWithLiteral i v =>
    Role.input.listName ++ "[" ++ ofNat i ++ "]: variable " ++ v.description ++
      " has a value and can not be an input"
  | notRegistered i v =>
    "instruction " ++ ofNat i ++ " references " ++ v.description ++
      ", which is not an input, local or output variable"
  | compilation status s => s ++ " (exit status: " ++ statusText status ++ ")"
  | notCompiled => "call Function::compile() before invoking it"
  | load s => s
  | io s => s
  | config e => e.message
  | storage f => f.message

def Kind.title : Kind → String
  | .argumentType => "Argument type error"
  | .argumentsNumber => "Arguments number error"
  | .argumentValue => "Argument value error"
  | .variableDoesNotExist => "Variable does not exist"
  | .compilation => "Compilation error"
  | .functionIsNotCompiled => "Function is not compiled"
  | .load => "Load error"
  | .io => "IO error"
  | .config => "Config error"
  | .storage => "Storage error"

def message (e : Error) : String := e.kind.title ++ ": " ++ e.detail

end Error

end InlineAsm
