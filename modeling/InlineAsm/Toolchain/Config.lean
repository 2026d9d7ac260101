import InlineAsm.Error
import InlineAsm.Text.ShellWords

/-!
How the native toolchain is called: settings from the environment or from a JSON document, with defaults for what is
not given, and the arguments of the compiler.
-/

namespace InlineAsm.Toolchain

/-- The word size of the artifact in bits. -/
inductive TargetWidth where
  | w32
  | w64
  deriving DecidableEq, Repr

namespace TargetWidth

/-- The word size of the process itself. -/
def host : TargetWidth := w64

def digits : TargetWidth → String
  | w32 => "32"
  | w64 => "64"

def flag (w : TargetWidth) : String := "-m" ++ w.digits

def ofDigits? : String → Option TargetWidth
  | "32" => some w32
  | "64" => some w64
  | _ => none

def ofText (s : String) : Except Error TargetWidth :=
  let digits := String.ofList (Text.trim s.toList)
  match ofDigits? digits with
  | some w => .ok w
  | none => .error (.config (.invalidWidth digits))

end TargetWidth

structure Config where
  compiler : String := "gcc"
  /-- Arguments behind the fixed ones. -/
  extraFlags : List String := []
  targetWidth : TargetWidth := .host
  /-- The directory that holds a directory for each compilation. -/
  buildDir : Option String := none
  keepSource : Bool := false
  /-- In seconds. -/
  timeout : Nat := 60
  deriving DecidableEq

namespace Config

def validate (c : Config) : Except Error Config :=
  if (Text.trim c.compiler.toList).isEmpty then .error (.config .emptyCompiler)
  else if c.timeout = 0 then .error (.config .zeroTimeout)
  else .ok c

/-- Timeouts are kept within 64 bits. -/
def timeoutLimit : Nat := twoPow 64 - 1

/-- A compiler of blanks only counts as not given. -/
def withCompiler (c : Config) (s : String) : Config :=
  match Text.trim s.toList with
  | [] => c
  | name => { c with compiler := String.ofList name }

def withFlags (c : Config) (s : String) : Except Error Config :=
  match Text.shellWords? s with
  | some flags => .ok { c with extraFlags := flags }
  | none => .error (.config (.openQuote s))

def withTimeout (c : Config) (s : String) : Except Error Config :=
  match Text.Numeral.readNatural timeoutLimit (Text.trim s.toList) with
  | .ok n => .ok { c with timeout := n }
  | .error fault => .error (.config (.invalidTimeout s fault))

def isYes (s : String) : Bool := ["1", "true", "yes"].contains (String.ofList (Text.trim s.toList))

/-- The settings that the variables of an environment give. -/
def ofEnvironment (get? : String → Option String) : Except Error Config := do
  let mut c : Config := {}
  if let some s := get? "XASM_CC" then c := c.withCompiler s
  if let some s := get? "XASM_CFLAGS" then c ← c.withFlags s
  if let some s := get? "XASM_TARGET_WIDTH" then c := { c with targetWidth := ← TargetWidth.ofText s }
  if let some s := get? "XASM_BUILD_DIR" then
    if !s.isEmpty then c := { c with buildDir := some s }
  if let some s := get? "XASM_KEEP_SOURCE" then c := { c with keepSource := isYes s }
  if let some s := get? "XASM_TIMEOUT_SECS" then c ← c.withTimeout s
  c.validate

/-- The settings by their place in a document. -/
inductive Field where
  | compiler
  | extraFlags
  | targetWidth
  | buildDir
  | keepSource
  | timeout
  deriving DecidableEq, Repr

namespace Field

open Json (Document)

def all : List Field := [compiler, extraFlags, targetWidth, buildDir, keepSource, timeout]

def name : Field → String
  | compiler => "compiler"
  | extraFlags => "extra_flags"
  | targetWidth => "target_width"
  | buildDir => "build_dir"
  | keepSource => "keep_source"
  | timeout => "timeout_secs"

def ofName? (s : String) : Option Field := all.find? fun f => f.name == s

def string? : Document → Option String
  | .string s => Json.string? s
  | _ => none

def strings? : Document → Option (List String)
  | .array items => items.mapM string?
  | _ => none

/-- A width is a string, or an object with that string as the key of null. -/
def width? : Document → Option TargetWidth
  | .string s => do TargetWidth.ofDigits? (← Json.string? s)
  | .object [(key, .null)] => do TargetWidth.ofDigits? (← Json.string? key)
  | _ => none

/-- A number in plain digits. -/
def natural? (limit : Nat) : Document → Option Nat
  | .number ⟨false, digits, [], none⟩ =>
    let n := digits.foldl (fun n d => 10 * n + d) 0
    if n ≤ limit then some n else none
  | _ => none

def set? (c : Config) (d : Document) : Field → Option Config
  | compiler => (string? d).map fun s => { c with compiler := s }
  | extraFlags => (strings? d).map fun flags => { c with extraFlags := flags }
  | targetWidth => (width? d).map fun w => { c with targetWidth := w }
  | buildDir =>
    match d with
    | .null => some { c with buildDir := none }
    | d => (string? d).map fun s => { c with buildDir := some s }
  | keepSource =>
    match d with
    | .bool b => some { c with keepSource := b }
    | _ => none
  | timeout => (natural? timeoutLimit d).map fun n => { c with timeout := n }

end Field

open Json (Document Piece)

/-- Members with other keys are ignored, and no field may be given twice. -/
def ofMembers? (c : Config) (seen : List Field) : List (List Piece × Document) → Option Config
  | [] => some c
  | (key, d) :: rest => do
    match Field.ofName? (← Json.string? key) with
    | none => ofMembers? c seen rest
    | some f => if seen.contains f then none else ofMembers? (← f.set? c d) (f :: seen) rest

/-- The items are the fields in order; the last ones may be missing. -/
def ofItems? (c : Config) : List Field → List Document → Option Config
  | _, [] => some c
  | [], _ :: _ => none
  | f :: fields, d :: rest => do ofItems? (← f.set? c d) fields rest

def ofDocument? : Document → Option Config
  | .object members => ofMembers? {} [] members
  | .array items => ofItems? {} Field.all items
  | _ => none

def ofJsonText (s : String) : Except Error Config :=
  match (Document.ofText? s).bind ofDocument? with
  | some c => c.validate
  | none => .error (.config .invalidDocument)

def fieldJson (c : Config) : Field → String
  | .compiler => Json.quoted c.compiler
  | .extraFlags => "[" ++ ",".intercalate (c.extraFlags.map Json.quoted) ++ "]"
  | .targetWidth => Json.quoted c.targetWidth.digits
  | .buildDir => match c.buildDir with
    | none => "null"
    | some s => Json.quoted s
  | .keepSource => if c.keepSource then "true" else "false"
  | .timeout => Text.Numeral.ofNat c.timeout

/-- The document with all fields in order. -/
def jsonText (c : Config) : String :=
  "\x7b" ++ ",".intercalate (Field.all.map fun f => Json.quoted f.name ++ ":" ++ c.fieldJson f) ++ "\x7d"

/-- The arguments that make a shared object from a source, with the operands of its assembly in Intel order. -/
def arguments (c : Config) (source artifact : String) : List String :=
  ["-fPIC", "-shared", c.targetWidth.flag, "-masm=intel"] ++ c.extraFlags ++ ["-o", artifact, source]

end Config

end InlineAsm.Toolchain
