import InlineAsm.Text.Numeral

/-!
JSON texts as written. `Document.ofText?` accepts exactly the texts of the grammar and keeps numbers and strings in
their written form, so that what a reader ignores is checked for its form only. Reading has two passes, each a fold:
`Lexer.step` over the characters makes tokens, and `Builder.step` over the tokens makes the tree.
-/

namespace InlineAsm.Json

/-- A part of a written string. -/
inductive Piece where
  | char (c : Char)
  /-- A UTF-16 unit, written as four hexadecimal digits. -/
  | unit (n : Nat)
  deriving DecidableEq

/-- A written number. No fraction is an empty one. -/
structure Numeral where
  negative : Bool
  integer : List Nat
  fraction : List Nat
  /-- Whether the exponent is negative, with its digits. -/
  exponent : Option (Bool × List Nat)

inductive Document where
  | null
  | bool (b : Bool)
  | number (n : Numeral)
  | string (s : List Piece)
  | array (items : List Document)
  | object (members : List (List Piece × Document))

inductive Token where
  | openArray
  | closeArray
  | openObject
  | closeObject
  | comma
  | colon
  | null
  | bool (b : Bool)
  | number (n : Numeral)
  | string (s : List Piece)

/-- The digits at the front, with the rest. -/
def digitRun : List Char → List Nat × List Char
  | [] => ([], [])
  | c :: rest =>
    match Text.Numeral.digitValue? c with
    | some d => let (ds, tail) := digitRun rest; (d :: ds, tail)
    | none => ([], c :: rest)

namespace Numeral

def fractionOf? : List Char → Option (List Nat × List Char)
  | '.' :: rest =>
    match digitRun rest with
    | ([], _) => none
    | run => some run
  | rest => some ([], rest)

def exponentOf? : List Char → Option (Option (Bool × List Nat))
  | [] => some none
  | e :: rest =>
    if e = 'e' ∨ e = 'E' then
      let (negative, rest) := match rest with
        | '-' :: tail => (true, tail)
        | '+' :: tail => (false, tail)
        | _ => (false, rest)
      match digitRun rest with
      | ([], _) => none
      | (ds, []) => some (some (negative, ds))
      | _ => none
    else none

/-- A number has no needless zeros in front, and digits wherever it has a point or an exponent. -/
def ofText? (cs : List Char) : Option Numeral := do
  let (negative, cs) := match cs with
    | '-' :: rest => (true, rest)
    | _ => (false, cs)
  let (integer, cs) := digitRun cs
  match integer with
  | [] => none
  | [0] => pure ()
  | 0 :: _ => none
  | _ => pure ()
  let (fraction, cs) ← fractionOf? cs
  let exponent ← exponentOf? cs
  return { negative, integer, fraction, exponent }

end Numeral

/-- What the lexer is inside of. Characters and pieces are kept in reverse. -/
inductive Mode where
  | between
  | word (letters : List Char)
  | number (cs : List Char)
  | string (pieces : List Piece)
  | escape (pieces : List Piece)
  /-- `left` hexadecimal digits are still to come. -/
  | hex (pieces : List Piece) (value left : Nat)

/-- The tokens so far, in reverse. -/
structure Lexer where
  tokens : List Token
  mode : Mode

namespace Lexer

def isBlank (c : Char) : Bool := c == ' ' || c == '\t' || c == '\n' || c == '\r'

def isLetter (c : Char) : Bool := 'a' ≤ c && c ≤ 'z'

/-- The characters of numbers. No other token may touch a number with one of them. -/
def isNumeric (c : Char) : Bool :=
  ('0' ≤ c && c ≤ '9') || c == '-' || c == '+' || c == '.' || c == 'e' || c == 'E'

def hexValue? (c : Char) : Option Nat :=
  if '0' ≤ c ∧ c ≤ '9' then some (c.toNat - '0'.toNat)
  else if 'a' ≤ c ∧ c ≤ 'f' then some (c.toNat - 'a'.toNat + 10)
  else if 'A' ≤ c ∧ c ≤ 'F' then some (c.toNat - 'A'.toNat + 10)
  else none

def simpleEscape? : Char → Option Char
  | '"' => some '"'
  | '\\' => some '\\'
  | '/' => some '/'
  | 'b' => some '\x08'
  | 'f' => some '\x0c'
  | 'n' => some '\n'
  | 'r' => some '\r'
  | 't' => some '\t'
  | _ => none

def wordToken? (letters : List Char) : Option Token :=
  if letters = ['n', 'u', 'l', 'l'] then some .null
  else if letters = ['t', 'r', 'u', 'e'] then some (.bool true)
  else if letters = ['f', 'a', 'l', 's', 'e'] then some (.bool false)
  else none

def start (tokens : List Token) (c : Char) : Option Lexer :=
  if isBlank c then some ⟨tokens, .between⟩
  else if c = '"' then some ⟨tokens, .string []⟩
  else if isLetter c then some ⟨tokens, .word [c]⟩
  else if isNumeric c then some ⟨tokens, .number [c]⟩
  else
    match c with
    | '[' => some ⟨.openArray :: tokens, .between⟩
    | ']' => some ⟨.closeArray :: tokens, .between⟩
    | '\x7b' => some ⟨.openObject :: tokens, .between⟩
    | '\x7d' => some ⟨.closeObject :: tokens, .between⟩
    | ',' => some ⟨.comma :: tokens, .between⟩
    | ':' => some ⟨.colon :: tokens, .between⟩
    | _ => none

def step (l : Lexer) (c : Char) : Option Lexer :=
  match l.mode with
  | .between => start l.tokens c
  | .word letters =>
    if isLetter c then some { l with mode := .word (c :: letters) }
    else do start ((← wordToken? letters.reverse) :: l.tokens) c
  | .number cs =>
    if isNumeric c then some { l with mode := .number (c :: cs) }
    else do start (.number (← Numeral.ofText? cs.reverse) :: l.tokens) c
  | .string pieces =>
    if c = '"' then some ⟨.string pieces.reverse :: l.tokens, .between⟩
    else if c = '\\' then some { l with mode := .escape pieces }
    else if c.toNat < 0x20 then none
    else some { l with mode := .string (.char c :: pieces) }
  | .escape pieces =>
    if c = 'u' then some { l with mode := .hex pieces 0 4 }
    else do return { l with mode := .string (.char (← simpleEscape? c) :: pieces) }
  | .hex pieces value left => do
    let value := 16 * value + (← hexValue? c)
    return { l with mode := if left ≤ 1 then .string (.unit value :: pieces) else .hex pieces value (left - 1) }

/-- The tokens of a text that ends here. -/
def finish (l : Lexer) : Option (List Token) := do
  match l.mode with
  | .between => return l.tokens.reverse
  | .word letters => return ((← wordToken? letters.reverse) :: l.tokens).reverse
  | .number cs => return (.number (← Numeral.ofText? cs.reverse) :: l.tokens).reverse
  | _ => none

end Lexer

/-- A container that is still open: what it holds so far, in reverse, and the key of the member under way. -/
inductive Frame where
  | array (items : List Document)
  | object (members : List (List Piece × Document)) (key : List Piece)

/-- What may come next. -/
inductive Expectation where
  | value
  /-- A value, or the end of an array just opened. -/
  | item
  | key
  /-- A key, or the end of an object just opened. -/
  | member
  | colon
  /-- The value at hand is complete. -/
  | after (d : Document)

structure Builder where
  opened : List Frame
  next : Expectation

namespace Builder

def begin (opened : List Frame) : Token → Option Builder
  | .openArray => some ⟨.array [] :: opened, .item⟩
  | .openObject => some ⟨.object [] [] :: opened, .member⟩
  | .null => some ⟨opened, .after .null⟩
  | .bool b => some ⟨opened, .after (.bool b)⟩
  | .number n => some ⟨opened, .after (.number n)⟩
  | .string s => some ⟨opened, .after (.string s)⟩
  | _ => none

def step (b : Builder) (t : Token) : Option Builder :=
  match b.next, b.opened, t with
  | .value, opened, t => begin opened t
  | .item, .array _ :: opened, .closeArray => some ⟨opened, .after (.array [])⟩
  | .item, opened, t => begin opened t
  | .member, .object _ _ :: opened, .closeObject => some ⟨opened, .after (.object [])⟩
  | .member, .object members _ :: opened, .string key
  | .key, .object members _ :: opened, .string key => some ⟨.object members key :: opened, .colon⟩
  | .colon, opened, .colon => some ⟨opened, .value⟩
  | .after d, .array items :: opened, .comma => some ⟨.array (d :: items) :: opened, .value⟩
  | .after d, .array items :: opened, .closeArray => some ⟨opened, .after (.array (d :: items).reverse)⟩
  | .after d, .object members key :: opened, .comma => some ⟨.object ((key, d) :: members) [] :: opened, .key⟩
  | .after d, .object members key :: opened, .closeObject =>
    some ⟨opened, .after (.object ((key, d) :: members).reverse)⟩
  | _, _, _ => none

end Builder

def Document.ofText? (text : String) : Option Document := do
  let lexer ← text.toList.foldlM Lexer.step ⟨[], .between⟩
  let builder ← (← lexer.finish).foldlM Builder.step ⟨[], .value⟩
  match builder with
  | ⟨[], .after d⟩ => return d
  | _ => none

end InlineAsm.Json
