import InlineAsm.Decimal.Notation
import InlineAsm.Text.Quoted

/-!
Host values: the literals bound to variables, the arguments of a call and its results. Arrays are nested lists in
row-major order; a tuple holds several results.
-/

namespace InlineAsm

/-- A number is written in full, without a power of ten and without a point that nothing follows. Of two shortest
decimals that are equally near the upper one is written. -/
def Double.text (x : Double) : String :=
  if x.isNaN then "NaN"
  else
    let size :=
      if x.isInfinite then "inf"
      else if x.magnitude = 0 then "0"
      else (Decimal.shortest .up x.magnitude).positional
    if x.negative then "-" ++ size else size

inductive Value where
  | int (i : Int)
  | float (x : Double)
  /-- Character data; a character is a text of length one. -/
  | text (s : String)
  | list (items : List Value)
  /-- Several results, in the order of the outputs. -/
  | tuple (items : List Value)
  /-- The result of a function without outputs. -/
  | unit

namespace Value

/-- The bytes that a value takes as an item of a list, without what it refers to. -/
def itemSize : Nat := 32

inductive Kind where
  | integer
  | float
  | text
  | list
  | tuple
  | unit
  deriving DecidableEq, Repr

def Kind.name : Kind → String
  | .integer => "integer"
  | .float => "float"
  | .text => "string"
  | .list => "list"
  | .tuple => "tuple"
  | .unit => "unit"

def kind : Value → Kind
  | .int _ => .integer
  | .float _ => .float
  | .text _ => .text
  | .list _ => .list
  | .tuple _ => .tuple
  | .unit => .unit

def int? : Value → Option Int
  | .int i => some i
  | _ => none

/-- An integer counts as the number of double precision nearest to it. -/
def float? : Value → Option Double
  | .float x => some x
  | .int i => some (.ofInt i)
  | _ => none

def list? : Value → Option (List Value)
  | .list items => some items
  | _ => none

def isUnit : Value → Bool
  | .unit => true
  | _ => false

def ofChar (c : Char) : Value := .text (String.singleton c)

def ofSingle (x : Single) : Value := .float x.toDouble

mutual

def render : Value → String
  | .int i => Text.Numeral.ofInt i
  | .float x => x.text
  | .text s => Text.quoted '"' s.toList
  | .list items => "[" ++ ", ".intercalate (renderAll items) ++ "]"
  | .tuple items => "(" ++ ", ".intercalate (renderAll items) ++ ")"
  | .unit => "()"

def renderAll : List Value → List String
  | [] => []
  | v :: rest => v.render :: renderAll rest

end

mutual

/-- Equality that compares floats as numbers. -/
def same : Value → Value → Bool
  | .int i, .int j => i == j
  | .float x, .float y => x.eq y
  | .text s, .text t => s == t
  | .list vs, .list ws => sameAll vs ws
  | .tuple vs, .tuple ws => sameAll vs ws
  | .unit, .unit => true
  | _, _ => false

def sameAll : List Value → List Value → Bool
  | [], [] => true
  | v :: vs, w :: ws => v.same w && sameAll vs ws
  | _, _ => false

end

mutual

/-- The values below all nested lists, from left to right. -/
def leaves : Value → List Value
  | .list items => leavesAll items
  | v => [v]

def leavesAll : List Value → List Value
  | [] => []
  | v :: rest => v.leaves ++ leavesAll rest

end

end Value

end InlineAsm
