import InlineAsm.Text.Blank
import InlineAsm.Text.DecimalDigit

/-!
Patterns, and the search for them in a text. Of the ways in which a pattern can match, the first counts: a greedy
repetition takes as much as it can, and a lazy one as little. Groups keep the text that they matched last.
-/

namespace InlineAsm.Text

/-- A class of characters. -/
inductive CharClass where
  | single (c : Char)
  | range (first last : Char)
  | blank
  | digit
  | either (a b : CharClass)

def CharClass.contains : CharClass → Char → Bool
  | single c, d => d == c
  | range first last, d => first ≤ d && d ≤ last
  | blank, d => isBlank d
  | digit, d => isDecimalDigit d
  | either a b, d => a.contains d || b.contains d

inductive Pattern where
  /-- Nothing stands in front. -/
  | start
  /-- Nothing stands behind. -/
  | finish
  | one (c : CharClass)
  | seq (p q : Pattern)
  /-- The pattern any number of times. It has to take at least one character each time. -/
  | many (greedy : Bool) (p : Pattern)
  | group (index : Nat) (p : Pattern)

namespace Pattern

/-- The text of each group, the last first. -/
abbrev Groups := List (Nat × List Char)

def groupText (g : Groups) (index : Nat) : List Char := (g.lookup index).getD []

/-- What follows a match: it takes the rest of the text and the groups, or refuses them. -/
abbrev Follow (α : Type) := List Char → Groups → Option α

variable {α : Type}

/-- Repeats a step, at most `n` times. -/
def repeated (step : List Char → Groups → Follow α → Option α) (greedy : Bool) (k : Follow α) : Nat → Follow α
  | 0, cs, g => k cs g
  | n + 1, cs, g =>
    if greedy then step cs g (repeated step greedy k n) <|> k cs g
    else k cs g <|> step cs g (repeated step greedy k n)

/-- The first match at the front of `cs`, which ends a text of `size` characters, that is not refused. -/
def run (size : Nat) : Pattern → List Char → Groups → Follow α → Option α
  | start, cs, g, k => if cs.length = size then k cs g else none
  | finish, cs, g, k => if cs.isEmpty then k cs g else none
  | one c, cs, g, k =>
    match cs with
    | d :: rest => if c.contains d then k rest g else none
    | [] => none
  | seq p q, cs, g, k => run size p cs g fun rest g => run size q rest g k
  | many greedy p, cs, g, k => repeated (run size p) greedy k cs.length cs g
  | group index p, cs, g, k =>
    run size p cs g fun rest g => k rest ((index, cs.take (cs.length - rest.length)) :: g)

/-- The groups of the first match at the front of `cs`, and what stands behind that match. -/
def front (p : Pattern) (size : Nat) (cs : List Char) : Option (Groups × List Char) :=
  run size p cs [] fun rest g => some (g, rest)

/-- The same for the first match in `cs`. -/
def search (p : Pattern) (size : Nat) : List Char → Option (Groups × List Char)
  | [] => p.front size []
  | d :: rest => p.front size (d :: rest) <|> search p size rest

def find? (p : Pattern) (cs : List Char) : Option Groups := (p.search cs.length cs).map Prod.fst

/-- The groups of the matches in `cs` one behind the other, at most `n`. -/
def searchAll (p : Pattern) (size : Nat) : Nat → List Char → List Groups
  | 0, _ => []
  | n + 1, cs =>
    match p.search size cs with
    | some (g, rest) => g :: searchAll p size n rest
    | none => []

/-- The matches of a pattern that matches no empty text. -/
def findAll (p : Pattern) (cs : List Char) : List Groups := p.searchAll cs.length cs.length cs

end Pattern

end InlineAsm.Text
