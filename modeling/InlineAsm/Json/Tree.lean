import InlineAsm.Json.Number

/-!
JSON trees: documents whose numbers and strings have been given their meaning. Strings hold whole characters; the
members of an object are sorted by key, and of two with one key the later is kept.
-/

namespace InlineAsm

inductive Json where
  | null
  | bool (b : Bool)
  | number (n : Json.Number)
  | string (s : String)
  | array (items : List Json)
  | object (members : List (String × Json))

namespace Json

/-- The characters of a written string. A surrogate has to be the first or second of a pair. -/
def characters? : List Piece → Option (List Char)
  | [] => some []
  | .char c :: rest => (characters? rest).map (c :: ·)
  | .unit n :: rest =>
    if 0xD800 ≤ n ∧ n < 0xDC00 then
      match rest with
      | .unit m :: rest =>
        if 0xDC00 ≤ m ∧ m < 0xE000 then
          (characters? rest).map (Char.ofNat (0x10000 + 0x400 * (n - 0xD800) + (m - 0xDC00)) :: ·)
        else none
      | _ => none
    else if 0xDC00 ≤ n ∧ n < 0xE000 then none
    else (characters? rest).map (Char.ofNat n :: ·)

def string? (s : List Piece) : Option String := (characters? s).map String.ofList

/-- Puts a member at its place, in front of those with a greater key and instead of one with the same key. -/
def insertMember (key : String) (j : Json) : List (String × Json) → List (String × Json)
  | [] => [(key, j)]
  | (k, i) :: rest =>
    if key < k then (key, j) :: (k, i) :: rest
    else if key = k then (key, j) :: rest
    else (k, i) :: insertMember key j rest

mutual

/-- The meaning of a document whose containers are nested at most `depth` deep. -/
def ofDocument? (depth : Nat) : Document → Option Json
  | .null => some .null
  | .bool b => some (.bool b)
  | .number n => (Number.ofNumeral? n).map .number
  | .string s => (string? s).map .string
  | .array items =>
    match depth with
    | 0 => none
    | depth + 1 => (itemsOf? depth items).map .array
  | .object members =>
    match depth with
    | 0 => none
    | depth + 1 => (membersOf? depth [] members).map .object

def itemsOf? (depth : Nat) : List Document → Option (List Json)
  | [] => some []
  | d :: rest => do return (← ofDocument? depth d) :: (← itemsOf? depth rest)

def membersOf? (depth : Nat) (done : List (String × Json)) :
    List (List Piece × Document) → Option (List (String × Json))
  | [] => some done
  | (key, d) :: rest => do
    let key ← string? key
    let j ← ofDocument? depth d
    membersOf? depth (insertMember key j done) rest

end

/-- Containers are nested at most this deep. -/
def maxDepth : Nat := 127

def ofText? (text : String) : Option Json := do ofDocument? maxDepth (← Document.ofText? text)

end Json

end InlineAsm
