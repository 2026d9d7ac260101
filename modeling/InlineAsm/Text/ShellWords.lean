/-!
Command lines split into words, as a shell does. Words are separated by spaces, tabs and line breaks. Between single
quotes all characters stand for themselves. Outside of quotes a backslash makes the next character stand for itself;
between double quotes it does so only in front of `$`, `"`, the backslash and the backquote. A line break behind a
backslash vanishes. A word that begins with `#` is a comment and lasts to the end of the line.
-/

namespace InlineAsm.Text

namespace ShellWords

inductive Mode where
  /-- Between words. -/
  | between
  /-- Behind a backslash that may begin a word. -/
  | betweenEscaped
  | word
  | wordEscaped
  | singleQuoted
  | doubleQuoted
  | doubleQuotedEscaped
  | comment

/-- The words so far, and the characters of the word under way in reverse. -/
structure State where
  words : List (List Char) := []
  current : List Char := []
  mode : Mode := .between

def isBlank (c : Char) : Bool := c == ' ' || c == '\t' || c == '\n'

/-- Whether a backslash between double quotes escapes the character. -/
def isEscapable (c : Char) : Bool := c == '$' || c == '\x60' || c == '"' || c == '\\'

namespace State

def push (s : State) (c : Char) (mode : Mode) : State := { s with current := c :: s.current, mode }

/-- Ends the word under way. -/
def close (s : State) : State := ⟨s.words ++ [s.current.reverse], [], .between⟩

def step (s : State) (c : Char) : State :=
  match s.mode with
  | .between =>
    if isBlank c then s
    else if c = '\'' then { s with mode := .singleQuoted }
    else if c = '"' then { s with mode := .doubleQuoted }
    else if c = '\\' then { s with mode := .betweenEscaped }
    else if c = '#' then { s with mode := .comment }
    else s.push c .word
  | .betweenEscaped => if c = '\n' then { s with mode := .between } else s.push c .word
  | .word =>
    if isBlank c then s.close
    else if c = '\'' then { s with mode := .singleQuoted }
    else if c = '"' then { s with mode := .doubleQuoted }
    else if c = '\\' then { s with mode := .wordEscaped }
    else s.push c .word
  | .wordEscaped => if c = '\n' then { s with mode := .word } else s.push c .word
  | .singleQuoted => if c = '\'' then { s with mode := .word } else s.push c .singleQuoted
  | .doubleQuoted =>
    if c = '"' then { s with mode := .word }
    else if c = '\\' then { s with mode := .doubleQuotedEscaped }
    else s.push c .doubleQuoted
  | .doubleQuotedEscaped =>
    if c = '\n' then { s with mode := .doubleQuoted }
    else if isEscapable c then s.push c .doubleQuoted
    else (s.push '\\' .doubleQuoted).push c .doubleQuoted
  | .comment => if c = '\n' then { s with mode := .between } else s

/-- The words of a text that ends here, unless a quote is open. A backslash at the end stands for itself. -/
def finish? (s : State) : Option (List (List Char)) :=
  match s.mode with
  | .between | .comment => some s.words
  | .word => some s.close.words
  | .betweenEscaped | .wordEscaped => some (s.push '\\' .word).close.words
  | .singleQuoted | .doubleQuoted | .doubleQuotedEscaped => none

end State

end ShellWords

/-- The words of a command line, unless a quote is left open. -/
def shellWords? (s : String) : Option (List String) :=
  (s.toList.foldl ShellWords.State.step {}).finish?.map fun words => words.map String.ofList

end InlineAsm.Text
