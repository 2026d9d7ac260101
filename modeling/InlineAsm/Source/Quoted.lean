/-!
String literals of C. A backslash stands in front of each backslash and of each quote.
-/

namespace InlineAsm.Source

/-- All occurrences of a character replaced. -/
def replaceAll (c : Char) (new cs : List Char) : List Char := cs.flatMap fun d => if d = c then new else [d]

def quoted (s : String) : String :=
  String.ofList (['"'] ++ replaceAll '"' ['\\', '"'] (replaceAll '\\' ['\\', '\\'] s.toList) ++ ['"'])

end InlineAsm.Source
