import InlineAsm.Proofs.DataType.Name
import InlineAsm.Source.Unit

/-! The assembly in the text of the body can be read back. Between the line that opens the block and the clause of its
outputs each line is one complete string literal, and without the escapes the literals are the lines of assembly, in
order. A backslash takes the character behind it along, so a quote there does not end the literal. -/

namespace InlineAsm

open Text (terminated)

theorem Variable.not_mem_symbol {c : Char} (hv : c ≠ 'v') (hdigit : ¬Text.Numeral.IsDigit c) (v : Variable) :
    c ∉ v.symbol.toList := by
  have hnumeral := Text.Numeral.not_mem_ofNat hdigit v.handle
  simp [symbol, String.toList_append, hv, hnumeral]

namespace Source

/-- What stands behind the first quote that is not escaped. -/
def behindQuote? : List Char → Option (List Char)
  | [] => none
  | '"' :: rest => some rest
  | '\\' :: _ :: rest => behindQuote? rest
  | _ :: rest => behindQuote? rest

/-- One complete literal: a quote begins it, and the first later quote that is not escaped is its last character. -/
def IsLiteral (cs : List Char) : Prop := ∃ rest, cs = '"' :: rest ∧ behindQuote? rest = some []

/-- The text without the escapes of backslashes and quotes. -/
def unescaped : List Char → List Char
  | [] => []
  | '\\' :: '\\' :: rest => '\\' :: unescaped rest
  | '\\' :: '"' :: rest => '"' :: unescaped rest
  | c :: rest => c :: unescaped rest

/-- The text that a literal stands for, between its first character and its last. -/
def literalText (cs : List Char) : List Char := unescaped cs.tail.dropLast

/-- What a character is written as. -/
def escapedChar (c : Char) : List Char := if c = '\\' ∨ c = '"' then ['\\', c] else [c]

/-- The two replacements in a row are one pass. The backslashes come first, since the second replacement writes new
ones. -/
theorem replaceAll_replaceAll (cs : List Char) :
    replaceAll '"' ['\\', '"'] (replaceAll '\\' ['\\', '\\'] cs) = cs.flatMap escapedChar := by
  rw [replaceAll, replaceAll, List.flatMap_assoc]
  refine List.flatMap_congr fun c _ => ?_
  by_cases hslash : c = '\\'
  · subst hslash
    rfl
  · by_cases hquote : c = '"'
    · subst hquote
      rfl
    · simp [escapedChar, hslash, hquote]

theorem escapedChar_cases (c : Char) :
    (escapedChar c = ['\\', c] ∧ (c = '\\' ∨ c = '"')) ∨ (escapedChar c = [c] ∧ c ≠ '\\' ∧ c ≠ '"') := by
  by_cases h : c = '\\' ∨ c = '"'
  · exact .inl ⟨if_pos h, h⟩
  · exact .inr ⟨if_neg h, not_or.1 h⟩

theorem unescaped_cons {c : Char} (h : c ≠ '\\') (rest : List Char) : unescaped (c :: rest) = c :: unescaped rest := by
  rw [unescaped]
  · exact fun _ h' _ => h h'
  · exact fun _ h' _ => h h'

theorem unescaped_flatMap (cs : List Char) : unescaped (cs.flatMap escapedChar) = cs := by
  induction cs with
  | nil => rfl
  | cons c cs ih =>
    rw [List.flatMap_cons]
    rcases escapedChar_cases c with ⟨h, rfl | rfl⟩ | ⟨h, hslash, -⟩
    · rw [h]
      exact congrArg ('\\' :: ·) ih
    · rw [h]
      exact congrArg ('"' :: ·) ih
    · rw [h, List.singleton_append, unescaped_cons hslash, ih]

theorem behindQuote?_cons {c : Char} (hquote : c ≠ '"') (hslash : c ≠ '\\') (rest : List Char) :
    behindQuote? (c :: rest) = behindQuote? rest := by
  rw [behindQuote?]
  · exact hquote
  · exact fun _ _ h _ => hslash h

/-- No quote ends an escaped text before its own end. -/
theorem behindQuote?_flatMap (cs rest : List Char) :
    behindQuote? (cs.flatMap escapedChar ++ '"' :: rest) = some rest := by
  induction cs with
  | nil => rfl
  | cons c cs ih =>
    rw [List.flatMap_cons, List.append_assoc]
    rcases escapedChar_cases c with ⟨h, -⟩ | ⟨h, hslash, hquote⟩
    · rw [h]
      exact ih
    · rw [h, List.singleton_append, behindQuote?_cons hquote hslash, ih]

theorem toList_quoted (s : String) : (quoted s).toList = '"' :: (s.toList.flatMap escapedChar ++ ['"']) := by
  rw [quoted, String.toList_ofList, replaceAll_replaceAll]
  rfl

theorem isLiteral_quoted (s : String) : IsLiteral (quoted s).toList :=
  ⟨_, toList_quoted s, behindQuote?_flatMap _ _⟩

theorem literalText_quoted (s : String) : literalText (quoted s).toList = s.toList := by
  rw [literalText, toList_quoted, List.tail_cons, List.dropLast_concat, unescaped_flatMap]

theorem not_mem_quoted {c : Char} (hslash : c ≠ '\\') (hquote : c ≠ '"') {s : String} (h : c ∉ s.toList) :
    c ∉ (quoted s).toList := by
  have hescaped : c ∉ s.toList.flatMap escapedChar := by
    intro hc
    obtain ⟨d, hd, hc⟩ := List.mem_flatMap.1 hc
    have hcd : c ≠ d := fun he => h (he ▸ hd)
    rcases escapedChar_cases d with ⟨he, -⟩ | ⟨he, -⟩
    · simp [he, hslash, hcd] at hc
    · simp [he, hcd] at hc
  simp [toList_quoted, hquote, hescaped]

/-- The line that opens the assembly. -/
def opening : List Char := "    __asm__ __volatile__ (".toList

/-- The start of the line of the outputs. -/
def outputClause : List Char := "        : ".toList

def indentation : List Char := "        ".toList

/-- The lines of a text between the one that opens the assembly and that of its outputs. -/
def templateLines (source : String) : List (List Char) :=
  ((source.toList.splitOn '\n').dropWhile (· != opening)).tail.takeWhile fun line => !outputClause.isPrefixOf line

/-- Stands between the parts of the text, and in no name, number or address. -/
def Delimits (c : Char) : Prop := c = ',' ∨ c = ')' ∨ c = '\n'

theorem Delimits.comma : Delimits ',' := .inl rfl

theorem Delimits.close : Delimits ')' := .inr (.inl rfl)

theorem Delimits.lineBreak : Delimits '\n' := .inr (.inr rfl)

section Delimits

variable {c : Char} (hc : Delimits c)
include hc

theorem Delimits.not_mem_name (t : CType) : c ∉ t.name.toList := by
  refine DataType.not_mem_spelling t.name_mem_spellings ?_ ?_
  · rcases hc with rfl | rfl | rfl <;> exact fun h => absurd h.1 (by decide)
  · rcases hc with rfl | rfl | rfl <;> decide

theorem Delimits.not_mem_ofNat (n : Nat) : c ∉ (Text.Numeral.ofNat n).toList := by
  refine Text.Numeral.not_mem_ofNat ?_ n
  rcases hc with rfl | rfl | rfl <;> decide

theorem Delimits.not_mem_symbol (v : Variable) : c ∉ v.symbol.toList := by
  refine v.not_mem_symbol ?_ ?_
  · rcases hc with rfl | rfl | rfl <;> decide
  · rcases hc with rfl | rfl | rfl <;> decide

theorem Delimits.not_mem_axisText (n : Option Nat) : c ∉ (DataType.axisText n).toList := by
  have hopen : c ≠ '[' := by rcases hc with rfl | rfl | rfl <;> decide
  have hclose : c ≠ ']' := by rcases hc with rfl | rfl | rfl <;> decide
  cases n <;> simp [DataType.axisText, String.toList_append, hc.not_mem_ofNat, hopen, hclose]

theorem Delimits.not_mem_declaration (b : Binding) : c ∉ (Parameter.ofBinding b).declaration.toList := by
  have hblank : c ≠ ' ' := by rcases hc with rfl | rfl | rfl <;> decide
  have hstar : c ≠ '*' := by rcases hc with rfl | rfl | rfl <;> decide
  rw [Parameter.declaration, Parameter.ofBinding]
  cases b.var.type with
  | scalar t =>
    cases hrole : decide (b.role = .output) <;>
      simp [DataType.declaration, String.toList_append, hc.not_mem_name, hc.not_mem_symbol, hblank, hstar]
  | array inner size =>
    simp [DataType.declaration, DataType.axesText, String.toList_append, String.toList_join, hc.not_mem_name,
      hc.not_mem_axisText, hc.not_mem_symbol, hblank]

end Delimits

/-- A template between its two borders is read back, line by line. -/
theorem templateLines_eq {source : String} {front rest : List Char} {literals : List (List Char)}
    (hsource : source.toList = front ++ '\n' ::
      (opening ++ '\n' :: (terminated '\n' (literals.map (indentation ++ ·)) ++ (outputClause ++ rest))))
    (hfront : '\n' ∉ front) (hopening : front ≠ opening) (hquote : ∀ l ∈ literals, '"' ∈ l.head?)
    (hlines : ∀ l ∈ literals, '\n' ∉ l) : templateLines source = literals.map (indentation ++ ·) := by
  have hindented : ∀ l ∈ literals.map (indentation ++ ·), '\n' ∉ l := by
    rw [List.forall_mem_map]
    intro l hl
    rw [List.mem_append, not_or]
    exact ⟨by decide, hlines l hl⟩
  have hkept : ∀ l ∈ literals.map (indentation ++ ·), (!outputClause.isPrefixOf l) = true := by
    rw [List.forall_mem_map]
    intro l hl
    obtain ⟨rest, rfl⟩ := List.head?_eq_some_iff.1 (hquote l hl)
    rfl
  have houtputs : ∃ p ps, (outputClause ++ rest).splitOn '\n' = (outputClause ++ p) :: ps :=
    Text.exists_splitOn_append (by decide) rest
  obtain ⟨p, ps, hclause⟩ := houtputs
  have hstop : (!outputClause.isPrefixOf (outputClause ++ p)) = false := rfl
  have hbegin : ∀ later : List (List Char),
      (front :: opening :: later).dropWhile (· != opening) = opening :: later := by
    intro later
    rw [List.dropWhile_cons_of_pos (by simpa using hopening), List.dropWhile_cons_of_neg (by simp)]
  rw [templateLines, hsource, Text.splitOn_append_cons hfront, Text.splitOn_append_cons (by decide), hbegin,
    List.tail_cons, Text.splitOn_terminated_append hindented, hclause, List.takeWhile_append_of_pos hkept,
    List.takeWhile_cons_of_neg (by simp [hstop]), List.append_nil]

end Source

namespace SourceUnit

open Source

/-- The first line of the body. -/
def bodyHeader (u : SourceUnit) : String :=
  "static __attribute__((noinline)) void xasm_body(" ++
    (if u.parameters.isEmpty then "void" else commaList (u.parameters.map Parameter.declaration)) ++ ") \x7b"

/-- What stands behind the start of the line of the outputs. -/
def bodyClauses (u : SourceUnit) : String :=
  commaList (u.outputs.map OutputOperand.text) ++ "\n" ++
  "        : " ++ commaList (u.inputs.map InputOperand.text) ++ "\n" ++
  "        : " ++ commaList (u.clobbers.map quoted) ++ "\n" ++
  "    );\n\x7d\n"

theorem bodyText_eq (u : SourceUnit) : u.bodyText =
    u.bodyHeader ++ ("\n" ++ ("    __asm__ __volatile__ (" ++ ("\n" ++
      (String.join (u.quotedLines.map fun line => "        " ++ line ++ "\n") ++
        ("        : " ++ u.bodyClauses))))) := by
  have hheader : ") \x7b\n" = ") \x7b" ++ "\n" := rfl
  have hopening : "    __asm__ __volatile__ (\n" = "    __asm__ __volatile__ (" ++ "\n" := rfl
  unfold bodyText bodyHeader bodyClauses
  rw [hheader, hopening]
  simp only [String.append_assoc]

theorem toList_join_indented (literals : List String) :
    (String.join (literals.map fun line => "        " ++ line ++ "\n")).toList =
      terminated '\n' ((literals.map String.toList).map (indentation ++ ·)) := by
  rw [String.toList_join, terminated, List.flatMap_map, List.flatMap_map, List.flatMap_map]
  refine List.flatMap_congr fun line _ => ?_
  rw [String.toList_append, String.toList_append]
  rfl

theorem toList_bodyText (u : SourceUnit) : u.bodyText.toList =
    u.bodyHeader.toList ++ '\n' :: (opening ++ '\n' ::
      (terminated '\n' ((u.quotedLines.map String.toList).map (indentation ++ ·)) ++
        (outputClause ++ u.bodyClauses.toList))) := by
  have hbreak : "\n".toList = ['\n'] := rfl
  rw [bodyText_eq]
  simp only [String.toList_append, toList_join_indented, hbreak, List.singleton_append]
  rfl

theorem lineBreak_not_mem_bodyHeader {u : SourceUnit} (h : ∀ p ∈ u.parameters, '\n' ∉ p.declaration.toList) :
    '\n' ∉ u.bodyHeader.toList := by
  have hparameters : '\n' ∉ (commaList (u.parameters.map Parameter.declaration)).toList := by
    rw [commaList, String.toList_intercalate]
    refine Text.not_mem_intercalate (by decide) ?_
    simpa using h
  unfold bodyHeader
  split_ifs
  · decide
  · simp [String.toList_append, hparameters]

theorem bodyHeader_ne_opening (u : SourceUnit) : u.bodyHeader.toList ≠ opening := by
  have hhead : u.bodyHeader.toList.head? = some 's' := by
    unfold bodyHeader
    rw [String.append_assoc, String.toList_append]
    rfl
  intro h
  rw [h] at hhead
  exact absurd hhead (by decide)

variable (body : List Instruction) (labels : List Label) (bindings : List Binding) (signature : List NativeType)

theorem lines_synthesize : (synthesize body labels bindings signature).lines =
    if body.isEmpty && labels.isEmpty then [""] else body.map Instruction.text ++ labels.map Label.text := by
  cases body <;> cases labels <;> rfl

/-- If no instruction and no label is written with a line break, then the lines of the body between the opening of the
assembly and the clause of the outputs are literals, each complete in itself, and they stand for the instructions and
behind them the labels, as these are written. Without any of them there is one literal, which is empty. -/
theorem template_read_back
    (h : ∀ t ∈ body.map Instruction.text ++ labels.map Label.text, '\n' ∉ t.toList) :
    ∃ literals : List (List Char),
      templateLines (synthesize body labels bindings signature).bodyText = literals.map (indentation ++ ·) ∧
      (∀ l ∈ literals, IsLiteral l) ∧
      literals.map (fun l => String.ofList (literalText l)) =
        if body.isEmpty && labels.isEmpty then [""] else body.map Instruction.text ++ labels.map Label.text := by
  have hlines : ∀ t ∈ (synthesize body labels bindings signature).lines, '\n' ∉ t.toList := by
    rw [lines_synthesize]
    split_ifs
    · simp
    · exact h
  have hdeclarations : ∀ p ∈ (synthesize body labels bindings signature).parameters, '\n' ∉ p.declaration.toList := by
    simp [synthesize, Delimits.lineBreak.not_mem_declaration]
  rw [← lines_synthesize body labels bindings signature]
  generalize synthesize body labels bindings signature = u at hlines hdeclarations ⊢
  refine ⟨u.quotedLines.map String.toList, ?_, ?_, ?_⟩
  · have hheader := lineBreak_not_mem_bodyHeader hdeclarations
    refine templateLines_eq (toList_bodyText u) hheader (bodyHeader_ne_opening u) ?_ ?_
    · simp [quotedLines, toList_quoted]
    · simp only [quotedLines, List.map_map, List.forall_mem_map]
      exact fun t ht => not_mem_quoted (by decide) (by decide) (hlines t ht)
  · simp only [quotedLines, List.map_map, List.forall_mem_map]
    exact fun t _ => isLiteral_quoted t
  · simp [quotedLines, Function.comp_def, literalText_quoted]

/-- A backslash in front of a quote, and one at the end of an operation's name. -/
theorem template_read_back_slashes :
    (∀ t ∈ ["\\\"\\ eax;", "\"\\;"], '\n' ∉ t.toList) ∧
      ∃ literals : List (List Char),
        templateLines (synthesize [⟨"\\\"\\", [.register .eax], []⟩, ⟨"\"\\", [], []⟩] [] [] []).bodyText =
          literals.map (indentation ++ ·) ∧
        (∀ l ∈ literals, IsLiteral l) ∧
        literals.map (fun l => String.ofList (literalText l)) = ["\\\"\\ eax;", "\"\\;"] :=
  ⟨by decide, template_read_back _ _ _ _ (by decide)⟩

end SourceUnit

end InlineAsm
