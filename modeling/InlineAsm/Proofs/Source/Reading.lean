import InlineAsm.Proofs.Source.Template

/-! The text of a compiled function can be read back: the declarations of the parameters, the lines of assembly, its
operands and clobbers, and the arguments that the entry point hands on. The reader goes through the text once, from the
front, and each part ends at the first character that can not belong to it. -/

namespace InlineAsm

namespace Source

/-- What the text of a compiled function says. -/
structure Reading where
  /-- The declarations in the head of the body. -/
  parameters : List String
  /-- The lines of assembly, without the escapes. -/
  lines : List String
  outputs : List String
  inputs : List String
  /-- The names, without the quotes. -/
  clobbers : List String
  /-- What the entry point calls the body with. -/
  arguments : List String

/-- The text in front of the first `stop`, and the one behind it. -/
def upTo (stop : Char) (cs : List Char) : List Char × List Char :=
  (cs.takeWhile (· != stop), (cs.dropWhile (· != stop)).tail)

/-- The parts of a text between which a comma and a blank stand. -/
def parts : List Char → List (List Char)
  | [] => [[]]
  | ',' :: ' ' :: rest => [] :: parts rest
  | c :: rest => (parts rest).modifyHead (c :: ·)

/-- The items of a list. Without any there stands `absent`. -/
def items (absent : String) (cs : List Char) : List String :=
  if cs = absent.toList then [] else (parts cs).map String.ofList

/-- The text of a literal whose first quote was read, and what stands behind the last. -/
def literal? : List Char → Option (List Char × List Char)
  | [] => none
  | '"' :: rest => some ([], rest)
  | '\\' :: c :: rest => if c = '\\' ∨ c = '"' then (literal? rest).map (Prod.map (c :: ·) id) else none
  | c :: rest => (literal? rest).map (Prod.map (c :: ·) id)

/-- The text of the literal that is the whole item. -/
def unquoted? (item : String) : Option String := do
  let (text, rest) ← literal? (← item.toList.dropPrefix? ['"'])
  if rest.isEmpty then some (String.ofList text) else none

/-- The text of the literal on the next line, and what stands behind that line. -/
def line? (cs : List Char) : Option (String × List Char) := do
  let (text, rest) ← literal? (← cs.dropPrefix? (indentation ++ ['"']))
  return (String.ofList text, ← rest.dropPrefix? ['\n'])

/-- The items of the list that ends at `stop`, and what stands behind it. -/
def list (absent : String) (stop : Char) (cs : List Char) : List String × List Char :=
  (upTo stop cs).map (items absent) id

/-- The items of the clause on the next line, and what stands behind that line. -/
def clause? (cs : List Char) : Option (List String × List Char) :=
  (cs.dropPrefix? outputClause).map (list "" '\n')

theorem dropPrefix?_append (front rest : List Char) : (front ++ rest).dropPrefix? front = some rest :=
  List.dropPrefix?_append_of_beq rest (beq_self_eq_true front)

theorem dropSuffix?_append (front rest : List Char) : (front ++ rest).dropSuffix? rest = some front :=
  List.dropSuffix?_eq_some_iff.2 ⟨rest, rfl, beq_self_eq_true rest⟩

theorem length_of_dropPrefix? {front cs rest : List Char} (h : cs.dropPrefix? front = some rest) :
    cs.length = front.length + rest.length := by
  obtain ⟨front', rfl, hfront⟩ := List.dropPrefix?_eq_some_iff.1 h
  rw [eq_of_beq hfront, List.length_append]

theorem length_of_literal? :
    ∀ {cs text rest : List Char}, literal? cs = some (text, rest) → rest.length < cs.length := by
  intro cs
  induction cs using literal?.induct with
  | case1 => intro text rest h; cases h
  | case2 later =>
    intro text rest h
    cases h
    exact Nat.lt_succ_self _
  | case3 c later hc ih =>
    intro text rest h
    rw [literal?, if_pos hc, Option.map_eq_some_iff] at h
    obtain ⟨⟨text, rest⟩, h, ⟨⟩⟩ := h
    exact (ih h).trans_le (Nat.le_add_right _ 2)
  | case4 c later hc =>
    intro text rest h
    rw [literal?, if_neg hc] at h
    cases h
  | case5 c later hquote hslash ih =>
    intro text rest h
    rw [literal?, Option.map_eq_some_iff] at h
    · obtain ⟨⟨text, rest⟩, h, ⟨⟩⟩ := h
      exact (ih h).trans (Nat.lt_succ_self _)
    · exact hquote
    · exact hslash

theorem length_of_line? {cs rest : List Char} {text : String} (h : line? cs = some (text, rest)) :
    rest.length < cs.length := by
  simp only [line?, Option.bind_eq_bind, Option.bind_eq_some_iff, Option.pure_def, Option.some.injEq] at h
  obtain ⟨behind, hbehind, ⟨text, later⟩, hlater, _, hlast, ⟨⟩⟩ := h
  have h₁ := length_of_dropPrefix? hbehind
  have h₂ := length_of_literal? hlater
  have h₃ : later.length = 1 + rest.length := length_of_dropPrefix? hlast
  omega

/-- The texts of the literals on the next lines, and what stands behind these lines. -/
def lines (cs : List Char) : List String × List Char :=
  match _h : line? cs with
  | some (line, rest) => (lines rest).map (line :: ·) id
  | none => ([], cs)
termination_by cs.length
decreasing_by exact length_of_line? ‹_›

/-- The arguments that the entry point calls the body with. If there are none, it says first that it has no use for the
addresses. -/
def call? (cs : List Char) : Option (List String) := do
  let cs := (cs.dropPrefix? "    (void) args;\n".toList).getD cs
  let cs ← cs.dropPrefix? "    xasm_body(".toList
  return items "" (← cs.dropSuffix? ");\n\x7d\n".toList)

def read? (source : String) : Option Reading := do
  let cs ← source.toList.dropPrefix? "static __attribute__((noinline)) void xasm_body(".toList
  let (parameters, cs) := list "void" ')' cs
  let cs ← cs.dropPrefix? " \x7b\n    __asm__ __volatile__ (\n".toList
  let (lines, cs) := lines cs
  let (outputs, cs) ← clause? cs
  let (inputs, cs) ← clause? cs
  let (clobbers, cs) ← clause? cs
  let clobbers ← clobbers.mapM unquoted?
  let cs ← cs.dropPrefix? "    );\n\x7d\n\nvoid xasm_entry(void ** args) \x7b\n".toList
  return { parameters, lines, outputs, inputs, clobbers, arguments := ← call? cs }

theorem upTo_append {stop : Char} {part : List Char} (h : stop ∉ part) (rest : List Char) :
    upTo stop (part ++ stop :: rest) = (part, rest) := by
  have hpart : ∀ c ∈ part, (c != stop) = true := fun c hc => bne_iff_ne.2 fun he => h (he ▸ hc)
  rw [upTo, List.takeWhile_append_of_pos hpart, List.dropWhile_append_of_pos hpart,
    List.takeWhile_cons_of_neg (by simp), List.dropWhile_cons_of_neg (by simp), List.append_nil, List.tail_cons]

section Lists

theorem parts_cons {c : Char} (h : c ≠ ',') (rest : List Char) :
    parts (c :: rest) = (parts rest).modifyHead (c :: ·) := by
  rw [parts]
  exact fun _ h' _ => h h'

theorem parts_of_not_mem {p : List Char} (h : ',' ∉ p) : parts p = [p] := by
  induction p with
  | nil => rfl
  | cons c p ih =>
    rw [List.mem_cons, not_or] at h
    rw [parts_cons (Ne.symm h.1), ih h.2]
    rfl

theorem parts_append {p : List Char} (h : ',' ∉ p) (rest : List Char) :
    parts (p ++ ',' :: ' ' :: rest) = p :: parts rest := by
  induction p with
  | nil => rfl
  | cons c p ih =>
    rw [List.mem_cons, not_or] at h
    rw [List.cons_append, parts_cons (Ne.symm h.1), ih h.2]
    rfl

theorem parts_intercalate (p : List Char) (ps : List (List Char)) (h : ∀ q ∈ p :: ps, ',' ∉ q) :
    parts ([',', ' '].intercalate (p :: ps)) = p :: ps := by
  induction ps generalizing p with
  | nil =>
    rw [List.intercalate_singleton]
    exact parts_of_not_mem (h p List.mem_cons_self)
  | cons q ps ih =>
    obtain ⟨hp, hps⟩ := List.forall_mem_cons.1 h
    rw [List.intercalate_cons_cons, List.append_assoc]
    exact (parts_append hp _).trans (congrArg (p :: ·) (ih q hps))

theorem toList_commaList (ss : List String) :
    (SourceUnit.commaList ss).toList = [',', ' '].intercalate (ss.map String.toList) := by
  rw [SourceUnit.commaList, String.toList_intercalate]
  rfl

/-- Can be told from the items beside it, from the end of the list and from the mark of an empty list. -/
structure Item (absent : String) (stop : Char) (s : String) : Prop where
  comma : ',' ∉ s.toList
  stop : stop ∉ s.toList
  present : s ≠ absent

/-- The text of a list. -/
def listed (absent : String) (ss : List String) : String :=
  if ss.isEmpty then absent else SourceUnit.commaList ss

theorem listed_empty (ss : List String) : listed "" ss = SourceUnit.commaList ss := by
  cases ss <;> rfl

variable {absent : String} {stop : Char} {ss : List String} (hss : ∀ s ∈ ss, Item absent stop s)
include hss

theorem items_listed (ha : ',' ∉ absent.toList) : items absent (listed absent ss).toList = ss := by
  cases ss with
  | nil => exact if_pos rfl
  | cons s ss =>
    have hparts : parts (SourceUnit.commaList (s :: ss)).toList = s.toList :: ss.map String.toList := by
      rw [toList_commaList]
      refine parts_intercalate s.toList (ss.map String.toList) ?_
      rw [← List.map_cons, List.forall_mem_map]
      exact fun s hs => (hss s hs).comma
    have hne : (SourceUnit.commaList (s :: ss)).toList ≠ absent.toList := by
      intro he
      rw [he, parts_of_not_mem ha, List.cons.injEq] at hparts
      exact (hss s List.mem_cons_self).present (String.toList_inj.1 hparts.1.symm)
    change items absent (SourceUnit.commaList (s :: ss)).toList = _
    rw [items, if_neg hne, hparts]
    simp [String.ofList_toList]

theorem stop_not_mem_listed (hs : stop ∉ absent.toList) (hsep : stop ∉ [',', ' ']) :
    stop ∉ (listed absent ss).toList := by
  rw [listed]
  split_ifs
  · exact hs
  · rw [toList_commaList]
    refine Text.not_mem_intercalate hsep ?_
    rw [List.forall_mem_map]
    exact fun s h => (hss s h).stop

theorem list_listed (ha : ',' ∉ absent.toList) (hs : stop ∉ absent.toList) (hsep : stop ∉ [',', ' '])
    (rest : List Char) : list absent stop ((listed absent ss).toList ++ stop :: rest) = (ss, rest) := by
  rw [list, upTo_append (stop_not_mem_listed hss hs hsep)]
  exact congrArg (·, rest) (items_listed hss ha)

end Lists

section Literals

theorem literal?_cons {c : Char} (hquote : c ≠ '"') (hslash : c ≠ '\\') (rest : List Char) :
    literal? (c :: rest) = (literal? rest).map (Prod.map (c :: ·) id) := by
  rw [literal?]
  · exact hquote
  · exact fun _ _ h _ => hslash h

theorem literal?_flatMap (cs rest : List Char) :
    literal? (cs.flatMap escapedChar ++ '"' :: rest) = some (cs, rest) := by
  induction cs with
  | nil => rfl
  | cons c cs ih =>
    rw [List.flatMap_cons, List.append_assoc]
    rcases escapedChar_cases c with ⟨h, hc⟩ | ⟨h, hslash, hquote⟩
    · rw [h, List.cons_append, List.singleton_append, literal?, if_pos hc, ih]
      rfl
    · rw [h, List.singleton_append, literal?_cons hquote hslash, ih]
      rfl

theorem unquoted?_quoted (s : String) : unquoted? (quoted s) = some s := by
  have hquoted : (quoted s).toList.dropPrefix? ['"'] = some (s.toList.flatMap escapedChar ++ ['"']) := by
    rw [toList_quoted]
    exact dropPrefix?_append ['"'] _
  rw [unquoted?, hquoted, Option.bind_eq_bind, Option.bind_some, literal?_flatMap]
  simp [String.ofList_toList]

theorem line?_quoted (s : String) (rest : List Char) :
    line? (indentation ++ ((quoted s).toList ++ '\n' :: rest)) = some (s, rest) := by
  have hquoted : (indentation ++ ((quoted s).toList ++ '\n' :: rest)).dropPrefix? (indentation ++ ['"']) =
      some (s.toList.flatMap escapedChar ++ '"' :: '\n' :: rest) := by
    rw [toList_quoted, List.cons_append, List.append_assoc]
    exact (congrArg (List.dropPrefix? · _) (by simp)).trans (dropPrefix?_append (indentation ++ ['"']) _)
  have hbreak : ('\n' :: rest).dropPrefix? ['\n'] = some rest := dropPrefix?_append ['\n'] rest
  rw [line?, hquoted, Option.bind_eq_bind, Option.bind_some, literal?_flatMap]
  simp [hbreak, String.ofList_toList]

theorem lines_of_some {cs rest : List Char} {line : String} (h : line? cs = some (line, rest)) :
    lines cs = (lines rest).map (line :: ·) id := by
  rw [lines]
  split
  · rename_i h'
    rw [h] at h'
    cases h'
    rfl
  · rename_i h'
    rw [h] at h'
    cases h'

theorem lines_of_none {cs : List Char} (h : line? cs = none) : lines cs = ([], cs) := by
  rw [lines]
  split
  · rename_i h'
    rw [h] at h'
    cases h'
  · rfl

/-- The literals are read up to the first line that has none. -/
theorem lines_append (ss : List String) {rest : List Char} (h : line? rest = none) :
    lines ((String.join (ss.map fun s => "        " ++ quoted s ++ "\n")).toList ++ rest) = (ss, rest) := by
  induction ss with
  | nil => exact lines_of_none h
  | cons s ss ih =>
    have hline : (String.join ((s :: ss).map fun s => "        " ++ quoted s ++ "\n")).toList ++ rest =
        indentation ++ ((quoted s).toList ++ '\n' ::
          ((String.join (ss.map fun s => "        " ++ quoted s ++ "\n")).toList ++ rest)) := by
      rw [String.toList_join, List.map_cons, List.flatMap_cons, ← String.toList_join, String.toList_append,
        String.toList_append, List.append_assoc, List.append_assoc, List.append_assoc]
      rfl
    rw [hline, lines_of_some (line?_quoted s _), ih]
    rfl

end Literals

end Source

namespace SourceUnit

open Source

/-- What the reader is to find in the text. -/
def reading (u : SourceUnit) : Reading where
  parameters := u.parameters.map Parameter.declaration
  lines := u.lines
  outputs := u.outputs.map OutputOperand.text
  inputs := u.inputs.map InputOperand.text
  clobbers := u.clobbers
  arguments := u.arguments.map Argument.text

/-- Each item of a list in the text can be told from those beside it. -/
structure Legible (u : SourceUnit) : Prop where
  parameters : ∀ p ∈ u.parameters, Item "void" ')' p.declaration
  outputs : ∀ o ∈ u.outputs, Item "" '\n' o.text
  inputs : ∀ i ∈ u.inputs, Item "" '\n' i.text
  clobbers : ∀ n ∈ u.clobbers, Item "" '\n' (quoted n)
  arguments : ∀ a ∈ u.arguments, Item "" '\n' a.text

/-- What stands behind the lines of assembly. -/
def clausesText (u : SourceUnit) : List Char :=
  outputClause ++ ((listed "" (u.outputs.map OutputOperand.text)).toList ++ '\n' ::
  (outputClause ++ ((listed "" (u.inputs.map InputOperand.text)).toList ++ '\n' ::
  (outputClause ++ ((listed "" (u.clobbers.map quoted)).toList ++ '\n' ::
  ("    );\n\x7d\n\nvoid xasm_entry(void ** args) \x7b\n".toList ++
  ((if u.arguments.isEmpty then "    (void) args;\n" else "").toList ++
  ("    xasm_body(".toList ++ ((listed "" (u.arguments.map Argument.text)).toList ++ ");\n\x7d\n".toList)))))))))

theorem toList_text (u : SourceUnit) : u.text.toList =
    "static __attribute__((noinline)) void xasm_body(".toList ++
      ((listed "void" (u.parameters.map Parameter.declaration)).toList ++ ')' ::
      (" \x7b\n    __asm__ __volatile__ (\n".toList ++
      ((String.join (u.lines.map fun s => "        " ++ quoted s ++ "\n")).toList ++ u.clausesText))) := by
  have hhead : ") \x7b\n" = ")" ++ " \x7b\n" := rfl
  have hopening : " \x7b\n    __asm__ __volatile__ (\n" = " \x7b\n" ++ "    __asm__ __volatile__ (\n" := rfl
  have hbetween : "    );\n\x7d\n\nvoid xasm_entry(void ** args) \x7b\n" =
      "    );\n\x7d\n" ++ "\n" ++ "void xasm_entry(void ** args) \x7b\n" := rfl
  have hclose : ")".toList = [')'] := rfl
  have hclause : "        : ".toList = outputClause := rfl
  have hbreak : "\n".toList = ['\n'] := rfl
  have hparameters : listed "void" (u.parameters.map Parameter.declaration) =
      if u.parameters.isEmpty then "void" else commaList (u.parameters.map Parameter.declaration) := by
    rw [listed, List.isEmpty_map]
  rw [hparameters, hopening]
  unfold clausesText text bodyText entryText
  rw [hbetween, hhead]
  rw [quotedLines, List.map_map]
  simp only [String.toList_append, hclose, hclause, hbreak, listed_empty, -String.reduceAppend]
  simp only [List.append_assoc, List.cons_append, List.nil_append]
  rfl

theorem line?_clausesText (u : SourceUnit) : line? u.clausesText = none := rfl

theorem call?_text {u : SourceUnit} (h : ∀ a ∈ u.arguments, Item "" '\n' a.text) :
    call? ((if u.arguments.isEmpty then "    (void) args;\n" else "").toList ++
      ("    xasm_body(".toList ++ ((listed "" (u.arguments.map Argument.text)).toList ++ ");\n\x7d\n".toList))) =
      some (u.arguments.map Argument.text) := by
  have hcall : ∀ rest, (((if u.arguments.isEmpty then "    (void) args;\n" else "").toList ++
      ("    xasm_body(".toList ++ rest)).dropPrefix? "    (void) args;\n".toList).getD
        ((if u.arguments.isEmpty then "    (void) args;\n" else "").toList ++ ("    xasm_body(".toList ++ rest)) =
      "    xasm_body(".toList ++ rest := by
    intro rest
    split_ifs
    · rw [dropPrefix?_append]
      rfl
    · rfl
  have hitems := items_listed (List.forall_mem_map.2 h) (by decide)
  rw [call?, hcall, dropPrefix?_append, Option.bind_eq_bind, Option.bind_some, dropSuffix?_append]
  exact congrArg some hitems

theorem clause?_append {ss : List String} (h : ∀ s ∈ ss, Item "" '\n' s) (rest : List Char) :
    clause? (outputClause ++ ((listed "" ss).toList ++ '\n' :: rest)) = some (ss, rest) := by
  rw [clause?, dropPrefix?_append, Option.map_some, list_listed h (by decide) (by decide) (by decide)]

/-- A legible text says what it was written for. -/
theorem read?_text {u : SourceUnit} (h : u.Legible) : read? u.text = some u.reading := by
  have hclobbers : (u.clobbers.map quoted).mapM unquoted? = some u.clobbers := by
    have hread : (unquoted? ∘ quoted) = fun n => pure (id n) := funext unquoted?_quoted
    rw [List.mapM_map, hread, List.mapM_pure, List.map_id]
    rfl
  rw [read?, toList_text, dropPrefix?_append, Option.bind_eq_bind, Option.bind_some,
    list_listed (List.forall_mem_map.2 h.parameters) (by decide) (by decide) (by decide)]
  dsimp only
  rw [dropPrefix?_append, Option.bind_some, lines_append u.lines u.line?_clausesText]
  dsimp only
  rw [clausesText, clause?_append (List.forall_mem_map.2 h.outputs), Option.bind_eq_bind, Option.bind_some,
    clause?_append (List.forall_mem_map.2 h.inputs), Option.bind_eq_bind, Option.bind_some,
    clause?_append (List.forall_mem_map.2 h.clobbers), Option.bind_some, hclobbers, Option.bind_some,
    dropPrefix?_append, Option.bind_some, call?_text h.arguments]
  rfl

/-- Stands between the items of a clause, and in none of them. -/
def Separates (c : Char) : Prop := c = ',' ∨ c = '\n'

theorem Separates.delimits {c : Char} (hc : Separates c) : Delimits c := by
  rcases hc with rfl | rfl
  · exact .comma
  · exact .lineBreak

section Synthesized

variable (b : Binding) {c : Char} (hc : Separates c)
include hc

theorem Separates.not_mem_lvalue : c ∉ (Parameter.ofBinding b).lvalue.toList := by
  have hstar : c ≠ '*' := by rcases hc with rfl | rfl <;> decide
  have hsymbol := hc.delimits.not_mem_symbol b.var
  rw [Parameter.lvalue]
  split_ifs
  · simpa [String.toList_append, hstar, Parameter.ofBinding] using hsymbol
  · exact hsymbol

theorem Separates.not_mem_outputOperand :
    c ∉ (OutputOperand.text ⟨b.var.symbol, (Parameter.ofBinding b).lvalue⟩).toList := by
  have hsymbol := hc.delimits.not_mem_symbol b.var
  have hlvalue := hc.not_mem_lvalue b
  rcases hc with rfl | rfl <;> simp [OutputOperand.text, String.toList_append, hsymbol, hlvalue]

theorem Separates.not_mem_inputOperand (i : Nat) :
    c ∉ (InputOperand.text ⟨i, (Parameter.ofBinding b).lvalue⟩).toList := by
  have hindex := hc.delimits.not_mem_ofNat i
  have hlvalue := hc.not_mem_lvalue b
  rcases hc with rfl | rfl <;> simp [InputOperand.text, String.toList_append, hindex, hlvalue]

theorem Separates.not_mem_argument (a : Argument) : c ∉ a.text.toList := by
  have hname := hc.delimits.not_mem_name
  have hindex := hc.delimits.not_mem_ofNat
  rcases hc with rfl | rfl <;>
    cases a <;> simp [Argument.text, Argument.slotText, String.toList_append, hindex, hname]

theorem Separates.not_mem_register (r : Register) : c ∉ r.name.toList := by
  rcases hc with rfl | rfl <;> cases r <;> decide

end Synthesized

theorem ne_of_mem {c : Char} {s t : String} (hs : c ∈ s.toList) (ht : c ∉ t.toList) : s ≠ t :=
  fun h => ht (h ▸ hs)

theorem item_parameter (b : Binding) : Item "void" ')' (Parameter.ofBinding b).declaration where
  comma := Delimits.comma.not_mem_declaration b
  stop := Delimits.close.not_mem_declaration b
  present := by
    refine ne_of_mem (c := ' ') ?_ (by decide)
    rw [Parameter.declaration, Parameter.ofBinding]
    cases b.var.type with
    | scalar t => cases hrole : decide (b.role = .output) <;> simp [DataType.declaration, String.toList_append]
    | array inner size => simp [DataType.declaration, String.toList_append]

theorem item_of_not_mem {s : String} (h : ∀ c, Separates c → c ∉ s.toList) (hs : s.toList ≠ []) :
    Item "" '\n' s where
  comma := h ',' (.inl rfl)
  stop := h '\n' (.inr rfl)
  present he := hs (congrArg String.toList he)

variable (body : List Instruction) (labels : List Label) (bindings : List Binding) (signature : List NativeType)

/-- What is written for a function is legible. -/
theorem legible_synthesize : (synthesize body labels bindings signature).Legible where
  parameters := List.forall_mem_map.2 fun b _ => item_parameter b
  outputs := by
    simp only [synthesize, List.forall_mem_map]
    intro b _
    refine item_of_not_mem (fun c hc => hc.not_mem_outputOperand b) ?_
    simp [OutputOperand.text, String.toList_append]
  inputs := by
    simp only [synthesize, List.mem_mapIdx, List.getElem_map]
    rintro _ ⟨i, hi, rfl⟩
    refine item_of_not_mem (fun c hc => hc.not_mem_inputOperand _ i) ?_
    simp [InputOperand.text, String.toList_append]
  clobbers := by
    intro n hn
    refine item_of_not_mem (fun c hc => ?_) (by simp [toList_quoted])
    have hslash : c ≠ '\\' := by rcases hc with rfl | rfl <;> decide
    have hquote : c ≠ '"' := by rcases hc with rfl | rfl <;> decide
    refine not_mem_quoted hslash hquote ?_
    rcases List.mem_append.1 hn with hn | hn
    · obtain ⟨r, -, rfl⟩ := List.mem_map.1 hn
      exact hc.not_mem_register r
    · obtain rfl := List.mem_singleton.1 hn
      rcases hc with rfl | rfl <;> decide
  arguments := by
    intro a _
    refine item_of_not_mem (fun c hc => hc.not_mem_argument a) ?_
    cases a <;> simp [Argument.text, Argument.slotText, String.toList_append]

theorem read?_synthesize : read? (synthesize body labels bindings signature).text =
    some (synthesize body labels bindings signature).reading :=
  read?_text (legible_synthesize body labels bindings signature)

end SourceUnit

end InlineAsm
