import InlineAsm.Proofs.Function.Clobbers
import InlineAsm.Proofs.Identity
import InlineAsm.Proofs.Instruction.Opcode
import InlineAsm.Proofs.Text.Delimited

/-! The text of instructions and labels tells what was written. A line ends at its semicolon, a colon stands in the
first line of each label and nowhere else, a blank ends the opcode, commas separate the operands, and the first
character of an operand tells its kind. -/

namespace InlineAsm

theorem map_eq_map_iff_forall₂ {α β : Type} {f : α → β} {R : α → α → Prop} {P : α → Prop}
    (hf : ∀ x y, P x → P y → (f x = f y ↔ R x y)) :
    ∀ {xs ys : List α}, (∀ x ∈ xs, P x) → (∀ y ∈ ys, P y) → (xs.map f = ys.map f ↔ List.Forall₂ R xs ys) := by
  intro xs
  induction xs with
  | nil =>
    intro ys _ _
    cases ys <;> simp
  | cons x xs ih =>
    intro ys hx hy
    cases ys with
    | nil => simp
    | cons y ys =>
      obtain ⟨hx, hxs⟩ := List.forall_mem_cons.1 hx
      obtain ⟨hy, hys⟩ := List.forall_mem_cons.1 hy
      rw [List.map_cons, List.map_cons, List.cons.injEq, List.forall₂_cons, hf x y hx hy, ih hxs hys]

namespace Operand

/-- The kind of operand that a text begins. -/
def Kind.ofLead (c : Char) : Kind :=
  if c = '%' then .var
  else if c = 'l' then .label
  else if c = '-' ∨ Text.Numeral.IsDigit c then .literal
  else .register

variable {x y : Operand}

theorem Kind.ofLead_digit {c : Char} (hc : Text.Numeral.IsDigit c) : ofLead c = .literal := by
  rw [ofLead, if_neg (hc.ne (by decide)), if_neg (hc.ne (by decide)), if_pos (.inr hc)]

theorem ofLead_head? (hx : ¬x.IsFloat) : x.text.toList.head?.map Kind.ofLead = some x.kind := by
  cases x with
  | register r => cases r <;> decide
  | var v =>
    rw [text, v.head?_token]
    rfl
  | label l =>
    rw [text, l.head?_name]
    rfl
  | literal x =>
    cases x with
    | float x => exact absurd trivial hx
    | int i =>
      rw [text, Literal.text, Text.Numeral.ofInt]
      split_ifs
      · rw [String.toList_append]
        rfl
      · obtain ⟨c, rest, hdigits⟩ := List.exists_cons_of_ne_nil (Text.Numeral.digits_ne_nil i.natAbs)
        have hc : Text.Numeral.IsDigit c := Text.Numeral.isDigit_of_mem_digits c (hdigits ▸ List.mem_cons_self)
        rw [Text.Numeral.ofNat, String.toList_ofList, hdigits]
        exact congrArg some (Kind.ofLead_digit hc)

theorem kind_eq_of_text_eq (hx : ¬x.IsFloat) (hy : ¬y.IsFloat) (h : x.text = y.text) : x.kind = y.kind := by
  have hkind := ofLead_head? hx
  rw [h, ofLead_head? hy] at hkind
  exact (Option.some.inj hkind).symm

/-- Two operands that are no floats are written alike if and only if they are the same. -/
theorem text_eq_iff (hx : ¬x.IsFloat) (hy : ¬y.IsFloat) : x.text = y.text ↔ x.same y := by
  by_cases hkind : x.kind = y.kind
  · cases x with
    | register r =>
      cases y with
      | register q => exact Register.name_injective.eq_iff.trans beq_iff_eq.symm
      | var | label | literal => cases hkind
    | var v =>
      cases y with
      | var w => exact Variable.token_inj.trans Variable.beq_iff.symm
      | register | label | literal => cases hkind
    | label l =>
      cases y with
      | label m => exact Label.name_inj.trans Label.beq_iff.symm
      | register | var | literal => cases hkind
    | literal a =>
      cases y with
      | literal b =>
        cases a with
        | float a => exact absurd trivial hx
        | int i =>
          cases b with
          | float b => exact absurd trivial hy
          | int j => exact Text.Numeral.ofInt_injective.eq_iff.trans beq_iff_eq.symm
      | register | var | label => cases hkind
  · refine iff_of_false (fun h => hkind (kind_eq_of_text_eq hx hy h)) ?_
    cases x <;> cases y <;> first | exact absurd rfl hkind | exact Bool.false_ne_true

theorem sameAll_iff {xs : List Operand} : ∀ {ys}, sameAll xs ys ↔ List.Forall₂ (fun x y => x.same y) xs ys := by
  induction xs with
  | nil => intro ys; cases ys <;> simp [sameAll]
  | cons x xs ih => intro ys; cases ys <;> simp [sameAll, ih]

end Operand

namespace Text

/-- A character that does not structure lines. -/
def isPlain (c : Char) : Bool := c != ' ' && c != ',' && c != ':' && c != ';'

theorem isPlain_of_isDigit {c : Char} (hc : Numeral.IsDigit c) : isPlain c := by
  simp only [isPlain, Bool.and_eq_true, bne_iff_ne]
  exact ⟨⟨⟨hc.ne (by decide), hc.ne (by decide)⟩, hc.ne (by decide)⟩, hc.ne (by decide)⟩

theorem all_isPlain_ofNat (n : Nat) : (Numeral.ofNat n).toList.all isPlain := by
  rw [Numeral.ofNat, String.toList_ofList, List.all_eq_true]
  exact fun c hc => isPlain_of_isDigit (Numeral.isDigit_of_mem_digits c hc)

end Text

open Text (isPlain all_isPlain_ofNat)

theorem Label.all_isPlain_name (l : Label) : l.name.toList.all isPlain := by
  rw [name, String.toList_append, List.all_append, all_isPlain_ofNat]
  rfl

theorem Mnemonic.all_isPlain_name (m : Mnemonic) : m.name.toList.all isPlain := by
  cases m <;> rfl

theorem Operand.all_isPlain_text {x : Operand} (hx : ¬x.IsFloat) : x.text.toList.all isPlain := by
  cases x with
  | register r => cases r <;> rfl
  | var v =>
    rw [text, Variable.token, Variable.symbol]
    simp only [String.toList_append, List.all_append, all_isPlain_ofNat]
    rfl
  | label l => exact l.all_isPlain_name
  | literal a =>
    cases a with
    | float a => exact absurd trivial hx
    | int i =>
      rw [text, Literal.text, Text.Numeral.ofInt]
      split_ifs
      · rw [String.toList_append, List.all_append, all_isPlain_ofNat]
        rfl
      · exact all_isPlain_ofNat _

/-- The characters that structure lines do not stand in a plain text. -/
theorem not_mem_of_all_isPlain {cs : List Char} (h : cs.all isPlain) {c : Char} (hc : isPlain c = false) : c ∉ cs := by
  intro hm
  rw [List.all_eq_true.1 h c hm] at hc
  cases hc

namespace Instruction

/-- The text without the semicolon. -/
def line (i : Instruction) : List Char :=
  match i.operands with
  | [] => i.opcode.toList
  | operands => i.opcode.toList ++ ' ' :: [',', ' '].intercalate (operands.map fun x => x.text.toList)

variable {i j : Instruction}

theorem toList_text (i : Instruction) : i.text.toList = i.line ++ [';'] := by
  unfold text line
  cases i.operands with
  | nil => rw [String.toList_append]; rfl
  | cons x xs =>
    simp only [String.toList_append, String.toList_intercalate, List.map_map, Function.comp_def]
    simp

theorem same_iff : i.same j ↔
    i.opcode = j.opcode ∧ List.Forall₂ (fun x y => x.same y) i.operands j.operands ∧ i.implicit = j.implicit := by
  rw [same, Bool.and_eq_true, Bool.and_eq_true, beq_iff_eq, beq_iff_eq, Operand.sameAll_iff, and_assoc]

theorem BuiltIn.all_isPlain_opcode (h : i.BuiltIn) : i.opcode.toList.all isPlain := by
  obtain ⟨m, hm, -⟩ := h.spec
  rw [hm]
  exact m.all_isPlain_name

theorem BuiltIn.not_mem_operand (h : i.BuiltIn) {c : Char} (hc : isPlain c = false) :
    ∀ t ∈ i.operands.map fun x => x.text.toList, c ∉ t := by
  obtain ⟨m, -, -, hfloat⟩ := h.spec
  rw [List.forall_mem_map]
  exact fun x hx => not_mem_of_all_isPlain (Operand.all_isPlain_text (hfloat x hx)) hc

theorem line_of_nil (h : i.operands = []) : i.line = i.opcode.toList := by
  unfold line
  rw [h]

theorem line_of_ne_nil (h : i.operands ≠ []) :
    i.line = i.opcode.toList ++ ' ' :: [',', ' '].intercalate (i.operands.map fun x => x.text.toList) := by
  unfold line
  split
  · exact absurd ‹_› h
  · rfl

theorem BuiltIn.blank_not_mem_opcode (h : i.BuiltIn) : ' ' ∉ i.opcode.toList :=
  not_mem_of_all_isPlain h.all_isPlain_opcode rfl

theorem BuiltIn.blank_mem_line_iff (h : i.BuiltIn) : ' ' ∈ i.line ↔ i.operands ≠ [] := by
  by_cases hnil : i.operands = []
  · rw [line_of_nil hnil]
    exact iff_of_false h.blank_not_mem_opcode (not_not.2 hnil)
  · rw [line_of_ne_nil hnil]
    exact iff_of_true (List.mem_append_right _ List.mem_cons_self) hnil

theorem map_text_eq_iff (hi : i.BuiltIn) (hj : j.BuiltIn) :
    i.operands.map (fun x => x.text.toList) = j.operands.map (fun x => x.text.toList) ↔
      List.Forall₂ (fun x y => x.same y) i.operands j.operands := by
  obtain ⟨_, -, -, hfloat⟩ := hi.spec
  obtain ⟨_, -, -, hfloat'⟩ := hj.spec
  refine map_eq_map_iff_forall₂ (fun x y hx hy => ?_) hfloat hfloat'
  rw [String.toList_inj, Operand.text_eq_iff hx hy]

/-- Lines of built-in instructions are equal if and only if the instructions are the same. -/
theorem line_eq_iff (hi : i.BuiltIn) (hj : j.BuiltIn) : i.line = j.line ↔ i.same j := by
  have himplicit := hi.implicit_eq hj
  rw [same_iff, ← map_text_eq_iff hi hj]
  by_cases h : i.operands = [] ↔ j.operands = []
  · by_cases hnil : i.operands = []
    · rw [line_of_nil hnil, line_of_nil (h.1 hnil), hnil, h.1 hnil, String.toList_inj]
      tauto
    · have hnil' : j.operands ≠ [] := fun h' => hnil (h.2 h')
      rw [line_of_ne_nil hnil, line_of_ne_nil hnil',
        Text.append_cons_inj hi.blank_not_mem_opcode hj.blank_not_mem_opcode, String.toList_inj,
        Text.intercalate_inj (by decide) (hi.not_mem_operand rfl) (hj.not_mem_operand rfl) (by simpa) (by simpa)]
      tauto
  · refine iff_of_false (fun hline => ?_) (fun hsame => ?_)
    · have hblank := hi.blank_mem_line_iff
      rw [hline, hj.blank_mem_line_iff] at hblank
      tauto
    · have hlength := congrArg List.length hsame.2.1
      rw [List.length_map, List.length_map] at hlength
      rw [← List.length_eq_zero_iff, ← List.length_eq_zero_iff, hlength] at h
      exact h Iff.rfl

/-- Of the characters that structure lines, only blanks and commas stand in one. -/
theorem BuiltIn.not_mem_line (h : i.BuiltIn) {c : Char} (hc : c = ':' ∨ c = ';') : c ∉ i.line := by
  have hspecial : isPlain c = false ∧ c ≠ ' ' ∧ c ≠ ',' := by rcases hc with rfl | rfl <;> decide
  obtain ⟨hplain, hblank, hcomma⟩ := hspecial
  have hopcode : c ∉ i.opcode.toList := not_mem_of_all_isPlain h.all_isPlain_opcode hplain
  have hoperands : c ∉ [',', ' '].intercalate (i.operands.map fun x => x.text.toList) :=
    Text.not_mem_intercalate (by simp [hblank, hcomma]) (h.not_mem_operand hplain)
  by_cases hnil : i.operands = []
  · rw [line_of_nil hnil]
    exact hopcode
  · rw [line_of_ne_nil hnil, List.mem_append, List.mem_cons, not_or, not_or]
    exact ⟨hopcode, hblank, hoperands⟩

theorem not_mem_map_line {is : List Instruction} (h : ∀ i ∈ is, i.BuiltIn) {c : Char} (hc : c = ':' ∨ c = ';') :
    ∀ t ∈ is.map line, c ∉ t := by
  rw [List.forall_mem_map]
  exact fun i hi => (h i hi).not_mem_line hc

theorem toList_join_text (is : List Instruction) :
    (String.join (is.map text)).toList = Text.terminated ';' (is.map line) := by
  rw [String.toList_join, Text.terminated, List.flatMap_map, List.flatMap_map]
  exact List.flatMap_congr fun i _ => i.toList_text

end Instruction

namespace Label

open Text (terminated Headed)

/-- The label comes from a construction, and the instructions in it are built in. -/
def BuiltIn (l : Label) : Prop :=
  (∃ (h h' : Handles) (body : List Instruction), h.label body = (h', .ok l)) ∧ ∀ i ∈ l.body, i.BuiltIn

/-- The text of a label, cut at the semicolons. -/
def lines (l : Label) : List (List Char) :=
  match l.body with
  | [] => []
  | i :: body => (l.name.toList ++ ':' :: ' ' :: i.line) :: body.map Instruction.line

variable {l m : Label}

theorem BuiltIn.body_ne_nil (h : l.BuiltIn) : l.body ≠ [] := by
  obtain ⟨⟨h, h', body, hl⟩, -⟩ := h
  unfold Handles.label at hl
  split_ifs at hl with hempty
  · cases hl
  · cases hl
    exact fun hnil => hempty (List.isEmpty_iff.2 hnil)

theorem toList_text (h : l.body ≠ []) : l.text.toList = terminated ';' l.lines := by
  obtain ⟨i, body, hbody⟩ := List.exists_cons_of_ne_nil h
  rw [text, lines, hbody, String.toList_append, String.toList_append, Instruction.toList_join_text, List.map_cons,
    Text.terminated_cons, Text.terminated_cons]
  simp

theorem not_mem_name (l : Label) {c : Char} (hc : isPlain c = false) : c ∉ l.name.toList :=
  not_mem_of_all_isPlain l.all_isPlain_name hc

/-- The lines of two labels are equal if and only if the labels have one handle and the same instructions. -/
theorem lines_eq_iff (hl : l.BuiltIn) (hm : m.BuiltIn) :
    l.lines = m.lines ↔ l.handle = m.handle ∧ List.Forall₂ (fun i j => i.same j) l.body m.body := by
  have hbody : l.body.map Instruction.line = m.body.map Instruction.line ↔
      List.Forall₂ (fun i j => i.same j) l.body m.body :=
    map_eq_map_iff_forall₂ (fun _ _ => Instruction.line_eq_iff) hl.2 hm.2
  rw [← hbody, ← name_inj, ← String.toList_inj]
  obtain ⟨i, is, his⟩ := List.exists_cons_of_ne_nil hl.body_ne_nil
  obtain ⟨j, js, hjs⟩ := List.exists_cons_of_ne_nil hm.body_ne_nil
  rw [lines, lines, his, hjs]
  have hcolon : isPlain ':' = false := rfl
  simp only [List.map_cons, List.cons.injEq, Text.append_cons_inj (l.not_mem_name hcolon) (m.not_mem_name hcolon),
    true_and]
  tauto

theorem BuiltIn.headed_lines (h : l.BuiltIn) : Headed (':' ∈ ·) l.lines := by
  obtain ⟨i, is, his⟩ := List.exists_cons_of_ne_nil h.body_ne_nil
  obtain ⟨-, his'⟩ := List.forall_mem_cons.1 (his ▸ h.2)
  exact ⟨_, is.map Instruction.line, by rw [lines, his], by simp, Instruction.not_mem_map_line his' (.inl rfl)⟩

theorem BuiltIn.not_mem_lines (h : l.BuiltIn) : ∀ t ∈ l.lines, ';' ∉ t := by
  obtain ⟨i, is, his⟩ := List.exists_cons_of_ne_nil h.body_ne_nil
  obtain ⟨hi, his'⟩ := List.forall_mem_cons.1 (his ▸ h.2)
  have hname : ';' ∉ l.name.toList := l.not_mem_name rfl
  have hline : ';' ∉ i.line := hi.not_mem_line (.inr rfl)
  rw [lines, his, List.forall_mem_cons]
  exact ⟨by simp [hname, hline], Instruction.not_mem_map_line his' (.inr rfl)⟩

end Label

section Assembly

variable {b b' : List Instruction} {ls ls' : List Label}

theorem toList_assembly (hl : ∀ l ∈ ls, l.BuiltIn) :
    (String.join (b.map Instruction.text) ++ String.join (ls.map Label.text)).toList =
      Text.terminated ';' (b.map Instruction.line ++ (ls.map Label.lines).flatten) := by
  have hlabels : (String.join (ls.map Label.text)).toList = Text.terminated ';' (ls.flatMap Label.lines) := by
    rw [String.toList_join, List.flatMap_map, Text.terminated, List.flatMap_assoc]
    exact List.flatMap_congr fun l h => Label.toList_text (hl l h).body_ne_nil
  rw [String.toList_append, Instruction.toList_join_text, hlabels, ← List.flatMap_def]
  exact List.flatMap_append.symm

theorem semicolon_not_mem_lines (hb : ∀ i ∈ b, i.BuiltIn) (hl : ∀ l ∈ ls, l.BuiltIn) :
    ∀ t ∈ b.map Instruction.line ++ (ls.map Label.lines).flatten, ';' ∉ t := by
  rw [List.forall_mem_append, ← List.flatMap_def]
  refine ⟨Instruction.not_mem_map_line hb (.inr rfl), fun t ht => ?_⟩
  obtain ⟨l, hmem, ht⟩ := List.mem_flatMap.1 ht
  exact (hl l hmem).not_mem_lines t ht

theorem headed_map_lines (hl : ∀ l ∈ ls, l.BuiltIn) : ∀ ts ∈ ls.map Label.lines, Text.Headed (':' ∈ ·) ts := by
  rw [List.forall_mem_map]
  exact fun l h => (hl l h).headed_lines

/-- A text of built-in instructions with labels behind them is that of other instructions and labels if and only if
the instructions and the labels are the same, one by one. -/
theorem assembly_inj (hb : ∀ i ∈ b, i.BuiltIn) (hb' : ∀ i ∈ b', i.BuiltIn) (hl : ∀ l ∈ ls, l.BuiltIn)
    (hl' : ∀ l ∈ ls', l.BuiltIn) :
    String.join (b.map Instruction.text) ++ String.join (ls.map Label.text) =
        String.join (b'.map Instruction.text) ++ String.join (ls'.map Label.text) ↔
      List.Forall₂ (fun i j => i.same j) b b' ∧
        List.Forall₂ (fun l m => l.handle = m.handle ∧ List.Forall₂ (fun i j => i.same j) l.body m.body) ls ls' := by
  have hcolon := Instruction.not_mem_map_line hb (c := ':') (.inl rfl)
  have hcolon' := Instruction.not_mem_map_line hb' (c := ':') (.inl rfl)
  have hheaded := headed_map_lines hl
  have hheaded' := headed_map_lines hl'
  -- cut at the semicolons, then before the first colon, then before the others
  rw [← String.toList_inj, toList_assembly hl, toList_assembly hl',
    Text.terminated_inj (semicolon_not_mem_lines hb hl) (semicolon_not_mem_lines hb' hl'),
    Text.append_inj_of_head hcolon hcolon' (Text.head?_flatten_of_headed hheaded)
      (Text.head?_flatten_of_headed hheaded'),
    Text.flatten_inj hheaded hheaded']
  refine and_congr ?_ ?_
  · exact map_eq_map_iff_forall₂ (fun _ _ => Instruction.line_eq_iff) hb hb'
  · exact map_eq_map_iff_forall₂ (fun _ _ => Label.lines_eq_iff) hl hl'

end Assembly

def leaving : Label := ⟨1, [⟨"nop", [], []⟩]⟩

/-- A loop over a variable, whose type does not show in the text. -/
def looping (t : CType) : Label :=
  ⟨2, [⟨"sub", [.var ⟨1, .scalar t, none, []⟩, .literal (.int (-7))], []⟩, ⟨"jne", [.label leaving], []⟩]⟩

theorem builtIn_leaving : leaving.BuiltIn :=
  ⟨⟨{}, ⟨0, 1⟩, leaving.body, rfl⟩, List.forall_mem_singleton.2 ⟨.nop, [], rfl⟩⟩

theorem builtIn_looping (t : CType) : (looping t).BuiltIn := by
  refine ⟨⟨⟨1, 1⟩, ⟨1, 2⟩, (looping t).body, rfl⟩, List.forall_mem_cons.2 ⟨?_, List.forall_mem_singleton.2 ?_⟩⟩
  · exact ⟨.sub, [.var ⟨1, .scalar t, none, []⟩, .literal (.int (-7))], rfl⟩
  · exact ⟨.jne, [.label leaving], rfl⟩

/-- Variables with one handle are the same, whatever their types are. With a label less the text is another. -/
theorem assembly_inj_looping :
    String.join (leaving.body.map Instruction.text) ++ String.join ([looping .int].map Label.text) =
        String.join (leaving.body.map Instruction.text) ++ String.join ([looping .char].map Label.text) ∧
      String.join (leaving.body.map Instruction.text) ++ String.join ([looping .int].map Label.text) ≠
        String.join (leaving.body.map Instruction.text) ++ String.join ([leaving, looping .int].map Label.text) := by
  have hone : ∀ t, ∀ l ∈ [looping t], l.BuiltIn := fun t => List.forall_mem_singleton.2 (builtIn_looping t)
  have htwo : ∀ l ∈ [leaving, looping .int], l.BuiltIn := List.forall_mem_cons.2 ⟨builtIn_leaving, hone .int⟩
  have hb := builtIn_leaving.2
  refine ⟨(assembly_inj hb hb (hone .int) (hone .char)).2 ?_, fun h => ?_⟩
  · exact ⟨.cons rfl .nil, .cons ⟨rfl, .cons rfl (.cons rfl .nil)⟩ .nil⟩
  · have hlength := ((assembly_inj hb hb (hone .int) htwo).1 h).2.length_eq
    exact absurd hlength (by decide)

end InlineAsm
