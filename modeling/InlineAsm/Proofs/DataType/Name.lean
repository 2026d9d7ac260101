import InlineAsm.DataType.Name
import InlineAsm.Proofs.DataType.Check
import InlineAsm.Proofs.Text.Blank
import InlineAsm.Proofs.Text.Delimited
import InlineAsm.Proofs.Text.Numeral
import InlineAsm.Proofs.Text.Pattern
import Mathlib.Algebra.Group.Nat.Defs

/-! The grammar of the names of types, and that reading accepts exactly what it derives. A name is one of the spellings
of a scalar type, with any spaces between its words, followed by brackets; blanks may stand at the front and on both
sides of each bracket. All other texts are refused as the value of an argument. -/

namespace InlineAsm

open Text (Blanks isBlank)
open Text.Numeral (IsDigit valueFrom)

def IsSmall (c : Char) : Prop := 'a' ≤ c ∧ c ≤ 'z'

/-- The words of a text in which only spaces separate. -/
def spacedWords (cs : List Char) : List (List Char) := (cs.splitOn ' ').filter fun w => !w.isEmpty

namespace CType

def spellings : CType → List String
  | short => ["short", "short int"]
  | int => ["int"]
  | long => ["long", "long int"]
  | longLong => ["long long", "long long int"]
  | unsignedShort => ["unsigned short", "unsigned short int"]
  | unsignedInt => ["unsigned int", "unsigned"]
  | unsignedLong => ["unsigned long", "unsigned long int"]
  | unsignedLongLong => ["unsigned long long", "unsigned long long int"]
  | float => ["float"]
  | double => ["double"]
  | char => ["char"]

/-- A text of small letters and spaces, beginning with a letter, whose words spell the type. -/
structure SpelledBy (t : CType) (cs : List Char) : Prop where
  letters : ∃ c rest, cs = c :: rest ∧ IsSmall c ∧ ∀ d ∈ rest, IsSmall d ∨ d = ' '
  spelling : String.ofList ([' '].intercalate (spacedWords cs)) ∈ t.spellings

end CType

namespace DataType

/-- The text in a bracket, between blanks: nothing, or a positive numeral that a machine word can hold. -/
inductive SizeText : List Char → Option Nat → Prop
  | empty : SizeText [] none
  | numeral {ds : List Char} : ds ≠ [] → (∀ c ∈ ds, IsDigit c) → 1 ≤ valueFrom 0 ds → valueFrom 0 ds ≤ 2 ^ 64 - 1 →
      SizeText ds (some (valueFrom 0 ds))

inductive Brackets : List Char → List (Option Nat) → Prop
  | nil : Brackets [] []
  | cons {before ds after behind rest : List Char} {size : Option Nat} {sizes : List (Option Nat)} :
      Blanks before → SizeText ds size → Blanks after → Blanks behind → Brackets rest sizes →
      Brackets ('[' :: (before ++ ds ++ after) ++ ']' :: (behind ++ rest)) (size :: sizes)

/-- `cs` is a name of `d`. -/
def NamedBy (d : DataType) (cs : List Char) : Prop :=
  ∃ before scalarName after brackets, cs = before ++ scalarName ++ after ++ brackets ∧
    Blanks before ∧ d.element.SpelledBy scalarName ∧ Blanks after ∧ Brackets brackets d.dims

end DataType

namespace CType

theorem name_injective {t u : CType} (h : t.name = u.name) : t = u := by
  revert h
  cases t <;> cases u <;> decide

theorem name_mem_spellings (t : CType) : t.name ∈ t.spellings := by cases t <;> decide

theorem find?_name_iff {t : CType} {s : String} : (all.find? fun u => u.name == s) = some t ↔ t.name = s := by
  refine ⟨?_, ?_⟩
  · intro h
    have hname := List.find?_some h
    exact beq_iff_eq.1 hname
  · intro h
    subst h
    cases t <;> rfl

theorem name_eq_canonicalName_iff {t : CType} {s : String} : t.name = canonicalName s ↔ s ∈ t.spellings := by
  unfold canonicalName
  split
  case h_8 => cases t <;> simp_all [name, spellings, eq_comm]
  all_goals cases t <;> simp [name, spellings]

theorem ofName?_eq_some_iff {t : CType} {cs : List Char} :
    ofName? (String.ofList cs) = some t ↔ String.ofList ([' '].intercalate (Text.words cs)) ∈ t.spellings := by
  unfold ofName?
  rw [String.toList_ofList, find?_name_iff, name_eq_canonicalName_iff]

end CType

theorem Text.words_eq_spacedWords {cs : List Char} (h : ∀ c ∈ cs, isBlank c ↔ c = ' ') : words cs = spacedWords cs := by
  have hsplit : cs.splitOnP isBlank = cs.splitOnP (· == ' ') := by
    induction cs with
    | nil => rfl
    | cons c cs ih =>
      obtain ⟨hc, hcs⟩ := List.forall_mem_cons.1 h
      have hc' : isBlank c = (c == ' ') := by rw [Bool.eq_iff_iff, hc, beq_iff_eq]
      rw [List.splitOnP_cons_eq_if_modifyHead, List.splitOnP_cons_eq_if_modifyHead, ih hcs, hc']
  rw [words, hsplit]
  rfl

theorem IsSmall.not_isBlank {c : Char} (h : IsSmall c) : ¬isBlank c := by
  have hl : '!' ≤ 'a' := by decide
  have hu : 'z' ≤ '~' := by decide
  exact Text.not_isBlank_of_visible (Char.le_trans hl h.1) (Char.le_trans h.2 hu)

theorem Text.Numeral.IsDigit.isDecimalDigit {c : Char} (h : IsDigit c) : isDecimalDigit c := by
  have hl : 0x30 ≤ c.toNat := h.1
  have hu : c.toNat ≤ 0x39 := h.2
  refine List.any_eq_true.2 ⟨0x30, List.mem_cons_self, ?_⟩
  rw [Bool.and_eq_true, decide_eq_true_eq, decide_eq_true_eq]
  omega

namespace DataType

/-- Small letters and spaces, beginning with a letter. -/
def isScalarName : List Char → Bool
  | [] => false
  | c :: rest => isSmall c && rest.all fun d => isSmall d || d == ' '
where
  isSmall (c : Char) : Bool := 'a' ≤ c && c ≤ 'z'

theorem isScalarName_iff {cs : List Char} :
    isScalarName cs ↔ ∃ c rest, cs = c :: rest ∧ IsSmall c ∧ ∀ d ∈ rest, IsSmall d ∨ d = ' ' := by
  cases cs with
  | nil => simp [isScalarName]
  | cons c rest => simp [isScalarName, isScalarName.isSmall, IsSmall]

theorem isScalarName_of_mem_spellings {t : CType} {s : String} (h : s ∈ t.spellings) : isScalarName s.toList := by
  have hall : ∀ s ∈ t.spellings, isScalarName s.toList := by cases t <;> decide
  exact hall s h

theorem not_mem_spelling {t : CType} {s : String} (h : s ∈ t.spellings) {c : Char} (hsmall : ¬IsSmall c)
    (hspace : c ≠ ' ') : c ∉ s.toList := by
  obtain ⟨d, rest, hs, hd, hrest⟩ := isScalarName_iff.1 (isScalarName_of_mem_spellings h)
  rw [hs, List.mem_cons, not_or]
  exact ⟨fun he => hsmall (he ▸ hd), fun hc => (hrest c hc).elim hsmall hspace⟩

theorem readNatural_eq_ok_iff {ds : List Char} {m : Nat} (hne : ds ≠ []) (hds : ds.all Text.isDecimalDigit) :
    Text.Numeral.readNatural (NativeType.wordLimit - 1) ds = .ok m ↔
      (∀ c ∈ ds, IsDigit c) ∧ m = valueFrom 0 ds ∧ m ≤ 2 ^ 64 - 1 := by
  have hplus : '+' ∉ ds := fun h => absurd (List.all_eq_true.1 hds '+' h) (by decide)
  exact Text.Numeral.readNatural_eq_ok_iff hne hplus

/-- What the bracket's text gives is read from its digits, and a size of zero is refused later. -/
theorem sizeText_iff {ds : List Char} {n : Option Nat} :
    SizeText ds n ↔ ds.all Text.isDecimalDigit ∧ size ds = .ok n ∧ n ≠ some 0 := by
  by_cases hne : ds = []
  · subst hne
    refine ⟨?_, ?_⟩
    · intro h
      cases h with
      | empty => exact ⟨rfl, rfl, nofun⟩
      | numeral h => exact absurd rfl h
    · intro h
      obtain ⟨-, h, -⟩ := h
      cases h
      exact .empty
  · refine ⟨?_, ?_⟩
    · intro h
      cases h with
      | empty => exact absurd rfl hne
      | numeral _ hds hpos hle =>
        have hdec : ds.all Text.isDecimalDigit := List.all_eq_true.2 fun c hc => (hds c hc).isDecimalDigit
        have hread := (readNatural_eq_ok_iff hne hdec).2 ⟨hds, rfl, hle⟩
        refine ⟨hdec, ?_, fun h0 => ?_⟩
        · rw [size, if_neg (by simpa using hne), hread]
        · rw [Option.some.inj h0] at hpos
          exact absurd hpos (by decide)
    · intro h
      obtain ⟨hdec, h, h0⟩ := h
      rw [size, if_neg (by simpa using hne)] at h
      split at h
      case h_1 m hread =>
        obtain ⟨hds, rfl, hle⟩ := (readNatural_eq_ok_iff hne hdec).1 hread
        cases h
        refine .numeral hne hds (Nat.one_le_iff_ne_zero.2 fun hm => h0 ?_) hle
        rw [hm]
      case h_2 => cases h

theorem blank_iff_of_letters {cs : List Char}
    (h : ∃ c rest, cs = c :: rest ∧ IsSmall c ∧ ∀ d ∈ rest, IsSmall d ∨ d = ' ') : ∀ c ∈ cs, isBlank c ↔ c = ' ' := by
  obtain ⟨c, rest, rfl, hc, hrest⟩ := h
  intro d hd
  have hd : IsSmall d ∨ d = ' ' := by
    rcases List.mem_cons.1 hd with rfl | hd
    · exact .inl hc
    · exact hrest d hd
  refine ⟨fun h => hd.resolve_left fun hs => hs.not_isBlank h, ?_⟩
  intro he
  rw [he]
  decide

/-- No decimal digit of any script is blank. -/
theorem not_isBlank_of_isDecimalDigit {c : Char} (h : Text.isDecimalDigit c) : ¬isBlank c := by
  obtain ⟨start, hstart, hc⟩ := List.any_eq_true.1 h
  rw [Bool.and_eq_true, decide_eq_true_eq, decide_eq_true_eq] at hc
  -- the runs of digits lie between those of the blanks
  have hruns : ∀ n ∈ Text.decimalZeros,
      (n = 0x30 ∨ 0x660 ≤ n) ∧ (n ≤ 0x1670 ∨ 0x1680 < n) ∧ (n ≤ 0x1FF0 ∨ 0x3000 < n) := by decide
  have hrun := hruns start hstart
  simp only [isBlank, Bool.or_eq_true, Bool.and_eq_true, decide_eq_true_eq, beq_iff_eq]
  omega

theorem closing_not_mem_inside {before ds after : List Char} (hbefore : Blanks before)
    (hds : ∀ c ∈ ds, Text.isDecimalDigit c) (hafter : Blanks after) : ']' ∉ '[' :: (before ++ ds ++ after) := by
  have hblank : ¬isBlank ']' := by decide
  have hdigit : ¬Text.isDecimalDigit ']' := by decide
  simp only [List.mem_cons, List.mem_append, not_or]
  exact ⟨by decide, ⟨fun h => hblank (hbefore _ h), fun h => hdigit (hds _ h)⟩, fun h => hblank (hafter _ h)⟩

/-- Brackets with digits in them, as the patterns take them. -/
inductive BracketText : List Char → List (List Char) → Prop
  | nil : BracketText [] []
  | cons {before ds after behind rest : List Char} {dss : List (List Char)} :
      Blanks before → (∀ c ∈ ds, Text.isDecimalDigit c) → Blanks after → Blanks behind → BracketText rest dss →
      BracketText ('[' :: (before ++ ds ++ after) ++ ']' :: (behind ++ rest)) (ds :: dss)

/-- The grammar adds to the patterns that each size can be read and is not zero. -/
theorem brackets_iff {cs : List Char} {sizes : List (Option Nat)} :
    Brackets cs sizes ↔ ∃ dss, BracketText cs dss ∧ List.Forall₂ (fun ds n => size ds = .ok n) dss sizes ∧
      ∀ n ∈ sizes, n ≠ some 0 := by
  refine ⟨?_, ?_⟩
  · intro h
    induction h with
    | nil => exact ⟨[], .nil, .nil, nofun⟩
    | cons hbefore hds hafter hbehind _ ih =>
      obtain ⟨dss, htext, hsizes, hpos⟩ := ih
      obtain ⟨hdec, hsize, hne⟩ := sizeText_iff.1 hds
      exact ⟨_, .cons hbefore (List.all_eq_true.1 hdec) hafter hbehind htext, .cons hsize hsizes,
        List.forall_mem_cons.2 ⟨hne, hpos⟩⟩
  · rintro ⟨dss, htext, hsizes, hpos⟩
    induction htext generalizing sizes with
    | nil =>
      cases hsizes
      exact .nil
    | cons hbefore hdec hafter hbehind _ ih =>
      obtain ⟨n, sizes, hsize, hrest, rfl⟩ := List.forall₂_cons_left_iff.1 hsizes
      obtain ⟨hne, hpos⟩ := List.forall_mem_cons.1 hpos
      exact .cons hbefore (sizeText_iff.2 ⟨List.all_eq_true.2 hdec, hsize, hne⟩) hafter hbehind (ih hrest hpos)

section Patterns

open Text.Pattern (Matches Groups Takes)
open Text.Pattern (matches_seq matches_one matches_start matches_finish matches_group takes_many_one)

variable {n : Nat} {cs rest : List Char} {g g' : Groups}

theorem takes_blanks (n : Nat) : Takes n blankRun Blanks := takes_many_one n true .blank

theorem takes_digits (n : Nat) : Takes n digitRun fun ds => ∀ c ∈ ds, Text.isDecimalDigit c :=
  takes_many_one n true .digit

theorem matches_single {c : Char} : Matches n (.one (.single c)) cs g rest g' ↔ cs = c :: rest ∧ g' = g := by
  rw [matches_one]
  constructor
  · rintro ⟨d, rfl, hd, rfl⟩
    exact ⟨by rw [eq_of_beq hd], rfl⟩
  · rintro ⟨rfl, rfl⟩
    exact ⟨c, rfl, beq_self_eq_true c, rfl⟩

theorem takes_scalarName (n : Nat) : Takes n scalarName fun name => isScalarName name := by
  intro cs g rest g'
  simp only [scalarName, matches_seq, matches_one, takes_many_one n _ _]
  constructor
  · rintro ⟨_, _, ⟨c, rfl, hc, rfl⟩, ⟨name, rfl, hname⟩, rfl⟩
    refine ⟨⟨c :: name, rfl, ?_⟩, rfl⟩
    rw [isScalarName, Bool.and_eq_true, List.all_eq_true]
    exact ⟨hc, hname⟩
  · rintro ⟨⟨name, rfl, hname⟩, rfl⟩
    cases name with
    | nil => cases hname
    | cons c name =>
      rw [isScalarName, Bool.and_eq_true, List.all_eq_true] at hname
      exact ⟨_, _, ⟨c, rfl, hname.1, rfl⟩, ⟨name, rfl, hname.2⟩, rfl⟩

theorem matches_bracket {q : Text.Pattern} :
    Matches n (bracket q) cs g rest g' ↔ ∃ before inner after, cs = '[' :: (before ++ inner) ∧ Blanks before ∧
      Matches n q inner g (after ++ ']' :: rest) g' ∧ Blanks after := by
  simp only [bracket, matches_seq, matches_single, takes_blanks n]
  constructor
  · rintro ⟨_, _, ⟨rfl, rfl⟩, inner, _, ⟨⟨before, rfl, hbefore⟩, rfl⟩, _, _, hq, _, _, ⟨⟨after, rfl, hafter⟩, rfl⟩,
      rfl, rfl⟩
    exact ⟨before, inner, after, rfl, hbefore, hq, hafter⟩
  · rintro ⟨before, inner, after, rfl, hbefore, hq, hafter⟩
    exact ⟨_, _, ⟨rfl, rfl⟩, inner, _, ⟨⟨before, rfl, hbefore⟩, rfl⟩, _, _, hq, _, _, ⟨⟨after, rfl, hafter⟩, rfl⟩,
      rfl, rfl⟩

/-- One bracket and the blanks behind it. -/
theorem matches_item :
    Matches n (.seq (bracket digitRun) blankRun) cs g rest g' ↔
      (∃ before ds after behind, cs = '[' :: (before ++ ds ++ after) ++ ']' :: (behind ++ rest) ∧ Blanks before ∧
        (∀ c ∈ ds, Text.isDecimalDigit c) ∧ Blanks after ∧ Blanks behind) ∧ g' = g := by
  simp only [matches_seq, matches_bracket, takes_digits n, takes_blanks n]
  constructor
  · rintro ⟨_, _, ⟨before, _, after, rfl, hbefore, ⟨⟨ds, rfl, hds⟩, rfl⟩, hafter⟩, ⟨behind, rfl, hbehind⟩, rfl⟩
    exact ⟨⟨before, ds, after, behind, by simp, hbefore, hds, hafter, hbehind⟩, rfl⟩
  · rintro ⟨⟨before, ds, after, behind, rfl, hbefore, hds, hafter, hbehind⟩, rfl⟩
    exact ⟨_, _, ⟨before, ds ++ (after ++ ']' :: (behind ++ rest)), after, by simp, hbefore, ⟨⟨ds, rfl, hds⟩, rfl⟩,
      hafter⟩, ⟨behind, rfl, hbehind⟩, rfl⟩

theorem takes_brackets (n : Nat) :
    Takes n (.many true (.seq (bracket digitRun) blankRun)) fun text => ∃ dss, BracketText text dss := by
  intro cs g rest g'
  constructor
  · intro h
    generalize hq : Text.Pattern.many true (.seq (bracket digitRun) blankRun) = q at h
    induction h with
    | start | finish | one | seq | group => cases hq
    | stop => exact ⟨⟨[], rfl, [], .nil⟩, rfl⟩
    | again hitem _ _ ih =>
      cases hq
      obtain ⟨⟨before, ds, after, behind, rfl, hbefore, hds, hafter, hbehind⟩, rfl⟩ := matches_item.1 hitem
      obtain ⟨⟨text, rfl, dss, htext⟩, rfl⟩ := ih rfl
      exact ⟨⟨_, by simp, _, .cons hbefore hds hafter hbehind htext⟩, rfl⟩
  · rintro ⟨⟨text, rfl, dss, htext⟩, rfl⟩
    induction htext with
    | nil => exact .stop
    | @cons before ds after behind text dss hbefore hds hafter hbehind _ ih =>
      refine .again (matches_item.2 ⟨⟨before, ds, after, behind, ?_, hbefore, hds, hafter, hbehind⟩, rfl⟩) ih
      simp

/-- The scalar's name and the brackets with their digits, as the patterns take a text apart. -/
def Parted (cs name brackets : List Char) (dss : List (List Char)) : Prop :=
  ∃ before after, cs = before ++ name ++ after ++ brackets ∧ Blanks before ∧ isScalarName name ∧ Blanks after ∧
    BracketText brackets dss

theorem matches_typeName :
    Matches cs.length typeName cs [] rest g ↔
      rest = [] ∧ ∃ name brackets dss, Parted cs name brackets dss ∧ g = [(2, brackets), (1, name)] := by
  simp only [typeName, matches_seq, matches_start, matches_finish, takes_blanks _,
    matches_group (takes_scalarName _), matches_group (takes_brackets _)]
  constructor
  · rintro ⟨_, _, ⟨-, rfl, rfl⟩, _, _, ⟨⟨before, rfl, hbefore⟩, rfl⟩, _, _, ⟨name, rfl, hname, rfl⟩, _, _,
      ⟨⟨after, rfl, hafter⟩, rfl⟩, _, _, ⟨brackets, rfl, ⟨dss, hdss⟩, rfl⟩, rfl, rfl, rfl⟩
    exact ⟨rfl, name, brackets, dss, ⟨before, after, by simp, hbefore, hname, hafter, hdss⟩, rfl⟩
  · rintro ⟨rfl, name, brackets, dss, ⟨before, after, rfl, hbefore, hname, hafter, hdss⟩, rfl⟩
    refine ⟨_, _, ⟨trivial, rfl, rfl⟩, name ++ (after ++ brackets), _, ⟨⟨before, by simp, hbefore⟩, rfl⟩, _, _,
      ⟨name, rfl, hname, rfl⟩, _, _, ⟨⟨after, rfl, hafter⟩, rfl⟩, [], _, ⟨brackets, ?_, ⟨dss, hdss⟩, rfl⟩, rfl,
      rfl, rfl⟩
    rw [List.append_nil]

/-- Since the pattern begins at the start of the text, it is found there or nowhere. -/
theorem exists_of_find? (h : typeName.find? cs = some g) :
    ∃ name brackets dss, Parted cs name brackets dss ∧ g = [(2, brackets), (1, name)] := by
  obtain ⟨⟨_, rest⟩, hsearch, rfl⟩ := Option.map_eq_some_iff.1 h
  obtain ⟨w, cs', rfl, hmatch⟩ := Text.Pattern.exists_of_search hsearch
  obtain ⟨_, _, hstart, -⟩ := matches_seq.1 hmatch
  have hlength := (matches_start.1 hstart).1
  obtain rfl : w = [] := List.length_eq_zero_iff.1 (by rw [List.length_append] at hlength; omega)
  exact (matches_typeName.1 hmatch).2

theorem exists_find? {name brackets : List Char} {dss : List (List Char)} (h : Parted cs name brackets dss) :
    ∃ g, typeName.find? cs = some g := by
  obtain ⟨g, rest, hsearch, -⟩ :=
    Text.Pattern.search_of_matches (by decide) (matches_typeName.2 ⟨rfl, name, brackets, dss, h, rfl⟩)
  exact ⟨g, congrArg (Option.map Prod.fst) hsearch⟩

/-- At the front of brackets the second pattern finds the first size. -/
theorem matches_dimension {before ds after : List Char} (hbefore : Blanks before)
    (hds : ∀ c ∈ ds, Text.isDecimalDigit c) (hafter : Blanks after) :
    Matches n dimension ('[' :: (before ++ ds ++ after) ++ ']' :: cs) [] rest g ↔ rest = cs ∧ g = [(1, ds)] := by
  simp only [dimension, matches_bracket, matches_group (takes_digits n)]
  constructor
  · rintro ⟨before', _, after', htext, hbefore', ⟨ds', rfl, hds', rfl⟩, hafter'⟩
    have htext : '[' :: (before ++ ds ++ after) ++ ']' :: cs = '[' :: (before' ++ ds' ++ after') ++ ']' :: rest := by
      rw [htext]
      simp
    have hclosing := closing_not_mem_inside hbefore hds hafter
    have hclosing' := closing_not_mem_inside hbefore' hds' hafter'
    rw [Text.append_cons_inj hclosing hclosing', List.cons.injEq] at htext
    obtain ⟨⟨-, hinside⟩, rfl⟩ := htext
    have htrim := congrArg Text.trim hinside
    rw [Text.trim_append hbefore hafter fun c hc => not_isBlank_of_isDecimalDigit (hds c hc),
      Text.trim_append hbefore' hafter' fun c hc => not_isBlank_of_isDecimalDigit (hds' c hc)] at htrim
    exact ⟨rfl, by rw [htrim]⟩
  · rintro ⟨rfl, rfl⟩
    exact ⟨before, _, after, by simp, hbefore, ⟨ds, rfl, hds, rfl⟩, hafter⟩

theorem search_dimension_blanks {w : List Char} (hw : Blanks w) (cs : List Char) :
    dimension.search n (w ++ cs) = dimension.search n cs := by
  induction w with
  | nil => rfl
  | cons c w ih =>
    obtain ⟨hc, hw⟩ := List.forall_mem_cons.1 hw
    rw [List.cons_append, Text.Pattern.search_cons_of_not_matches, ih hw]
    intro rest g h
    obtain ⟨before, inner, after, htext, -⟩ := matches_bracket.1 h
    rw [(List.cons.inj htext).1] at hc
    exact absurd hc (by decide)

theorem search_dimension_nil : dimension.search n [] = none := by
  refine Text.Pattern.front_eq_none fun rest g h => ?_
  obtain ⟨before, inner, after, htext, -⟩ := matches_bracket.1 h
  cases htext

/-- The matches of the second pattern are the brackets, one by one. -/
theorem searchAll_dimension {text : List Char} {dss : List (List Char)} (h : BracketText text dss) :
    ∀ {w : List Char}, Blanks w → ∀ m, (w ++ text).length ≤ m →
      (dimension.searchAll n m (w ++ text)).map (fun g => Text.Pattern.groupText g 1) = dss := by
  induction h with
  | nil =>
    intro w hw m _
    cases m with
    | zero => rfl
    | succ m =>
      rw [Text.Pattern.searchAll, search_dimension_blanks hw, search_dimension_nil]
      rfl
  | @cons before ds after behind text dss hbefore hds hafter hbehind _ ih =>
    intro w hw m hm
    obtain ⟨m, rfl⟩ : ∃ k, m = k + 1 := by
      refine ⟨m - 1, ?_⟩
      simp only [List.length_append, List.length_cons] at hm
      omega
    have hfound : Matches n dimension ('[' :: (before ++ ds ++ after) ++ ']' :: (behind ++ text)) [] (behind ++ text)
        [(1, ds)] := (matches_dimension hbefore hds hafter).2 ⟨rfl, rfl⟩
    obtain ⟨g, rest, hsearch, hmatch⟩ := Text.Pattern.search_of_matches (by decide) hfound
    obtain ⟨rfl, rfl⟩ := (matches_dimension hbefore hds hafter).1 hmatch
    rw [Text.Pattern.searchAll, search_dimension_blanks hw, hsearch]
    refine congrArg (ds :: ·) (ih hbehind m ?_)
    simp only [List.length_append, List.length_cons] at hm ⊢
    omega

theorem findAll_dimension {text : List Char} {dss : List (List Char)} (h : BracketText text dss) :
    (dimension.findAll text).map (fun g => Text.Pattern.groupText g 1) = dss :=
  searchAll_dimension h (w := []) nofun text.length le_rfl

end Patterns

theorem ne_zero_of_mem_dims {d : DataType} : ∀ n ∈ d.dims, n ≠ some 0 := by
  induction d with
  | scalar t => exact nofun
  | array inner size ih =>
    refine List.forall_mem_cons.2 ⟨?_, ih⟩
    cases size with
    | none => exact nofun
    | some n => exact fun h => absurd (Option.some.inj h) n.2.ne'

theorem scalarOfName_eq_ok_iff {t : CType} {cs : List Char} :
    scalarOfName (String.ofList cs) = .ok t ↔
      String.ofList ([' '].intercalate (Text.words cs)) ∈ t.spellings := by
  rw [← CType.ofName?_eq_some_iff, scalarOfName]
  cases CType.ofName? (String.ofList cs) with
  | none => simp
  | some u => simp

/-- The brackets begin where the first of them opens. -/
theorem Parted.cut {cs name brackets : List Char} {dss : List (List Char)} (h : Parted cs name brackets dss) :
    Text.words (cs.takeWhile (· != '[')) = Text.words name ∧ cs.dropWhile (· != '[') = brackets := by
  obtain ⟨before, after, rfl, hbefore, hname, hafter, hbrackets⟩ := h
  have hblank : ¬isBlank '[' := by decide
  have hletters : '[' ∉ name := by
    obtain ⟨c, rest, rfl, hc, hrest⟩ := isScalarName_iff.1 hname
    rw [List.mem_cons, not_or]
    refine ⟨fun he => absurd (he ▸ hc).1 (by decide), fun h => ?_⟩
    rcases hrest _ h with h | h
    · exact absurd h.1 (by decide)
    · exact absurd h (by decide)
  have hfront : ∀ c ∈ before ++ name ++ after, (c != '[') = true := by
    intro c hc
    rw [bne_iff_ne]
    rintro rfl
    simp only [List.mem_append] at hc
    rcases hc with (hc | hc) | hc
    · exact hblank (hbefore _ hc)
    · exact hletters hc
    · exact hblank (hafter _ hc)
  have hwords : Text.words (before ++ name ++ after) = Text.words name := by
    rw [Text.words_append hafter, Text.words_blanks_append hbefore]
  rw [List.takeWhile_append_of_pos hfront, List.dropWhile_append_of_pos hfront]
  cases hbrackets with
  | nil => exact ⟨(congrArg Text.words (List.append_nil _)).trans hwords, rfl⟩
  | cons => exact ⟨(congrArg Text.words (List.append_nil _)).trans hwords, rfl⟩

/-- Whichever way a text is taken apart, it gives the same words and sizes. -/
theorem Parted.unique {cs name name' brackets brackets' : List Char} {dss dss' : List (List Char)}
    (h : Parted cs name brackets dss) (h' : Parted cs name' brackets' dss') :
    Text.words name = Text.words name' ∧ brackets = brackets' ∧ dss = dss' := by
  obtain ⟨hwords, hbrackets⟩ := h.cut
  obtain ⟨hwords', hbrackets'⟩ := h'.cut
  obtain rfl := hbrackets.symm.trans hbrackets'
  obtain ⟨_, _, -, -, -, -, hdss⟩ := h
  obtain ⟨_, _, -, -, -, -, hdss'⟩ := h'
  exact ⟨hwords.symm.trans hwords', rfl, (findAll_dimension hdss).symm.trans (findAll_dimension hdss')⟩

theorem ofName_eq_ok_iff_parted {s : String} {d : DataType} :
    ofName s = .ok d ↔
      ∃ name brackets dss, Parted s.toList name brackets dss ∧ scalarOfName (String.ofList name) = .ok d.element ∧
        List.Forall₂ (fun ds n => size ds = .ok n) dss d.dims := by
  unfold ofName
  split
  case h_1 hnone =>
    refine iff_of_false nofun ?_
    rintro ⟨name, brackets, dss, hparted, -⟩
    obtain ⟨g, hg⟩ := exists_find? hparted
    cases hnone.symm.trans hg
  case h_2 groups hsome =>
    obtain ⟨name, brackets, dss, hparted, rfl⟩ := exists_of_find? hsome
    have hall : (dimension.findAll brackets).map (fun g => Text.Pattern.groupText g 1) = dss := by
      obtain ⟨_, _, -, -, -, -, hdss⟩ := hparted
      exact findAll_dimension hdss
    have hname : Text.Pattern.groupText [(2, brackets), (1, name)] 1 = name := rfl
    have hbrackets : Text.Pattern.groupText [(2, brackets), (1, name)] 2 = brackets := rfl
    simp only [hname, hbrackets, hall, bind_eq_ok, mapM_eq_ok, ofDims_eq_ok_iff]
    constructor
    · rintro ⟨t, ht, sizes, hsizes, rfl, rfl⟩
      exact ⟨name, brackets, dss, hparted, ht, hsizes⟩
    · rintro ⟨name', brackets', dss', hparted', ht, hsizes⟩
      obtain ⟨hwords, -, rfl⟩ := hparted'.unique hparted
      rw [scalarOfName_eq_ok_iff, hwords, ← scalarOfName_eq_ok_iff] at ht
      exact ⟨_, ht, _, hsizes, rfl, rfl⟩

theorem namedBy_of_ofName {s : String} {d : DataType} (h : ofName s = .ok d) : d.NamedBy s.toList := by
  obtain ⟨name, brackets, dss, ⟨before, after, htext, hbefore, hname, hafter, hdss⟩, ht, hsizes⟩ :=
    ofName_eq_ok_iff_parted.1 h
  have hletters := isScalarName_iff.1 hname
  have hspelling := scalarOfName_eq_ok_iff.1 ht
  rw [Text.words_eq_spacedWords (blank_iff_of_letters hletters)] at hspelling
  exact ⟨before, name, after, brackets, htext, hbefore, ⟨hletters, hspelling⟩, hafter,
    brackets_iff.2 ⟨dss, hdss, hsizes, ne_zero_of_mem_dims⟩⟩

theorem exists_trimmed {t : CType} {before scalarName after : List Char} (hbefore : Blanks before)
    (h : t.SpelledBy scalarName) (hafter : Blanks after) :
    ∃ trimmed, Text.trim (before ++ scalarName ++ after) = trimmed ∧ isScalarName trimmed ∧
      scalarOfName (String.ofList trimmed) = .ok t := by
  obtain ⟨hletters, hspelling⟩ := h
  obtain ⟨c, rest, rfl, hc, hrest⟩ := hletters
  obtain ⟨w, hw, hname⟩ := Text.exists_dropFinalBlanks (c :: rest)
  have htrim : Text.trim (before ++ c :: rest ++ after) = Text.dropFinalBlanks (c :: rest) := by
    rw [Text.trim, List.append_assoc, Text.dropBlanks_append hbefore, List.cons_append,
      Text.dropBlanks_cons hc.not_isBlank, ← List.cons_append, Text.dropFinalBlanks_append hafter]
  have hwords : Text.words (Text.dropFinalBlanks (c :: rest)) = spacedWords (c :: rest) := by
    rw [← Text.words_append hw, ← hname, Text.words_eq_spacedWords (blank_iff_of_letters ⟨c, rest, rfl, hc, hrest⟩)]
  refine ⟨_, htrim, isScalarName_iff.2 ?_, scalarOfName_eq_ok_iff.2 (hwords.symm ▸ hspelling)⟩
  cases htrimmed : Text.dropFinalBlanks (c :: rest) with
  | nil =>
    rw [htrimmed, List.nil_append] at hname
    exact absurd (hw c (hname ▸ List.mem_cons_self)) hc.not_isBlank
  | cons e more =>
    rw [htrimmed, List.cons_append] at hname
    obtain ⟨rfl, rfl⟩ := List.cons.inj hname
    exact ⟨c, more, rfl, hc, fun d hd => hrest d (List.mem_append_left w hd)⟩

theorem ofName_of_namedBy {s : String} {d : DataType} (h : d.NamedBy s.toList) : ofName s = .ok d := by
  obtain ⟨before, name, after, brackets, htext, hbefore, ⟨hletters, hspelling⟩, hafter, hbrackets⟩ := h
  obtain ⟨dss, hdss, hsizes, -⟩ := brackets_iff.1 hbrackets
  rw [← Text.words_eq_spacedWords (blank_iff_of_letters hletters)] at hspelling
  have hparted : Parted s.toList name brackets dss :=
    ⟨before, after, htext, hbefore, isScalarName_iff.2 hletters, hafter, hdss⟩
  exact ofName_eq_ok_iff_parted.2 ⟨name, brackets, dss, hparted, scalarOfName_eq_ok_iff.2 hspelling, hsizes⟩

theorem kind_of_wrap {inner : DataType} {n : Option Nat} {e : Error} (h : inner.wrap n = .error e) :
    e.kind = .argumentValue := by
  cases n with
  | none => cases h
  | some n =>
    rw [wrap] at h
    split_ifs at h
    cases h
    rfl

theorem kind_of_ofDims {t : CType} {sizes : List (Option Nat)} {e : Error} (h : ofDims t sizes = .error e) :
    e.kind = .argumentValue := by
  induction sizes with
  | nil => cases h
  | cons n sizes ih =>
    rw [ofDims, bind_eq_error] at h
    rcases h with h | ⟨_, -, h⟩
    · exact ih h
    · exact kind_of_wrap h

theorem kind_of_size {ds : List Char} {e : Error} (h : size ds = .error e) : e.kind = .argumentValue := by
  unfold size at h
  split_ifs at h
  split at h
  · cases h
  · cases h
    rfl

theorem kind_of_scalarOfName {s : String} {e : Error} (h : scalarOfName s = .error e) : e.kind = .argumentValue := by
  unfold scalarOfName at h
  split at h
  · cases h
  · cases h
    rfl

theorem kind_of_ofName {s : String} {e : Error} (h : ofName s = .error e) : e.kind = .argumentValue := by
  unfold ofName at h
  split at h
  · cases h
    rfl
  · simp only [bind_eq_error] at h
    rcases h with h | ⟨_, -, h | ⟨_, -, h⟩⟩
    · exact kind_of_scalarOfName h
    · obtain ⟨ds, -, h⟩ := exists_of_mapM_eq_error h
      exact kind_of_size h
    · exact kind_of_ofDims h

/-- The parser accepts exactly what the grammar derives, as the type that it derives, and refuses all else as the value
of an argument. -/
theorem ofName_eq_ok_iff_namedBy (s : String) :
    (∀ d, ofName s = .ok d ↔ d.NamedBy s.toList) ∧
      ((∃ d : DataType, d.NamedBy s.toList) ∨ ∃ e, ofName s = .error e ∧ e.kind = .argumentValue) := by
  refine ⟨fun d => ⟨namedBy_of_ofName, ofName_of_namedBy⟩, ?_⟩
  cases h : ofName s with
  | ok d => exact .inl ⟨d, namedBy_of_ofName h⟩
  | error e => exact .inr ⟨e, rfl, kind_of_ofName h⟩

end DataType

end InlineAsm
