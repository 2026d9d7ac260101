import InlineAsm.Proofs.DataType.Name
import InlineAsm.Proofs.DataType.Native
import InlineAsm.Proofs.Value.Json

/-! Names of types are read back. A name lists the axes from the outermost one inwards, while the reader builds the type
inside out; the brackets of the grammar stand between the two. The text of an axis is such a bracket if its size is
positive and a machine word can hold it, and all ways to build a type keep to that. -/

namespace InlineAsm

open NativeType (wordLimit)
open Text.Numeral (digits)

theorem CType.spelledBy_name (t : CType) : t.SpelledBy t.name.toList where
  letters := DataType.isScalarName_iff.1 (DataType.isScalarName_of_mem_spellings t.name_mem_spellings)
  spelling := by cases t <;> decide

namespace Value

/-- The lists in a value are no longer than a machine word can count, as lists in memory are. -/
def Countable (v : Value) : Prop := ∀ items, v.Contains (.list items) → items.length < wordLimit

theorem Countable.of_parts {v : Value} (hself : ∀ items, v = .list items → items.length < wordLimit)
    (hparts : ∀ x ∈ v.parts, x.Countable) : v.Countable := by
  intro items h
  rcases Relation.ReflTransGen.cases_head h with h | ⟨x, hx, h⟩
  · exact hself items h
  · exact hparts x hx items h

/-- As long as no axis is empty, there is a list on each. -/
theorem Shaped.exists_list {P : Value → Prop} : ∀ {dims : List Nat} {v : Value}, v.Shaped P dims → (∀ n ∈ dims, 0 < n) →
    ∀ n ∈ dims, ∃ items, v.Contains (.list items) ∧ items.length = n := by
  intro dims
  induction dims with
  | nil => exact fun _ _ _ hn => nomatch hn
  | cons m dims ih =>
    rintro _ ⟨items, rfl, rfl, hitems⟩ hpos n hn
    obtain ⟨hm, hpos⟩ := List.forall_mem_cons.1 hpos
    rcases List.mem_cons.1 hn with rfl | hn
    · exact ⟨items, .refl, rfl⟩
    · obtain ⟨x, hx⟩ := List.exists_mem_of_length_pos hm
      obtain ⟨inner, hinner, hlength⟩ := ih (hitems x hx) hpos n hn
      exact ⟨inner, .head hx hinner, hlength⟩

end Value

namespace DataType

/-- The types that can be built: scalars, types with one more axis around them, types that were read from a name, and
what a check answers for a value. Sizes and lengths are machine words. -/
inductive Built : DataType → Prop
  | scalar (t : CType) : Built (scalar t)
  | wrapped {inner d : DataType} {n : Option Nat} :
      Built inner → (∀ m ∈ n, m < wordLimit) → inner.wrap n = .ok d → Built d
  | named {s : String} {d : DataType} : ofName s = .ok d → Built d
  | checked {d d' : DataType} {v : Value} {ws : List RangeWarning} :
      Built d → v.Countable → d.check v = .ok (d', ws) → Built d'

/-- A size that is known is positive, and a machine word can hold it. -/
def Measured (n : Option Nat) : Prop := ∀ m ∈ n, 0 < m ∧ m < wordLimit

theorem measured_some {n : Nat} : Measured (some n) ↔ 0 < n ∧ n < wordLimit := by
  simp [Measured]

/-- The digits between the brackets of an axis. -/
def sizeDigits : Option Nat → List Char
  | none => []
  | some n => digits n

theorem toList_axisText (n : Option Nat) : (axisText n).toList = '[' :: (sizeDigits n ++ [']']) := by
  cases n with
  | none => rfl
  | some n => simp [axisText, sizeDigits, Text.Numeral.ofNat, String.toList_append]

theorem sizeText_sizeDigits {n : Option Nat} (h : Measured n) : SizeText (sizeDigits n) n := by
  cases n with
  | none => exact .empty
  | some n =>
    obtain ⟨hpos, hlt⟩ := measured_some.1 h
    have hvalue := Text.Numeral.valueFrom_digits n
    have htext := SizeText.numeral (Text.Numeral.digits_ne_nil n) Text.Numeral.isDigit_of_mem_digits
      (hvalue.symm ▸ hpos) (hvalue.symm ▸ Nat.le_pred_of_lt hlt)
    rwa [hvalue] at htext

theorem brackets_axesText {sizes : List (Option Nat)} (h : ∀ n ∈ sizes, Measured n) :
    Brackets ((sizes.map axisText).flatMap String.toList) sizes := by
  induction sizes with
  | nil => exact .nil
  | cons n sizes ih =>
    obtain ⟨hn, hsizes⟩ := List.forall_mem_cons.1 h
    have hb : Brackets
        ('[' :: ([] ++ sizeDigits n ++ []) ++ ']' :: ([] ++ (sizes.map axisText).flatMap String.toList)) (n :: sizes) :=
      .cons nofun (sizeText_sizeDigits hn) nofun nofun (ih hsizes)
    simpa [toList_axisText] using hb

variable {d : DataType}

theorem namedBy_name (h : ∀ n ∈ d.dims, Measured n) : d.NamedBy d.name.toList := by
  refine ⟨[], d.element.name.toList, [], _, ?_, nofun, d.element.spelledBy_name, nofun, brackets_axesText h⟩
  rw [name, axesText, String.toList_append, String.toList_join]
  simp

theorem measured_of_brackets {cs : List Char} {sizes : List (Option Nat)} (h : Brackets cs sizes) :
    ∀ n ∈ sizes, Measured n := by
  induction h with
  | nil => exact nofun
  | cons _ hsize _ _ _ ih =>
    refine List.forall_mem_cons.2 ⟨?_, ih⟩
    cases hsize with
    | empty => exact nofun
    | numeral _ _ hpos hle => exact measured_some.2 ⟨hpos, Nat.lt_succ_of_le hle⟩

theorem measured_of_wrap {inner : DataType} {n : Option Nat} (h : ∀ n ∈ inner.dims, Measured n)
    (hn : ∀ m ∈ n, m < wordLimit) (hd : inner.wrap n = .ok d) : ∀ n ∈ d.dims, Measured n := by
  obtain ⟨size, rfl, rfl⟩ := wrap_eq_ok_iff.1 hd
  refine List.forall_mem_cons.2 ⟨fun m hm => ⟨?_, hn m hm⟩, h⟩
  obtain ⟨k, -, rfl⟩ := Option.map_eq_some_iff.1 hm
  exact k.2

theorem measured_of_check {d' : DataType} {v : Value} {ws : List RangeWarning} (hv : v.Countable)
    (h : d.check v = .ok (d', ws)) : ∀ n ∈ d'.dims, Measured n := by
  obtain ⟨dims, -, hfits, rfl, -⟩ := check_eq_ok_iff.1 h
  rw [dims_ofSizes, List.forall_mem_map]
  intro n hn
  obtain ⟨items, hitems, rfl⟩ := hfits.exists_list pos_of_mem_sizes n hn
  exact measured_some.2 ⟨pos_of_mem_sizes _ hn, hv items hitems⟩

/-- Whatever way a type is built in, its known sizes are positive machine words. -/
theorem Built.measured (h : d.Built) : ∀ n ∈ d.dims, Measured n := by
  induction h with
  | scalar t => exact nofun
  | wrapped _ hn hd ih => exact measured_of_wrap ih hn hd
  | named hs =>
    obtain ⟨_, _, _, _, -, -, -, -, hbrackets⟩ := namedBy_of_ofName hs
    exact measured_of_brackets hbrackets
  | checked _ hv hd _ => exact measured_of_check hv hd

theorem Built.ofName_name (h : d.Built) : ofName d.name = .ok d := ofName_of_namedBy (namedBy_name h.measured)

theorem name_ofAxes (t : CType) (ns : List Nat) :
    (NativeType.ofAxes t ns).name = t.name ++ String.join ((ns.map some).map axisText) := by
  cases ns with
  | nil => exact String.append_empty.symm
  | cons n ns =>
    rw [List.map_map]
    rfl

/-- The native type is written like the declared one. -/
theorem exists_native_name (h : d.isResolved) : ∃ t, d.native = .ok t ∧ t.name = d.name := by
  obtain ⟨dims, hdims⟩ := exists_ofSizes h
  refine ⟨.ofAxes d.element (dims.map Subtype.val), ?_, ?_⟩
  · exact native_eq_ok_iff.2 (native?_eq_some_iff.2 ⟨dims, hdims, rfl⟩)
  · rw [name_ofAxes, name, axesText]
    conv_rhs => rw [hdims, element_ofSizes, dims_ofSizes]

/-- A type that can be built has positive sizes on its axes, is read back from its name, and shares the name with its
native type if no axis is open. So what any text is read as has a name that is read the same. -/
theorem built_roundtrip :
    (∀ d : DataType, d.Built →
      (d.isArray → d.dims ≠ []) ∧ (∀ n, some n ∈ d.dims → 0 < n ∧ n < wordLimit) ∧
        ofName d.name = .ok d ∧ (d.isResolved → ∃ t, d.native = .ok t ∧ t.name = d.name)) ∧
    ∀ s d, ofName s = .ok d → ofName d.name = .ok d := by
  refine ⟨fun d h => ⟨?_, ?_, h.ofName_name, exists_native_name⟩, fun s d h => (Built.named h).ofName_name⟩
  · intro harray
    cases d with
    | scalar t => cases harray
    | array inner size => exact List.cons_ne_nil _ _
  · exact fun n hn => measured_some.1 (h.measured _ hn)

/-- Two rows of three integers. -/
def intRows : DataType := array (array (scalar .int) (some ⟨3, Nat.succ_pos 2⟩)) (some ⟨2, Nat.succ_pos 1⟩)

theorem name_intRows : intRows.name = "int[2][3]" := by
  have haxis : ∀ n < 10, axisText (some n) = "[" ++ String.singleton (Nat.digitChar n) ++ "]" := by
    intro n hn
    rw [axisText, Text.Numeral.ofNat, digits, if_pos hn]
    rfl
  change "int" ++ String.join [axisText (some 2), axisText (some 3)] = _
  rw [haxis 2 (by decide), haxis 3 (by decide)]
  rfl

/-- The length of the rows comes from a value. -/
theorem built_intRows : intRows.Built := by
  have hint : ∀ i, (Value.int i).Countable := by
    intro i
    apply Value.Countable.of_parts
    · intro items h
      cases h
    · intro x hx
      cases hx
  have hcountable : (Value.list [.int 1, .int 2, .int 3]).Countable := by
    apply Value.Countable.of_parts
    · rintro items ⟨⟩
      decide
    · simp [Value.parts, hint]
  have hcheck : (array (scalar .int) none).check (.list [.int 1, .int 2, .int 3]) =
    .ok (array (scalar .int) (some ⟨3, Nat.succ_pos 2⟩), []) := rfl
  have hopen : (array (scalar .int) none).Built := .wrapped (.scalar .int) (n := none) (by simp) rfl
  apply Built.wrapped (.checked hopen hcountable hcheck) (n := some 2) _ rfl
  rintro m ⟨⟩
  decide

theorem built_roundtrip_intRows :
    ofName "int[2][3]" = .ok intRows ∧ ∃ t, intRows.native = .ok t ∧ t.name = "int[2][3]" := by
  obtain ⟨hbuilt, -⟩ := built_roundtrip
  obtain ⟨-, -, hread, hnative⟩ := hbuilt intRows built_intRows
  rw [name_intRows] at hread hnative
  exact ⟨hread, hnative rfl⟩

end DataType

end InlineAsm
