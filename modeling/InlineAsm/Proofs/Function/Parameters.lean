import InlineAsm.Proofs.Function.Emitted
import InlineAsm.Proofs.Function.Marshal
import InlineAsm.Proofs.Storage.Size

/-! Both sides of a call agree on the parameters. The body is written from the declared types and the roles, while the
entry point and the slots of a call are made from the signature; at each index all of them mean the same variable, and
an address is handed on exactly where one is declared. What the two functions in the source say is read back from its
text. -/

namespace InlineAsm

namespace Source

open Text

/-- The declaration `T v` of a scalar. -/
def byValue (t : CType) (symbol : String) : String := t.name ++ " " ++ symbol

/-- The declaration `T * v` of the address of a scalar. -/
def byPointer (t : CType) (symbol : String) : String := t.name ++ " * " ++ symbol

/-- The declaration `T v[2][3]` of an array. -/
def asArray (t : CType) (symbol : String) (ns : List Nat) : String :=
  byValue t symbol ++ String.join (ns.map fun n => "[" ++ Numeral.ofNat n ++ "]")

/-- The argument `args[i]`. -/
def handedOn (i : Nat) : String := "args[" ++ Numeral.ofNat i ++ "]"

/-- The argument `*(T *) args[i]`. -/
def dereferenced (t : CType) (i : Nat) : String := "*(" ++ t.name ++ " *) " ++ handedOn i

theorem byValue_inj {t u : CType} {symbol : String} : byValue t symbol = byValue u symbol ↔ t = u := by
  refine ⟨fun h => CType.name_injective ?_, congrArg (byValue · symbol)⟩
  rwa [byValue, byValue, String.append_left_inj, String.append_left_inj] at h

theorem dereferenced_inj {t u : CType} {i : Nat} : dereferenced t i = dereferenced u i ↔ t = u := by
  refine ⟨fun h => CType.name_injective ?_, congrArg (dereferenced · i)⟩
  rwa [dereferenced, dereferenced, String.append_left_inj, String.append_left_inj, String.append_right_inj] at h

theorem dereferenced_ne_handedOn {t : CType} {i j : Nat} : dereferenced t i ≠ handedOn j := by
  intro h
  have hhead := congrArg (fun s => s.toList.head?) h
  simp [dereferenced, handedOn, String.toList_append] at hhead

theorem byPointer_ne_byValue {t u : CType} {symbol : String} : byPointer t symbol ≠ byValue u symbol := by
  intro h
  rw [byPointer, byValue, String.append_left_inj] at h
  have hstar : '*' ∉ (u.name ++ " ").toList := by cases u <;> decide
  rw [← h, String.toList_append] at hstar
  exact hstar (List.mem_append_right _ (by decide))

/-- Only the axes of an array have brackets. -/
theorem closing_not_mem_name (t : CType) : ']' ∉ t.name.toList :=
  DataType.not_mem_spelling t.name_mem_spellings (fun h => absurd h.1 (by decide)) (by decide)

theorem asArray_ne {t : CType} {symbol : String} {ns : List Nat} (hns : ns ≠ []) {declaration : String}
    (h : ']' ∉ declaration.toList) : asArray t symbol ns ≠ declaration := by
  rintro rfl
  cases ns with
  | nil => exact hns rfl
  | cons n ns => simp [asArray, String.toList_append] at h

variable {t : CType} {symbol : String} (hs : ']' ∉ symbol.toList)
include hs

theorem closing_not_mem_byValue : ']' ∉ (byValue t symbol).toList := by
  simp [byValue, String.toList_append, closing_not_mem_name, hs]

theorem closing_not_mem_byPointer : ']' ∉ (byPointer t symbol).toList := by
  simp [byPointer, String.toList_append, closing_not_mem_name, hs]

end Source

theorem Variable.closing_not_mem_symbol (v : Variable) : ']' ∉ v.symbol.toList :=
  v.not_mem_symbol (by decide) (by decide)

namespace Source

/-- The identifier in a declaration: the last word, without the axes. -/
def declaredName (declaration : String) : String :=
  String.ofList (upTo '[' (upTo ' ' declaration.toList.reverse).1.reverse).1

theorem declaredName_append {declaration : String} (front : List Char) {name : List Char} (axes : List Char)
    (h : declaration.toList = front ++ ' ' :: (name ++ axes)) (hblank : ' ' ∉ name ++ axes) (hname : '[' ∉ name)
    (haxes : axes = [] ∨ ∃ rest, axes = '[' :: rest) : declaredName declaration = String.ofList name := by
  have hreverse : declaration.toList.reverse = (name ++ axes).reverse ++ ' ' :: front.reverse := by
    simp [h]
  rw [declaredName, hreverse, upTo_append (mt List.mem_reverse.1 hblank), List.reverse_reverse]
  rcases haxes with rfl | ⟨rest, rfl⟩
  · have hall : ∀ c ∈ name, (c != '[') = true := fun c hc => bne_iff_ne.2 fun he => hname (he ▸ hc)
    rw [List.append_nil, upTo, List.takeWhile_eq_self_iff.2 hall]
  · rw [upTo_append hname]

/-- The axes of a type are written without blanks, and each begins with a bracket. -/
theorem axesText_cases (d : DataType) :
    ' ' ∉ d.axesText.toList ∧ (d.axesText.toList = [] ∨ ∃ rest, d.axesText.toList = '[' :: rest) := by
  have hblank : ∀ n, ' ' ∉ (DataType.axisText n).toList := by
    intro n
    cases n with
    | none => decide
    | some n => simp [DataType.axisText, String.toList_append, Text.Numeral.not_mem_ofNat (c := ' ') (by decide) n]
  rw [DataType.axesText, String.toList_join]
  refine ⟨by simpa using fun n _ => hblank n, ?_⟩
  cases d.dims with
  | nil => exact .inl rfl
  | cons n dims =>
    right
    cases n with
    | none => exact ⟨_, rfl⟩
    | some n => exact ⟨_, by simp [DataType.axisText, String.toList_append]; rfl⟩

theorem declaredName_declaration (b : Binding) :
    declaredName (Parameter.ofBinding b).declaration = b.var.symbol := by
  have hblank : ' ' ∉ b.var.symbol.toList := b.var.not_mem_symbol (by decide) (by decide)
  have hbracket : '[' ∉ b.var.symbol.toList := b.var.not_mem_symbol (by decide) (by decide)
  have hofList : String.ofList b.var.symbol.toList = b.var.symbol := String.ofList_toList
  rw [Parameter.declaration, Parameter.ofBinding, ← hofList]
  cases b.var.type with
  | scalar t =>
    cases decide (b.role = .output) with
    | false =>
      refine declaredName_append t.name.toList [] ?_ (by simpa using hblank) hbracket (.inl rfl)
      simp [DataType.declaration, String.toList_append]
    | true =>
      refine declaredName_append (t.name ++ " *").toList [] ?_ (by simpa using hblank) hbracket (.inl rfl)
      simp [DataType.declaration, String.toList_append]
  | array inner size =>
    obtain ⟨haxes, hopen⟩ := axesText_cases (.array inner size)
    refine declaredName_append (DataType.array inner size).element.name.toList _ ?_ ?_ hbracket hopen
    · simp [DataType.declaration, String.toList_append]
    · rw [List.mem_append, not_or]
      exact ⟨hblank, haxes⟩

/-- The texts that a scalar of type `t`, or an array of such with the axes `ns`, is passed with at index `i`: what the
body declares, its expression for the variable, and what the entry point hands on. -/
structure Agrees (t : CType) (ns : List Nat) (symbol : String) (output : Bool) (i : Nat)
    (declaration lvalue argument : String) : Prop where
  declaration_eq : declaration =
    if ns = [] then (if output then byPointer t symbol else byValue t symbol) else asArray t symbol ns
  value_iff : ∀ u, argument = dereferenced u i ↔ declaration = byValue u symbol
  address_iff : argument = handedOn i ↔
    (∃ u, declaration = byPointer u symbol) ∨ ∃ u ms, ms ≠ [] ∧ declaration = asArray u symbol ms
  pointer_iff : (∃ u, declaration = byPointer u symbol) ↔ output ∧ ns = []
  lvalue_eq : lvalue = if output ∧ ns = [] then "*" ++ symbol else symbol

section Forms

variable {t : CType} {symbol : String} (hs : ']' ∉ symbol.toList) {i : Nat}
include hs

theorem agrees_byValue : Agrees t [] symbol false i (byValue t symbol) symbol (dereferenced t i) where
  declaration_eq := rfl
  value_iff _ := dereferenced_inj.trans byValue_inj.symm
  address_iff := by
    refine ⟨fun h => absurd h dereferenced_ne_handedOn, ?_⟩
    rintro (⟨u, h⟩ | ⟨u, ms, hms, h⟩)
    · exact absurd h.symm byPointer_ne_byValue
    · exact absurd h.symm (asArray_ne hms (closing_not_mem_byValue hs))
  pointer_iff := by
    refine ⟨?_, nofun⟩
    rintro ⟨u, h⟩
    exact absurd h.symm byPointer_ne_byValue
  lvalue_eq := rfl

omit hs in
theorem agrees_byPointer : Agrees t [] symbol true i (byPointer t symbol) ("*" ++ symbol) (handedOn i) where
  declaration_eq := rfl
  value_iff _ := iff_of_false dereferenced_ne_handedOn.symm byPointer_ne_byValue
  address_iff := iff_of_true rfl (.inl ⟨t, rfl⟩)
  pointer_iff := iff_of_true ⟨t, rfl⟩ ⟨rfl, rfl⟩
  lvalue_eq := rfl

theorem agrees_asArray {ns : List Nat} (hns : ns ≠ []) (output : Bool) :
    Agrees t ns symbol output i (asArray t symbol ns) symbol (handedOn i) where
  declaration_eq := (if_neg hns).symm
  value_iff _ := iff_of_false dereferenced_ne_handedOn.symm (asArray_ne hns (closing_not_mem_byValue hs))
  address_iff := iff_of_true rfl (.inr ⟨t, ns, hns, rfl⟩)
  pointer_iff := by
    refine iff_of_false ?_ fun h => hns h.2
    rintro ⟨u, h⟩
    exact asArray_ne hns (closing_not_mem_byPointer hs) h
  lvalue_eq := (if_neg fun h => hns h.2).symm

/-- What is written from the declared type and from the type in the signature agrees. -/
theorem agrees (dims : List Size) (output : Bool) :
    Agrees t (dims.map Subtype.val) symbol output i ((DataType.ofSizes t dims).declaration symbol output)
      (Parameter.lvalue ⟨.ofSizes t dims, symbol, output⟩)
      (Argument.ofType i (if output then .pointer (.ofAxes t (dims.map Subtype.val))
        else .ofAxes t (dims.map Subtype.val))).text := by
  cases dims with
  | nil =>
    cases output with
    | false => exact agrees_byValue hs
    | true => exact agrees_byPointer
  | cons n dims =>
    have hdeclaration : (DataType.ofSizes t (n :: dims)).declaration symbol output =
        asArray t symbol ((n :: dims).map Subtype.val) := by
      change (DataType.ofSizes t (n :: dims)).element.name ++ " " ++ symbol ++
        (DataType.ofSizes t (n :: dims)).axesText = _
      rw [DataType.element_ofSizes, DataType.axesText, DataType.dims_ofSizes, List.map_map]
      rfl
    have hargument : (Argument.ofType i (if output then .pointer (.ofAxes t ((n :: dims).map Subtype.val))
        else .ofAxes t ((n :: dims).map Subtype.val))).text = handedOn i := by
      cases output <;> rfl
    have hlvalue : Parameter.lvalue ⟨.ofSizes t (n :: dims), symbol, output⟩ = symbol := by
      cases output <;> rfl
    rw [hdeclaration, hargument, hlvalue]
    exact agrees_asArray hs (List.cons_ne_nil _ _) output

end Forms

end Source

theorem Binding.role_ne_output {inputs locals : List Variable} {b : Binding}
    (h : b ∈ inputs.map (bind .input) ++ locals.map (bind .scratch)) : b.role ≠ .output := by
  have hinput : Role.input ≠ .output := by decide
  have hscratch : Role.scratch ≠ .output := by decide
  rcases List.mem_append.1 h with h | h
  · obtain ⟨v, -, rfl⟩ := List.mem_map.1 h
    exact hinput
  · obtain ⟨v, -, rfl⟩ := List.mem_map.1 h
    exact hscratch

theorem Binding.role_parameters_iff {inputs locals outputs : List Variable} {i : Nat} {b : Binding}
    (h : (parameters inputs locals outputs)[i]? = some b) : b.role = .output ↔ i < outputs.length := by
  rw [parameters, List.append_assoc, List.getElem?_append, List.length_map] at h
  split_ifs at h with hi
  · obtain ⟨v, -, rfl⟩ := List.mem_map.1 (List.mem_of_getElem? h)
    exact iff_of_true rfl hi
  · exact iff_of_false (role_ne_output (List.mem_of_getElem? h)) hi

namespace Compiled

/-- All lists of the parameters have `n` entries: those in the source, the signature, and the slots of each call. -/
structure Counts (k : Compiled) (r : Source.Reading) (n : Nat) : Prop where
  parameters : r.parameters.length = n
  outputs : r.outputs.length = n
  inputs : r.inputs.length = n
  arguments : r.arguments.length = n
  signature : k.signature.length = n
  slots : ∀ {args slots}, Function.prepare k args = .ok slots → slots.length = n

/-- All that stands for the variable `v` at index `i`: its texts in both functions of the source, and the slot that a
call makes for it. -/
structure Aligned (k : Compiled) (r : Source.Reading) (i : Nat) (v : Variable) (output : Bool) (ns : List Nat)
    (declaration lvalue argument : String) (t : NativeType) : Prop where
  sizes : v.type.dims = ns.map some
  declared : r.parameters[i]? = some declaration
  identifier : Source.declaredName declaration = v.symbol
  outputOperand : r.outputs[i]? = some ("[" ++ v.symbol ++ "] \"=r\" (" ++ lvalue ++ ")")
  inputOperand : r.inputs[i]? = some ("\"" ++ Text.Numeral.ofNat i ++ "\" (" ++ lvalue ++ ")")
  passed : r.arguments[i]? = some argument
  agrees : Source.Agrees v.type.element ns v.symbol output i declaration lvalue argument
  typed : k.signature[i]? = some t
  type_eq : t = if output then .pointer (.ofAxes v.type.element ns) else .ofAxes v.type.element ns
  /-- Of a slot for this parameter, as long as its bytes can be counted. -/
  size : v.type.element.size * ns.prod < NativeType.wordLimit →
    ∀ s : Slot, s.type = t → s.bytes.length = v.type.element.size * ns.prod
  slot : ∀ {args slots}, Function.prepare k args = .ok slots →
    ∃ s, slots[i]? = some s ∧ s.type = t ∧ s.bytes.length = v.type.element.size * ns.prod

end Compiled

namespace Function

variable {f f' : Function} {inputs locals outs : List Variable} {σ : Type} {bridge : Bridge (StateM σ)} {s s' : σ}

section Compiled

variable {k : Compiled} (hs : k.bindings.mapM Binding.native = .ok k.signature)
include hs

theorem counts_of_native : k.Counts k.unit.reading k.bindings.length := by
  have hlen := (mapM_eq_ok.1 hs).length_eq
  constructor
  · simp [SourceUnit.reading, Plan.unit, SourceUnit.synthesize]
  · simp [SourceUnit.reading, Plan.unit, SourceUnit.synthesize]
  · simp [SourceUnit.reading, Plan.unit, SourceUnit.synthesize]
  · simp [SourceUnit.reading, Plan.unit, SourceUnit.synthesize, hlen]
  · exact hlen.symm
  · intro args slots h
    rw [← (forall₂_of_prepare h).length_eq, List.length_zip, hlen, Nat.min_self]

theorem exists_aligned {i : Nat} {b : Binding} (hi : k.bindings[i]? = some b) :
    ∃ ns declaration lvalue argument t,
      k.Aligned k.unit.reading i b.var (b.role = .output) ns declaration lvalue argument t := by
  obtain ⟨t, ht, hnative⟩ := exists_getElem?_of_forall₂ (mapM_eq_ok.1 hs) hi
  obtain ⟨dims, hd, haxes, hshape, htype⟩ := exists_axes_of_native hnative
  have helement : b.var.type.element = t.element := by rw [hd, DataType.element_ofSizes]
  have hzip : (k.bindings.zip k.signature)[i]? = some (b, t) := by
    rw [List.getElem?_zip_eq_some]
    exact ⟨hi, ht⟩
  have hagrees := Source.agrees (t := t.element) (i := i) b.var.closing_not_mem_symbol dims (b.role = .output)
  simp only [decide_eq_true_eq, ← hd, ← haxes, ← htype] at hagrees
  refine ⟨t.axes, _, _, _, t, ?_, ?_, Source.declaredName_declaration b, ?_, ?_, ?_, helement ▸ hagrees, ht, ?_, ?_, ?_⟩
  · rw [haxes, hd, DataType.dims_ofSizes]
  · simp [SourceUnit.reading, Plan.unit, SourceUnit.synthesize, hi]
  · simp [SourceUnit.reading, Plan.unit, SourceUnit.synthesize, hi, Source.Parameter.ofBinding,
      Source.OutputOperand.text]
  · simp [SourceUnit.reading, Plan.unit, SourceUnit.synthesize, hi, Source.Parameter.ofBinding,
      Source.InputOperand.text]
  · simp [SourceUnit.reading, Plan.unit, SourceUnit.synthesize, ht]
  · rw [helement]
    simpa using htype
  · rw [helement]
    intro hfit slot hslot
    rw [slot.size_eq, hslot, NativeType.storageSize_eq hfit]
  · intro args slots h
    obtain ⟨slot, hslot, hfilled⟩ := exists_getElem?_of_forall₂ (forall₂_of_prepare h) hzip
    exact ⟨slot, hslot, (of_filled hnative hfilled).2⟩

end Compiled

theorem map_declaredName (p : Plan) :
    p.unit.reading.parameters.map Source.declaredName = (p.bindings.map Binding.var).map Variable.symbol := by
  simp only [SourceUnit.reading, Plan.unit, SourceUnit.synthesize, List.map_map]
  exact List.map_congr_left fun b _ => Source.declaredName_declaration b

theorem nodup_map_symbol {vs : List Variable} (hn : (vs.map Variable.handle).Nodup) :
    (vs.map Variable.symbol).Nodup := by
  have hinj : (fun n : Nat => "v" ++ Text.Numeral.ofNat n).Injective :=
    fun _ _ h => Text.Numeral.ofNat_injective ((String.append_right_inj "v").1 h)
  have hsymbols := hn.map hinj
  rwa [List.map_map] at hsymbols

/-- An array whose bytes a machine word can not count. -/
def vast : Variable := ⟨1, .squareOfInts, none, []⟩

end Function

end InlineAsm
