import InlineAsm.Proofs.DataType.Native

/-! How the open axes of a type get their lengths from a value. The value has to be rectangular: all lists that stand
on one axis have the same length, on a fixed axis the length that is fixed. The lengths are then determined by the
value, and every type that fixes some of them beforehand takes the value with the same answer. -/

namespace InlineAsm.DataType

/-- The axes that are fixed have the lengths `dims`. -/
def Agree (axes : List (Option Nat)) (dims : List Size) : Prop :=
  List.Forall₂ (fun size n => ∀ m ∈ size, m = n.val) axes dims

/-- `dims` are lengths for the axes of the type: they agree with those that are fixed, and the value is nested in lists
of these lengths down to leaves that the scalar type accepts. -/
structure Resolves (d : DataType) (v : Value) (dims : List Size) : Prop where
  agree : Agree d.dims dims
  rectangular : v.Shaped d.element.Accepts (dims.map Subtype.val)

theorem admits_iff_agree : ∀ {d : DataType} {dims : List Size}, d.Admits dims ↔ Agree d.dims dims := by
  intro d
  induction d with
  | scalar t =>
    intro dims
    cases dims with
    | nil => exact iff_of_true trivial .nil
    | cons n dims => exact iff_of_false (fun h => h) (nomatch ·)
  | array inner size ih =>
    intro dims
    cases dims with
    | nil => exact iff_of_false (fun h => h) (nomatch ·)
    | cons n dims =>
      have hsize : (∀ m ∈ size, m = n) ↔ ∀ m ∈ size.map Subtype.val, m = n.val := by
        simp only [Option.mem_def, Option.map_eq_some_iff, forall_exists_index, and_imp, forall_apply_eq_imp_iff₂,
          Subtype.val_inj]
      rw [Admits, DataType.dims, Agree, List.forall₂_cons, hsize, ih]
      rfl

theorem agree_map_some (dims : List Size) : Agree (dims.map fun n => some n.val) dims := by
  rw [Agree, List.forall₂_map_left_iff, List.forall₂_same]
  intro n _ m hm
  exact (Option.some.inj hm).symm

theorem ofSizes_injective (t : CType) : (ofSizes t).Injective := by
  intro dims₁ dims₂ h
  have hdims := congrArg DataType.dims h
  rw [dims_ofSizes, dims_ofSizes] at hdims
  have hsizes := List.map_injective_iff.2 (Option.some_injective Nat) hdims
  exact List.map_injective_iff.2 Subtype.val_injective hsizes

variable {d : DataType} {v : Value}

/-- The answer of every type with the same element whose fixed axes agree with the lengths. -/
theorem Resolves.check_eq {dims : List Size} (h : d.Resolves v dims) {e : DataType} (he : e.element = d.element)
    (ha : Agree e.dims dims) : e.check v = .ok (ofSizes d.element dims, v.leaves.filterMap d.element.warning?) := by
  rw [check_eq_ok_iff, he]
  exact ⟨dims, admits_iff_agree.2 ha, h.rectangular, rfl, rfl⟩

theorem exists_resolves {d' : DataType} {ws : List RangeWarning} (h : d.check v = .ok (d', ws)) :
    ∃ dims, d.Resolves v dims := by
  obtain ⟨dims, ha, hf, -, -⟩ := check_eq_ok_iff.1 h
  exact ⟨dims, admits_iff_agree.1 ha, hf⟩

theorem Resolves.unique {dims₁ dims₂ : List Size} (h₁ : d.Resolves v dims₁) (h₂ : d.Resolves v dims₂) :
    dims₁ = dims₂ := by
  have hcheck := (h₁.check_eq rfl h₁.agree).symm.trans (h₂.check_eq rfl h₂.agree)
  exact ofSizes_injective _ (congrArg Prod.fst (Except.ok.inj hcheck))

/-- A value is accepted if and only if there are lengths for the axes that make it rectangular. There is then one choice
of them, and it takes the place of the declared axes; the warnings are those of the leaves, in their order. Every type
between the declared one and the answer gives the same answer, as does any type whose fixed axes agree with it. -/
theorem check_resolution (d : DataType) (v : Value) :
    ((∃ r, d.check v = .ok r) ↔ ∃ dims, d.Resolves v dims) ∧
    (∀ dims, d.Resolves v dims → (∀ dims', d.Resolves v dims' → dims' = dims) ∧
      ∃ d', d'.element = d.element ∧ d'.dims = (dims.map fun n => some n.val) ∧ d'.isResolved ∧
        d.check v = .ok (d', v.leaves.filterMap d.element.warning?) ∧
        d'.check v = .ok (d', v.leaves.filterMap d.element.warning?) ∧
        ∀ e : DataType, e.element = d.element → Agree e.dims dims →
          e.check v = .ok (d', v.leaves.filterMap d.element.warning?)) ∧
    ((¬∃ dims, d.Resolves v dims) → ∃ m, d.check v = .error m ∧ (Error.mismatch m).kind = .argumentType) := by
  refine ⟨⟨?_, ?_⟩, ?_, ?_⟩
  · intro h
    obtain ⟨r, hr⟩ := h
    exact exists_resolves hr
  · intro h
    obtain ⟨dims, hd⟩ := h
    exact ⟨_, hd.check_eq rfl hd.agree⟩
  · intro dims hd
    have hdims : (ofSizes d.element dims).dims = dims.map fun n => some n.val := by
      rw [dims_ofSizes, List.map_map]
      rfl
    have helement := element_ofSizes d.element dims
    refine ⟨fun dims' hd' => hd'.unique hd, ofSizes d.element dims, helement, hdims, isResolved_ofSizes _ dims,
      hd.check_eq rfl hd.agree, hd.check_eq helement ?_, fun e => hd.check_eq⟩
    rw [hdims]
    exact agree_map_some dims
  · intro h
    cases hc : d.check v with
    | ok r => exact absurd (exists_resolves hc) h
    | error m => exact ⟨m, rfl, rfl⟩

/-- Two rows of shorts, of a length that is not declared. -/
def openRows : DataType := .array (.array (.scalar .short) none) (some ⟨2, by decide⟩)

/-- One row is longer than the other. -/
def raggedRows : Value := .list [.list [.int 1, .int 2], .list [.int 3]]

/-- Rectangular, with an integer that is out of range. -/
def squareRows : Value := .list [.list [.int 1, .int 40000], .list [.int 3, .int 4]]

theorem resolves_squareRows : openRows.Resolves squareRows [⟨2, by decide⟩, ⟨2, by decide⟩] where
  agree := .cons (fun _ hm => (Option.some.inj hm).symm) (.cons nofun .nil)
  rectangular := by
    refine ⟨_, rfl, rfl, List.forall_mem_cons.2 ⟨⟨_, rfl, rfl, ?_⟩, List.forall_mem_singleton.2 ⟨_, rfl, rfl, ?_⟩⟩⟩ <;>
      exact List.forall_mem_cons.2 ⟨⟨_, rfl⟩, List.forall_mem_singleton.2 ⟨_, rfl⟩⟩

theorem check_resolution_squareRows :
    (DataType.array (.array (.scalar .short) (some ⟨2, by decide⟩)) none).check squareRows =
      .ok (.array (.array (.scalar .short) (some ⟨2, by decide⟩)) (some ⟨2, by decide⟩),
        [⟨.short, 40000, -32768, 32767⟩]) ∧
    ¬∃ dims, openRows.Resolves raggedRows dims := by
  obtain ⟨-, hresolves, -⟩ := check_resolution openRows squareRows
  obtain ⟨-, d', -, -, -, hcheck, -, hall⟩ := hresolves _ resolves_squareRows
  obtain ⟨hragged, -⟩ := check_resolution openRows raggedRows
  refine ⟨?_, ?_⟩
  · cases hcheck
    exact hall _ rfl (.cons nofun (.cons (fun _ hm => (Option.some.inj hm).symm) .nil))
  · intro h
    obtain ⟨r, hr⟩ := hragged.2 h
    cases hr

end InlineAsm.DataType
