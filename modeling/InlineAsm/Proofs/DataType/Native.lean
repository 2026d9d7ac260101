import InlineAsm.Proofs.DataType.Check
import InlineAsm.Proofs.NativeType

/-! The types of parameters. A declared type has one if and only if none of its axes is open, and its sizes are then
the lengths of the axes. -/

namespace InlineAsm

theorem pos_of_mem_sizes {dims : List Size} : ∀ n ∈ dims.map Subtype.val, 0 < n := by
  intro n hn
  obtain ⟨k, -, rfl⟩ := List.mem_map.1 hn
  exact k.2

/-- The type with these axes, outermost first. -/
def NativeType.ofAxes (t : CType) : List Nat → NativeType
  | [] => scalar t
  | dims => array t dims

theorem NativeType.element_ofAxes (t : CType) (dims : List Nat) : (ofAxes t dims).element = t := by
  cases dims <;> rfl

theorem NativeType.axes_ofAxes (t : CType) (dims : List Nat) : (ofAxes t dims).axes = dims := by
  cases dims <;> rfl

theorem NativeType.solid_ofAxes {t : CType} {dims : List Size}
    (h : t.size * (dims.map Subtype.val).prod < wordLimit) : (ofAxes t (dims.map Subtype.val)).Solid := by
  cases dims with
  | nil => trivial
  | cons n dims => exact ⟨List.cons_ne_nil _ _, pos_of_mem_sizes, h⟩

namespace DataType

theorem dims_ofSizes (t : CType) (dims : List Size) : (ofSizes t dims).dims = (dims.map Subtype.val).map some := by
  induction dims with
  | nil => rfl
  | cons n dims ih => exact congrArg (some n.val :: ·) ih

theorem sizes?_ofSizes (t : CType) (dims : List Size) : (ofSizes t dims).sizes? = some (dims.map Subtype.val) := by
  rw [sizes?]
  induction dims with
  | nil => rfl
  | cons n dims ih =>
    rw [ofSizes, DataType.dims, List.mapM_cons, ih]
    rfl

theorem native?_ofSizes (t : CType) (dims : List Size) :
    (ofSizes t dims).native? = some (.ofAxes t (dims.map Subtype.val)) := by
  cases dims with
  | nil => rfl
  | cons n dims =>
    change (ofSizes t (n :: dims)).sizes?.map (NativeType.array (ofSizes t (n :: dims)).element) = _
    rw [sizes?_ofSizes, element_ofSizes]
    rfl

theorem exists_ofSizes {d : DataType} (h : d.isResolved) : ∃ dims, d = ofSizes d.element dims := by
  induction d with
  | scalar t => exact ⟨[], rfl⟩
  | array inner size ih =>
    obtain ⟨hs, hi⟩ := Bool.and_eq_true_iff.1 h
    obtain ⟨dims, hd⟩ := ih hi
    cases size with
    | none => cases hs
    | some n => exact ⟨n :: dims, congrArg (array · (some n)) hd⟩

theorem isResolved_ofSizes (t : CType) (dims : List Size) : (ofSizes t dims).isResolved := by
  induction dims with
  | nil => rfl
  | cons n dims ih => exact ih

theorem isResolved_of_sizes? : ∀ {d : DataType} {ns : List Nat}, d.sizes? = some ns → d.isResolved := by
  intro d
  induction d with
  | scalar t => exact fun _ => rfl
  | array inner size ih =>
    intro ns h
    rw [sizes?, dims, List.mapM_cons] at h
    cases size with
    | none => cases h
    | some n =>
      obtain ⟨_, -, h⟩ := Option.bind_eq_some_iff.1 h
      obtain ⟨ms, hm, -⟩ := Option.bind_eq_some_iff.1 h
      exact ih hm

/-- The type of a parameter is that of the declared sizes. -/
theorem native?_eq_some_iff {d : DataType} {t : NativeType} :
    d.native? = some t ↔ ∃ dims, d = ofSizes d.element dims ∧ t = .ofAxes d.element (dims.map Subtype.val) := by
  refine ⟨?_, ?_⟩
  · intro h
    have hr : d.isResolved := by
      cases d with
      | scalar t => rfl
      | array inner size =>
        obtain ⟨ns, hs, -⟩ := Option.map_eq_some_iff.1 h
        exact isResolved_of_sizes? hs
    obtain ⟨dims, hd⟩ := exists_ofSizes hr
    rw [hd, native?_ofSizes, Option.some.injEq] at h
    exact ⟨dims, hd, h.symm⟩
  · intro hx
    obtain ⟨dims, hd, rfl⟩ := hx
    rw [hd, native?_ofSizes, element_ofSizes]

theorem exists_native?_iff {d : DataType} : (∃ t, d.native? = some t) ↔ d.isResolved := by
  refine ⟨?_, ?_⟩
  · intro hx
    obtain ⟨t, h⟩ := hx
    obtain ⟨dims, hd, -⟩ := native?_eq_some_iff.1 h
    rw [hd]
    exact isResolved_ofSizes _ dims
  · intro h
    obtain ⟨dims, hd⟩ := exists_ofSizes h
    exact ⟨_, native?_eq_some_iff.2 ⟨dims, hd, rfl⟩⟩

theorem native_eq_ok_iff {d : DataType} {t : NativeType} : d.native = .ok t ↔ d.native? = some t := by
  unfold native
  cases d.native? <;> simp

end DataType

end InlineAsm
