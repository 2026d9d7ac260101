import InlineAsm.Proofs.DataType.Name
import InlineAsm.Proofs.Storage.Atomic
import InlineAsm.Proofs.Storage.Initial

/-! Where slots go wrong. The check, the size of the storage and the nesting each read the axes in their own way, and
the three agree on arrays that have axes of which none is empty. On the others storing may run past the end of the
storage, and loading may cut elements that have no size. -/

namespace InlineAsm

namespace NativeType

/-- Several elements for an array without axes. The check takes it as one open axis, which may have any length, but
there is storage for one element. -/
def Overruns (t : NativeType) (v : Value) : Prop :=
  t.pointee = .array t.element [] ∧ ∃ items, v = .list items ∧ 2 ≤ items.length ∧ ∀ x ∈ items, t.element.Accepts x

/-- Below the outermost axis there are others, but they have no elements, as counted in a machine word. -/
def HasEmptyStride (t : NativeType) : Prop :=
  ∃ n dims, t.pointee = .array t.element (n :: dims) ∧ dims ≠ [] ∧ count dims = 0

theorem Solid.of_scalar {u : CType} : ∀ {t : NativeType}, t.pointee = .scalar u → t.Solid := by
  intro t
  induction t with
  | scalar t => exact fun _ => trivial
  | array t dims => exact nofun
  | pointer inner ih => exact ih

/-- Where there is a stride, only the outermost axis can be empty. -/
theorem outermost_eq_zero {n : Nat} {dims : List Nat} (h : dims = [] ∨ count dims ≠ 0) (hzero : 0 ∈ n :: dims) :
    n = 0 := by
  rcases List.mem_cons.1 hzero with h0 | h0
  · exact h0.symm
  · rcases h with rfl | hcount
    · cases h0
    · exact absurd (count_eq_zero h0) hcount

/-- What there is besides the types on which all readings of the axes agree. -/
theorem solid_or_degenerate {t : NativeType} (hfit : t.element.size * t.axes.prod < wordLimit) :
    t.Solid ∨ t.pointee = .array t.element t.axes ∧ (t.axes = [] ∨ 0 ∈ t.axes) := by
  rcases t.pointee_eq with ⟨hp, -⟩ | hp
  · exact .inl (.of_scalar hp)
  · by_cases h : t.axes = [] ∨ 0 ∈ t.axes
    · exact .inr ⟨hp, h⟩
    · rw [not_or] at h
      have hpos : ∀ n ∈ t.axes, 0 < n := fun n hn => Nat.pos_of_ne_zero fun h0 => h.2 (h0 ▸ hn)
      exact .inl (solid_of_pointee h.1 hpos hfit hp).1

end NativeType

namespace Slot

open NativeType (count wordLimit allocationLimit)

theorem shape_pointee (t : NativeType) : shape t.pointee = shape t := by
  induction t with
  | scalar t => rfl
  | array t dims => rfl
  | pointer inner ih => exact ih

variable {s : Slot} {v : Value} {f : StorageFault}

/-- Storing runs past the end exactly where the check lets more bytes pass than there are. -/
theorem store_eq_storage_iff :
    (s.store v).2 = .error (.storage f) ↔
      f = .outOfBounds ∧ (∃ ws, s.check v = .ok ws) ∧ s.bytes.length < (image s.type.element v).length := by
  cases hc : s.check v with
  | error e =>
    have he : e ≠ .storage f := fun h => check_ne_storage (h ▸ hc)
    simp [store, hc, he]
  | ok ws =>
    simp only [store, hc, encodeAll_eq_image (accepts_of_check hc)]
    split_ifs with hlt
    · simp [hlt, eq_comm]
    · simp [hlt]

/-- Without axes the check takes a list of any length. -/
theorem check_openAxis_iff (hp : s.type.pointee = .array s.type.element []) :
    (∃ ws, s.check v = .ok ws) ↔ ∃ items, v = .list items ∧ items ≠ [] ∧ ∀ x ∈ items, s.type.element.Accepts x := by
  have hshape : shape s.type = .ok (.array (.scalar s.type.element) none) := by
    rw [← shape_pointee, hp]
    rfl
  have hanswer : (∃ ws, s.check v = .ok ws) ↔ ∃ r, (DataType.array (.scalar s.type.element) none).check v = .ok r := by
    rw [check_eq hshape]
    cases (DataType.array (.scalar s.type.element) none).check v <;> simp [Except.mapError, Except.map]
  rw [hanswer]
  constructor
  · rintro ⟨⟨d, ws⟩, h⟩
    obtain ⟨dims, hadmits, hfits, -, -⟩ := DataType.check_eq_ok_iff.1 h
    match dims, hadmits with
    | [n], _ =>
      obtain ⟨items, rfl, hn, haccepts⟩ := hfits
      refine ⟨items, rfl, fun hnil => ?_, haccepts⟩
      exact n.2.ne (hn ▸ congrArg List.length hnil).symm
  · rintro ⟨items, rfl, hne, haccepts⟩
    have hadmits : (DataType.array (.scalar s.type.element) none).Admits [⟨items.length, List.length_pos_iff.2 hne⟩] :=
      ⟨nofun, trivial⟩
    exact ⟨_, DataType.check_eq_ok_iff.2 ⟨_, hadmits, ⟨items, rfl, rfl, haccepts⟩, rfl, rfl⟩⟩

theorem not_check_of_zero (hp : s.type.pointee = .array s.type.element s.type.axes) (hzero : 0 ∈ s.type.axes) :
    ¬∃ ws, s.check v = .ok ws := by
  rintro ⟨ws, h⟩
  obtain ⟨d, hd, -⟩ := bind_eq_ok.1 h
  rw [← shape_pointee, hp, shape_array (List.ne_nil_of_mem hzero), DataType.ofDims_eq_ok_iff] at hd
  have hmem : some 0 ∈ d.dims := hd.2 ▸ List.mem_map_of_mem hzero
  exact DataType.ne_zero_of_mem_dims _ hmem rfl

theorem length_image_list {t : CType} {items : List Value} (h : ∀ x ∈ items, t.Accepts x) :
    (image t (.list items)).length = t.size * items.length := by
  have hshaped : (Value.list items).Shaped t.Accepts [items.length] := ⟨items, rfl, rfl, h⟩
  rw [(encodeAll_of_shaped hshaped).2, List.prod_singleton]

theorem load_of_emptyStride (h : s.type.HasEmptyStride) : s.load = .error (.storage .emptyStride) := by
  obtain ⟨n, dims, hp, hne, hcount⟩ := h
  obtain ⟨m, dims, rfl⟩ := List.exists_cons_of_ne_nil hne
  simp only [load, hp]
  rw [nest, if_pos hcount]

/-- Without elements there is nothing to nest, so only the stride matters. -/
theorem nest_nil {n : Nat} {dims : List Nat} (h : dims = [] ∨ count dims ≠ 0) :
    nest (n :: dims) [] = .ok (.list []) := by
  cases dims with
  | nil => rfl
  | cons m dims =>
    have hcount : count (m :: dims) ≠ 0 := h.resolve_left (List.cons_ne_nil m dims)
    rw [nest, if_neg hcount, Bytes.blocks_nil]
    rfl

section

variable (hfit : s.type.element.size * s.type.axes.prod < wordLimit)
include hfit

theorem length_bytes_of_fit : s.bytes.length = s.type.element.size * s.type.axes.prod :=
  s.size_eq.trans (NativeType.storageSize_eq hfit)

theorem store_faults_iff : (s.store v).2 = .error (.storage f) ↔ f = .outOfBounds ∧ s.type.Overruns v := by
  rw [store_eq_storage_iff, length_bytes_of_fit hfit]
  refine and_congr_right fun _ => ⟨?_, ?_⟩
  · rintro ⟨⟨ws, hcheck⟩, hlt⟩
    rcases NativeType.solid_or_degenerate hfit with hs | ⟨hp, hnil | hzero⟩
    · have hlen := (encodeAll_of_shaped ((check_eq_ok_iff hs).1 hcheck).1).2
      omega
    · rw [hnil] at hp hlt
      obtain ⟨items, rfl, -, haccepts⟩ := (check_openAxis_iff hp).1 ⟨ws, hcheck⟩
      rw [length_image_list haccepts] at hlt
      exact ⟨hp, items, rfl, Nat.lt_of_mul_lt_mul_left hlt, haccepts⟩
    · exact absurd ⟨ws, hcheck⟩ (not_check_of_zero hp hzero)
  · rintro ⟨hp, items, rfl, hlen, haccepts⟩
    have hnil : s.type.axes = [] := by
      rcases s.type.pointee_eq with ⟨-, hnil⟩ | hp'
      · exact hnil
      · exact (NativeType.array.inj (hp'.symm.trans hp)).2
    refine ⟨(check_openAxis_iff hp).2 ⟨items, rfl, ?_, haccepts⟩, ?_⟩
    · exact List.ne_nil_of_length_pos (by omega)
    · rw [length_image_list haccepts, hnil]
      exact Nat.mul_lt_mul_of_pos_left hlen s.type.element.size_pos

theorem exists_load_of_stride (h : ¬s.type.HasEmptyStride) : ∃ v, s.load = .ok v := by
  rcases NativeType.solid_or_degenerate hfit with hs | ⟨hp, hdegenerate⟩
  · exact exists_load hs
  cases haxes : s.type.axes with
  | nil =>
    rw [haxes] at hp
    simp only [load, hp]
    exact ⟨_, rfl⟩
  | cons n dims =>
    rw [haxes] at hp hdegenerate
    have hstride : dims = [] ∨ count dims ≠ 0 := or_iff_not_imp_left.2 fun hne hcount => h ⟨n, dims, hp, hne, hcount⟩
    have hn : n = 0 := NativeType.outermost_eq_zero hstride (hdegenerate.resolve_left (List.cons_ne_nil n dims))
    have hbytes : s.bytes = [] := by
      rw [← List.length_eq_zero_iff, length_bytes_of_fit hfit, haxes, hn]
      simp
    simp only [load, hp, hbytes, Bytes.blocks_nil, List.map_nil]
    exact ⟨_, nest_nil hstride⟩

theorem load_faults_iff {e : Error} : s.load = .error e ↔ e = .storage .emptyStride ∧ s.type.HasEmptyStride := by
  by_cases h : s.type.HasEmptyStride
  · rw [load_of_emptyStride h, and_iff_left h, Except.error.injEq, eq_comm]
  · obtain ⟨v, hv⟩ := exists_load_of_stride hfit h
    simp [hv, h]

end

/-- As long as a machine word can count the bytes of its type, a slot goes wrong in three ways only. There is none if
its bytes can not be asked for at once. Storing runs past the end for several elements and a type without axes; loading
finds a stride of zero where the axes further in have no elements. All other errors are those of the check. -/
theorem faults_iff {t : NativeType} (hfit : t.element.size * t.axes.prod < wordLimit) :
    (∀ f, fresh t = .error (.storage f) ↔ f = .tooLarge ∧ allocationLimit < t.allocated) ∧
    (∀ v f, ofValue t v = .error (.storage f) ↔
      f = .tooLarge ∧ allocationLimit < t.allocated ∨
        f = .outOfBounds ∧ t.allocated ≤ allocationLimit ∧ t.Overruns v) ∧
    ∀ s : Slot, s.type = t →
      (∀ v f, (s.store v).2 = .error (.storage f) ↔ f = .outOfBounds ∧ t.Overruns v) ∧
      ∀ e, s.load = .error e ↔ e = .storage .emptyStride ∧ t.HasEmptyStride := by
  refine ⟨fun f => ?_, fun v f => ?_, ?_⟩
  · rw [fresh_eq_error_iff, and_comm, Error.storage.injEq, eq_comm]
  · rw [ofValue_eq_error_iff, store_faults_iff (s := zeroed t) hfit, and_comm, Error.storage.injEq, eq_comm,
      and_left_comm (a := f = .outOfBounds)]
    rfl
  · rintro s rfl
    exact ⟨fun _ _ => store_faults_iff hfit, fun _ => load_faults_iff hfit⟩

theorem faults_iff_degenerate :
    ofValue (.pointer (.array .int [])) (.list [.int 1, .int 2]) = .error (.storage .outOfBounds) ∧
    (zeroed (.array .int [2, 0])).load = .error (.storage .emptyStride) := by
  have haccepts : ∀ x ∈ [Value.int 1, .int 2], CType.int.Accepts x := by
    intro x hx
    rcases List.mem_pair.1 hx with rfl | rfl <;> exact ⟨none, rfl⟩
  obtain ⟨-, hstore, -⟩ := faults_iff (t := .pointer (.array .int [])) (by decide)
  obtain ⟨-, -, hslots⟩ := faults_iff (t := .array .int [2, 0]) (by decide)
  obtain ⟨-, hload⟩ := hslots (zeroed (.array .int [2, 0])) rfl
  exact ⟨(hstore _ _).2 (.inr ⟨rfl, by decide, rfl, _, rfl, le_rfl, haccepts⟩),
    (hload _).2 ⟨rfl, 2, [0], rfl, by decide, by decide⟩⟩

/-- So neither storing nor loading is free of faults on all types whose bytes can be counted. -/
theorem not_faultless :
    (¬∀ (s : Slot) (v : Value), s.type.element.size * s.type.axes.prod < wordLimit →
      ∀ f, (s.store v).2 ≠ .error (.storage f)) ∧
    ¬∀ s : Slot, s.type.element.size * s.type.axes.prod < wordLimit → ∀ f, s.load ≠ .error (.storage f) := by
  constructor
  · intro h
    exact h (zeroed (.array .int [])) (.list [.int 1, .int 2]) (by decide) .outOfBounds rfl
  · intro h
    have hstride : (NativeType.array .int [2, 0]).HasEmptyStride := ⟨2, [0], rfl, by decide, by decide⟩
    exact h (zeroed (.array .int [2, 0])) (by decide) .emptyStride (load_of_emptyStride hstride)

end Slot

end InlineAsm
