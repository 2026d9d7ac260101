import InlineAsm.Proofs.DataType.Rendering
import InlineAsm.Storage.Slot

/-! The bytes of a parameter against the sizes that its type declares. Each size fits into a machine word, but nothing
bounds their product, and counting elements and bytes drops what goes beyond a word. A slot has room for the object in C
exactly as long as nothing is dropped. -/

namespace InlineAsm

namespace NativeType

variable {t : NativeType}

theorem elementCount_eq_mod (t : NativeType) : t.elementCount = t.axes.prod % wordLimit := by
  rw [elementCount_eq_count, count_eq_mod]

theorem storageSize_eq_mod (t : NativeType) : t.storageSize = t.element.size * t.axes.prod % wordLimit := by
  rw [storageSize, elementCount_eq_mod, Nat.mul_mod_mod]

theorem le_allocated (t : NativeType) : t.storageSize ≤ t.allocated := by
  unfold allocated
  omega

/-- What is dropped is missing in memory too: rounding up to words stays below the next multiple of `wordLimit`. -/
theorem allocated_lt (h : wordLimit ≤ t.element.size * t.axes.prod) :
    t.allocated < t.element.size * t.axes.prod := by
  have hdropped : t.storageSize ≤ t.element.size * t.axes.prod - wordLimit := by
    rw [storageSize_eq_mod, Nat.mod_eq_sub_mod h]
    exact Nat.mod_le _ _
  have hlimit : 8 < wordLimit := by decide
  unfold allocated
  omega

theorem le_allocated_iff :
    t.element.size * t.axes.prod ≤ t.allocated ↔ t.element.size * t.axes.prod < wordLimit := by
  constructor
  · intro h
    by_contra hge
    have := allocated_lt (Nat.le_of_not_lt hge)
    omega
  · intro h
    rw [← storageSize_eq h]
    exact t.le_allocated

end NativeType

namespace DataType

open NativeType (wordLimit)

/-- A type that is read from a name and has no open axis declares sizes that a machine word can hold. The elements and
bytes of its native type are counted modulo `wordLimit`, so the counts are those of C, and a slot has the memory that
the object in C takes, if and only if the exact number does not reach `wordLimit`. -/
theorem counts_of_name {s : String} {d : DataType} (hs : ofName s = .ok d) (hd : d.isResolved) :
    ∃ (dims : List Nat) (t : NativeType),
      d.dims = dims.map some ∧ (∀ n ∈ dims, 0 < n ∧ n < wordLimit) ∧ d.native = .ok t ∧
      t.elementCount = dims.prod % wordLimit ∧
      t.storageSize = d.element.size * dims.prod % wordLimit ∧
      (t.elementCount = dims.prod ↔ dims.prod < wordLimit) ∧
      (t.storageSize = d.element.size * dims.prod ↔ d.element.size * dims.prod < wordLimit) ∧
      (d.element.size * dims.prod ≤ t.allocated ↔ d.element.size * dims.prod < wordLimit) := by
  obtain ⟨sizes, hsizes⟩ := exists_ofSizes hd
  have hdims : d.dims = (sizes.map Subtype.val).map some := by
    conv_lhs => rw [hsizes]
    exact dims_ofSizes d.element sizes
  have ht : d.native = .ok (.ofAxes d.element (sizes.map Subtype.val)) :=
    native_eq_ok_iff.2 (native?_eq_some_iff.2 ⟨sizes, hsizes, rfl⟩)
  have hmeasured := (Built.named hs).measured
  generalize sizes.map Subtype.val = dims at hdims ht
  have helement := NativeType.element_ofAxes d.element dims
  have haxes := NativeType.axes_ofAxes d.element dims
  generalize NativeType.ofAxes d.element dims = t at ht helement haxes
  have hcount := t.elementCount_eq_mod
  have hsize := t.storageSize_eq_mod
  have hroom := t.le_allocated_iff
  rw [helement, haxes] at hsize hroom
  rw [haxes] at hcount
  have hlimit : wordLimit ≠ 0 := by decide
  refine ⟨dims, t, hdims, ?_, ht, hcount, hsize, ?_, ?_, hroom⟩
  · intro n hn
    exact measured_some.1 (hmeasured _ (hdims ▸ List.mem_map_of_mem hn))
  · rw [hcount]
    exact Nat.mod_eq_iff_lt hlimit
  · rw [hsize]
    exact Nat.mod_eq_iff_lt hlimit

/-- As many rows of integers, and as many integers in each of them, as 32 bits can tell apart. -/
def squareOfInts : DataType :=
  array (array (scalar .int) (some ⟨4294967296, by decide⟩)) (some ⟨4294967296, by decide⟩)

theorem counts_of_name_square :
    ofName "int[4294967296][4294967296]" = .ok squareOfInts ∧ squareOfInts.isResolved ∧
    ∃ t, squareOfInts.native = .ok t ∧ t.elementCount = 0 ∧ t.storageSize = 0 := by
  have hs : ofName "int[4294967296][4294967296]" = .ok squareOfInts := rfl
  have hd : squareOfInts.isResolved := rfl
  obtain ⟨dims, t, hdims, -, ht, hcount, hsize, -⟩ := counts_of_name hs hd
  have hdims' : [4294967296, 4294967296].map some = dims.map some := hdims
  obtain rfl := List.map_injective_iff.2 (Option.some_injective Nat) hdims'
  exact ⟨hs, hd, t, ht, hcount, hsize⟩

/-- So the counts of a type that is read from a name are not always those of C, and then its slots are too small. -/
theorem not_exact_counts :
    ¬∀ (s : String) (d : DataType) (dims : List Nat) (t : NativeType),
      ofName s = .ok d → d.dims = dims.map some → d.native = .ok t →
        t.elementCount = dims.prod ∧ t.storageSize = d.element.size * dims.prod ∧
          d.element.size * dims.prod ≤ t.allocated := by
  intro h
  obtain ⟨hcount, -⟩ := h "int[4294967296][4294967296]" squareOfInts [4294967296, 4294967296]
    (.array .int [4294967296, 4294967296]) rfl rfl rfl
  exact absurd hcount (by decide)

end DataType

end InlineAsm
