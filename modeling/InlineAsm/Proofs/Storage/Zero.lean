import InlineAsm.Proofs.Storage.Agreement
import InlineAsm.Proofs.Storage.Loading

/-! The default value of a type is what a fresh slot holds. The value is built from the innermost axis outwards, while
loading cuts the zero bytes from the outermost axis inwards; both give the same lists, and storing the value makes any
slot of the type as good as new. -/

namespace InlineAsm

theorem Single.toDouble_zero : (⟨0⟩ : Single).toDouble = .zero := by
  have hneg : (⟨0⟩ : Single).negative = false := by decide
  have hmag : (⟨0⟩ : Single).magnitude = 0 := by decide
  have hunits : Binary.single.units 0 = 0 := by decide
  rw [toDouble, hneg, hmag, if_neg (by decide), if_neg (by decide), hunits, Nat.zero_mul,
    Binary.Format.nearest_zero _ Nat.one_pos]
  rfl

theorem Bytes.toNat_replicate_zero (n : Nat) : toNat (List.replicate n 0) = 0 := by
  induction n with
  | zero => rfl
  | succ n ih => simp [List.replicate_succ, toNat, ih]

namespace CType

theorem decode_replicate_zero (t : CType) : t.decode (List.replicate t.size 0) = t.zero := by
  simp only [decode, Bytes.toNat_replicate_zero]
  cases t with
  | float =>
    simp only [storage, if_true]
    exact congrArg Value.float Single.toDouble_zero
  | short | int | long | longLong | unsignedShort | unsignedInt | unsignedLong | unsignedLongLong | double | char => rfl

theorem acceptsSilently_zero (t : CType) : t.AcceptsSilently t.zero := by
  cases t <;> rfl

end CType

namespace DataType

variable {d : DataType} {v : Value}

theorem defaultValue_of_open (h : ¬d.isResolved) : d.defaultValue = .error (.noDefault d) := by
  have hnone : d.sizes? = none := Option.eq_none_iff_forall_ne_some.2 fun dims hdims => h (isResolved_of_sizes? hdims)
  simp only [defaultValue, hnone]

/-- All axes of a type with a default value have a size, and the value is nested by these sizes, with zeros as
leaves. -/
theorem shaped_of_default (h : d.defaultValue = .ok v) :
    ∃ dims : List Size, d = ofSizes d.element dims ∧ (∀ n ∈ dims, Listable n) ∧
      v.Shaped (· = d.element.zero) (dims.map Subtype.val) := by
  have hd : d.isResolved := by
    by_contra hopen
    cases (defaultValue_of_open hopen).symm.trans h
  obtain ⟨dims, hdims⟩ := exists_ofSizes hd
  rw [hdims] at h
  obtain ⟨hlists, hshaped⟩ := defaultValue_ofSizes h
  exact ⟨dims, hdims, hlists, hshaped⟩

theorem exists_default_iff :
    (∃ v, d.defaultValue = .ok v) ↔ d.isResolved ∧ ∀ n, some n ∈ d.dims → Listable n := by
  constructor
  · rintro ⟨v, h⟩
    obtain ⟨dims, hd, hlists, -⟩ := shaped_of_default h
    generalize d.element = t at hd
    subst hd
    refine ⟨isResolved_ofSizes t dims, fun n hn => ?_⟩
    rw [dims_ofSizes, List.mem_map_of_injective (Option.some_injective Nat)] at hn
    obtain ⟨m, hm, rfl⟩ := List.mem_map.1 hn
    exact hlists m hm
  · rintro ⟨hd, hlists⟩
    obtain ⟨dims, hdims⟩ := exists_ofSizes hd
    rw [hdims] at hlists ⊢
    refine exists_defaultValue_ofSizes fun n hn => hlists n ?_
    rw [dims_ofSizes]
    exact List.mem_map_of_mem (List.mem_map_of_mem hn)

/-- Where no axis is open, only memory can be missing. -/
theorem defaultValue_of_resolved {e : Error} (hd : d.isResolved) (h : d.defaultValue = .error e) :
    e = .storage .tooLarge := by
  obtain ⟨dims, hdims⟩ := exists_ofSizes hd
  have hsizes : d.sizes? = some (dims.map Subtype.val) := by
    rw [hdims]
    exact sizes?_ofSizes _ dims
  simp only [defaultValue, hsizes] at h
  exact eq_tooLarge_of_foldrM h

theorem check_of_default (h : d.defaultValue = .ok v) : d.check v = .ok (d, []) := by
  obtain ⟨dims, hd, -, hzero⟩ := shaped_of_default h
  have hsilent := hzero.imp fun x hx => hx ▸ d.element.acceptsSilently_zero
  generalize d.element = t at hd hsilent
  subst hd
  exact check_ofSizes_iff.2 ⟨hsilent.imp fun x hx => hx.accepts, rfl, (Slot.warnings_of_silent hsilent).symm⟩

/-- The default value is nested by the axes of the native type. -/
theorem shaped_of_native? {t : NativeType} (hv : d.defaultValue = .ok v) (ht : d.native? = some t) :
    v.Shaped (· = t.element.zero) t.axes := by
  obtain ⟨dims, hd, -, hshaped⟩ := shaped_of_default hv
  rw [hd, native?_ofSizes] at ht
  obtain rfl := Option.some.inj ht
  rwa [NativeType.element_ofAxes, NativeType.axes_ofAxes]

theorem solid_of_native? {t : NativeType} (ht : d.native? = some t)
    (hfit : t.element.size * t.axes.prod < NativeType.wordLimit) : t.Solid := by
  obtain ⟨dims, -, rfl⟩ := native?_eq_some_iff.1 ht
  rw [NativeType.element_ofAxes, NativeType.axes_ofAxes] at hfit
  exact NativeType.solid_ofAxes hfit

end DataType

namespace NativeType

theorem element_behind (k : Nat) (t : NativeType) : (behind k t).element = t.element := by
  induction k with
  | zero => rfl
  | succ k ih =>
    rw [behind, Function.iterate_succ_apply']
    exact ih

theorem axes_behind (k : Nat) (t : NativeType) : (behind k t).axes = t.axes := by
  induction k with
  | zero => rfl
  | succ k ih =>
    rw [behind, Function.iterate_succ_apply']
    exact ih

theorem allocated_behind (k : Nat) (t : NativeType) : (behind k t).allocated = t.allocated := by
  simp only [allocated, storageSize, elementCount_eq_count, element_behind, axes_behind]

end NativeType

namespace Slot

/-- All leaves of a default value are zero, and there are as many as the axes have places. -/
theorem leaves_of_zero {t : CType} {dims : List Nat} {v : Value} (h : v.Shaped (· = t.zero) dims) :
    v.leaves = List.replicate dims.prod t.zero := by
  have hleaf : ∀ x, x = t.zero → x.IsLeaf := fun x hx => hx ▸ t.accepts_zero.isLeaf
  rw [← h.length_leaves hleaf]
  exact List.eq_replicate_of_mem (h.of_mem_leaves hleaf)

theorem eq_zeroed {s : Slot} {t : NativeType} (ht : s.type = t) (h : s.bytes = List.replicate t.storageSize 0) :
    s = zeroed t := by
  obtain ⟨type, bytes, size⟩ := s
  change type = t at ht
  change bytes = _ at h
  subst ht h
  rfl

section Zero

variable {t : NativeType} {v : Value} (ht : t.Solid) (hv : v.Shaped (· = t.element.zero) t.axes)
include ht hv

theorem load_zeroed : (zeroed t).load = .ok v := by
  have hbytes : (zeroed t).bytes = (List.replicate t.axes.prod (List.replicate t.element.size 0)).flatten := by
    rw [List.flatten_replicate_replicate, Nat.mul_comm, ← ht.storageSize_eq]
    rfl
  apply load_of_decode ht (hv.imp fun x hx => hx ▸ t.element.accepts_zero.isLeaf) hbytes
  · intro b hb
    rw [List.eq_of_mem_replicate hb, List.length_replicate]
    rfl
  · rw [List.map_replicate, leaves_of_zero hv]
    exact congrArg (List.replicate _) t.element.decode_replicate_zero

/-- Whatever was in a slot, nothing of it is left. -/
theorem store_zero {s : Slot} (hs : s.type = t) : s.store v = (zeroed t, .ok []) := by
  subst hs
  have hsilent := hv.imp fun x hx => hx ▸ s.type.element.acceptsSilently_zero
  obtain ⟨s', hstore, htype, hbytes⟩ := store_of_silent ht hsilent
  have hleaves := leaves_of_zero hv
  have hmem : ∀ x ∈ v.leaves, x = s.type.element.zero := fun x hx => List.eq_of_mem_replicate (hleaves ▸ hx)
  rw [hstore, eq_zeroed htype]
  rw [hbytes, image, CType.encodeAll_zero hmem, hleaves, List.length_replicate, ht.storageSize_eq, Nat.mul_comm]

end Zero

/-- A type has a native type if and only if none of its axes is open, and then it has a default value if and only if
lists as long as the axes can be asked for. The default value passes the check; a fresh slot of the native type or of
one behind pointers, which there is if its bytes can be asked for, holds it; and storing it makes any such slot
fresh. -/
theorem default_zeroed (d : DataType) :
    ((∃ t, d.native = .ok t) ↔ d.isResolved) ∧
    ((∃ v, d.defaultValue = .ok v) ↔ d.isResolved ∧ ∀ n, some n ∈ d.dims → DataType.Listable n) ∧
    (¬d.isResolved → ∃ e e', d.defaultValue = .error e ∧ e.kind = .argumentType ∧
      d.native = .error e' ∧ e'.kind = .argumentValue) ∧
    (d.isResolved → ∀ e, d.defaultValue = .error e → e = .storage .tooLarge) ∧
    ∀ v t, d.defaultValue = .ok v → d.native = .ok t → t.element.size * t.axes.prod < NativeType.wordLimit →
      d.check v = .ok (d, []) ∧
      ∀ (k : Nat),
        (∀ s, fresh (.behind k t) = .ok s ↔ t.allocated ≤ NativeType.allocationLimit ∧ zeroed (.behind k t) = s) ∧
        (zeroed (.behind k t)).load = .ok v ∧
        ∀ s : Slot, s.type = .behind k t → s.store v = (zeroed (.behind k t), .ok []) := by
  have hnative : (∃ t, d.native = .ok t) ↔ d.isResolved := by
    simp only [DataType.native_eq_ok_iff, DataType.exists_native?_iff]
  refine ⟨hnative, DataType.exists_default_iff, fun hopen => ?_, fun hd e => DataType.defaultValue_of_resolved hd,
    fun v t hv ht hfit => ?_⟩
  · have hnone : d.native? = none := Option.eq_none_iff_forall_ne_some.2 fun t ht =>
      hopen (DataType.exists_native?_iff.1 ⟨t, ht⟩)
    exact ⟨.noDefault d, .openAxis d, DataType.defaultValue_of_open hopen, rfl, by rw [DataType.native, hnone], rfl⟩
  · rw [DataType.native_eq_ok_iff] at ht
    have hsolid := DataType.solid_of_native? ht hfit
    have hshaped := DataType.shaped_of_native? hv ht
    refine ⟨DataType.check_of_default hv, fun k => ⟨fun s => ?_, ?_⟩⟩
    · rw [fresh_eq_ok_iff, t.allocated_behind k]
    · rw [← t.element_behind k, ← t.axes_behind k] at hshaped
      exact ⟨load_zeroed (hsolid.behind k) hshaped, fun s hs => store_zero (hsolid.behind k) hshaped hs⟩

theorem default_zeroed_negative :
    fresh (.pointer (.array .short [2])) = .ok (zeroed (.pointer (.array .short [2]))) ∧
    (zeroed (.pointer (.array .short [2]))).load = .ok (.list [.int 0, .int 0]) ∧
    negativeShorts.store (.list [.int 0, .int 0]) = (zeroed (.pointer (.array .short [2])), .ok []) := by
  obtain ⟨-, -, -, -, hzero⟩ := default_zeroed (.array (.scalar .short) (some ⟨2, by decide⟩))
  obtain ⟨-, hslots⟩ := hzero (.list [.int 0, .int 0]) (.array .short [2]) rfl rfl (by decide)
  obtain ⟨hfresh, hload, hstore⟩ := hslots 1
  exact ⟨(hfresh _).2 ⟨by decide, rfl⟩, hload, hstore negativeShorts rfl⟩

/-- More characters than one allocation may ask for, though a machine word can count them. -/
def hugeText : DataType := .array (.scalar .char) (some ⟨9223372036854775808, by decide⟩)

/-- So a type that has a size for every axis, and bytes that a machine word can count, need not have a default value,
nor a fresh slot. -/
theorem not_always_default :
    DataType.ofName "char[9223372036854775808]" = .ok hugeText ∧ hugeText.isResolved ∧
    hugeText.native = .ok (.array .char [9223372036854775808]) ∧
    (NativeType.array .char [9223372036854775808]).storageSize = 9223372036854775808 ∧
    hugeText.defaultValue = .error (.storage .tooLarge) ∧
    fresh (.array .char [9223372036854775808]) = .error (.storage .tooLarge) ∧
    ¬∀ d : DataType, (∃ v, d.defaultValue = .ok v) ↔ d.isResolved := by
  refine ⟨rfl, rfl, rfl, rfl, rfl, rfl, fun h => ?_⟩
  obtain ⟨v, hv⟩ := (h hugeText).2 rfl
  cases hv

end Slot

end InlineAsm
