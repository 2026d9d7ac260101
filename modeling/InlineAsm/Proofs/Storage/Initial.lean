import InlineAsm.Proofs.DataType.Native
import InlineAsm.Proofs.Handles
import InlineAsm.Proofs.Storage.Atomic

/-! Fresh slots. One for an argument takes exactly what the declared type of the variable takes; one for a variable's
own start is never refused, and holds the bytes of its literal or else zeros. Both need memory: for the slot, and for
the lists of a default value. -/

namespace InlineAsm

theorem CType.accepts_zero (t : CType) : t.Accepts t.zero := by
  cases t <;> exact ⟨none, rfl⟩

theorem Binary.Format.nearest_zero (f : Format) {d : Nat} (hd : 0 < d) : f.nearest 0 d = 0 := by
  have hr : roundQuotient 0 d = 0 := by simp [roundQuotient, hd]
  simp [nearest, twoPow, hr]

theorem Double.toSingle_zero : zero.toSingle = ⟨0⟩ := by
  have hnan : zero.isNaN = false := by decide
  have hinf : zero.isInfinite = false := by decide
  have hneg : zero.negative = false := by decide
  have hunits : Binary.double.units zero.magnitude = 0 := by decide
  simp only [toSingle, hnan, hinf, hneg, hunits, Binary.Format.nearest_zero _ (twoPow_pos _)]
  rfl

theorem CType.encode_zero (t : CType) : t.encode t.zero = .ok (List.replicate t.size 0) := by
  cases t with
  | float =>
    change Except.ok (Bytes.ofNat 4 Double.zero.toSingle.bits.toNat) = _
    rw [Double.toSingle_zero]
    rfl
  | short | int | long | longLong | unsignedShort | unsignedInt | unsignedLong | unsignedLongLong | double | char => rfl

theorem CType.encodeAll_zero {t : CType} {vs : List Value} (h : ∀ v ∈ vs, v = t.zero) :
    t.encodeAll vs = (List.replicate (vs.length * t.size) 0, none) := by
  induction vs with
  | nil => rw [List.length_nil, Nat.zero_mul]; rfl
  | cons v vs ih =>
    obtain ⟨rfl, hvs⟩ := List.forall_mem_cons.1 h
    rw [encodeAll, encode_zero]
    simp only [ih hvs]
    rw [List.replicate_append_replicate, List.length_cons, Nat.succ_mul, Nat.add_comm]

namespace DataType

open NativeType (allocationLimit)

/-- A list with this many items can be asked for. -/
def Listable (n : Nat) : Prop := Value.itemSize * n ≤ allocationLimit

theorem replicated_eq_ok_iff {n : Nat} {v w : Value} :
    replicated n v = .ok w ↔ Listable n ∧ .list (List.replicate n v) = w := by
  unfold replicated Listable
  split_ifs with h
  · simp [Nat.not_le.2 h]
  · simp [Nat.le_of_not_lt h]

theorem replicated_eq_error_iff {n : Nat} {v : Value} {e : Error} :
    replicated n v = .error e ↔ ¬Listable n ∧ .storage .tooLarge = e := by
  unfold replicated Listable
  split_ifs with h
  · simp [h]
  · simp [Nat.le_of_not_lt h]

theorem shaped_of_foldrM {t : CType} :
    ∀ {dims : List Nat} {v : Value}, dims.foldrM replicated t.zero = .ok v →
      (∀ n ∈ dims, Listable n) ∧ v.Shaped (· = t.zero) dims := by
  intro dims
  induction dims with
  | nil =>
    rintro v ⟨⟩
    exact ⟨nofun, rfl⟩
  | cons n dims ih =>
    intro v h
    rw [List.foldrM_cons] at h
    obtain ⟨w, hw, h⟩ := bind_eq_ok.1 h
    obtain ⟨hn, rfl⟩ := replicated_eq_ok_iff.1 h
    obtain ⟨hdims, hshaped⟩ := ih hw
    refine ⟨List.forall_mem_cons.2 ⟨hn, hdims⟩, _, rfl, List.length_replicate, fun x hx => ?_⟩
    exact List.eq_of_mem_replicate hx ▸ hshaped

theorem exists_foldrM {t : CType} {dims : List Nat} (h : ∀ n ∈ dims, Listable n) :
    ∃ v, dims.foldrM replicated t.zero = .ok v := by
  induction dims with
  | nil => exact ⟨t.zero, rfl⟩
  | cons n dims ih =>
    obtain ⟨hn, hdims⟩ := List.forall_mem_cons.1 h
    obtain ⟨w, hw⟩ := ih hdims
    refine ⟨.list (List.replicate n w), ?_⟩
    rw [List.foldrM_cons, hw]
    exact replicated_eq_ok_iff.2 ⟨hn, rfl⟩

theorem eq_tooLarge_of_foldrM {v : Value} {e : Error} {dims : List Nat} (h : dims.foldrM replicated v = .error e) :
    e = .storage .tooLarge := by
  induction dims generalizing e with
  | nil => cases h
  | cons n dims ih =>
    rw [List.foldrM_cons] at h
    rcases bind_eq_error.1 h with h | ⟨w, -, h⟩
    · exact ih h
    · exact (replicated_eq_error_iff.1 h).2.symm

/-- A default value that is built is nested by the sizes of the axes, with zeros as leaves. -/
theorem defaultValue_ofSizes {t : CType} {dims : List Size} {v : Value} (h : (ofSizes t dims).defaultValue = .ok v) :
    (∀ n ∈ dims, Listable n) ∧ v.Shaped (· = t.zero) (dims.map Subtype.val) := by
  simp only [defaultValue, sizes?_ofSizes, element_ofSizes] at h
  obtain ⟨hlists, hshaped⟩ := shaped_of_foldrM h
  exact ⟨fun n hn => hlists n (List.mem_map_of_mem hn), hshaped⟩

theorem exists_defaultValue_ofSizes {t : CType} {dims : List Size} (h : ∀ n ∈ dims, Listable n) :
    ∃ v, (ofSizes t dims).defaultValue = .ok v := by
  simp only [defaultValue, sizes?_ofSizes, element_ofSizes]
  refine exists_foldrM fun n hn => ?_
  obtain ⟨m, hm, rfl⟩ := List.mem_map.1 hn
  exact h m hm

end DataType

/-- The bytes that a variable starts with. -/
def Variable.initialBytes (v : Variable) : List UInt8 :=
  match v.literal with
  | some x => Slot.image v.type.element x
  | none => List.replicate ((v.type.sizes?.getD []).prod * v.type.element.size) 0

theorem Variable.Typed.check_literal {v : Variable} (hv : v.Typed) {x : Value} (hx : v.literal = some x) :
    v.type.check x = .ok (v.type, v.warnings) := by
  obtain ⟨declared, h⟩ := hv
  rw [hx, Handles.typing, mapError_eq_ok] at h
  exact DataType.check_again h

theorem Variable.kind_of_initialValue {v : Variable} {e : Error} (h : v.initialValue = .error e) :
    e.kind ≠ .argumentsNumber := by
  unfold initialValue DataType.defaultValue at h
  split at h
  · cases h
  · split at h
    · cases h
      nofun
    · rw [DataType.eq_tooLarge_of_foldrM h]
      nofun

namespace Slot

theorem shape_ofAxes (t : CType) (dims : List Size) :
    shape (.ofAxes t (dims.map Subtype.val)) = .ok (DataType.ofSizes t dims) := by
  cases dims with
  | nil => rfl
  | cons n dims =>
    change DataType.ofDims t (((n :: dims).map Subtype.val).map some) = _
    rw [List.map_map]
    exact DataType.ofDims_sizes t (n :: dims)

theorem fresh_eq_ok_iff {t : NativeType} {s : Slot} :
    fresh t = .ok s ↔ t.allocated ≤ NativeType.allocationLimit ∧ zeroed t = s := by
  unfold fresh
  split_ifs with h
  · simp [Nat.not_le.2 h]
  · simp [Nat.le_of_not_lt h]

theorem fresh_eq_error_iff {t : NativeType} {e : Error} :
    fresh t = .error e ↔ NativeType.allocationLimit < t.allocated ∧ .storage .tooLarge = e := by
  unfold fresh
  split_ifs with h <;> simp [h]

theorem ofValue_eq_ok_iff {t : NativeType} {v : Value} {s : Slot} :
    ofValue t v = .ok s ↔
      t.allocated ≤ NativeType.allocationLimit ∧ ∃ ws, (zeroed t).store v = (s, .ok ws) := by
  simp only [ofValue, bind_eq_ok, fresh_eq_ok_iff, and_assoc, exists_and_left, exists_eq_left']
  refine and_congr_right fun _ => ?_
  rcases (zeroed t).store v with ⟨s', e | ws⟩ <;> simp

theorem ofValue_eq_error_iff {t : NativeType} {v : Value} {e : Error} :
    ofValue t v = .error e ↔
      NativeType.allocationLimit < t.allocated ∧ .storage .tooLarge = e ∨
        t.allocated ≤ NativeType.allocationLimit ∧ ((zeroed t).store v).2 = .error e := by
  simp only [ofValue, bind_eq_error, fresh_eq_error_iff, fresh_eq_ok_iff, and_assoc, exists_and_left, exists_eq_left']
  refine or_congr_right (and_congr_right fun _ => ?_)
  rcases (zeroed t).store v with ⟨s', e' | ws⟩ <;> simp

theorem kind_of_ofValue {t : NativeType} {v : Value} {e : Error} (h : ofValue t v = .error e) :
    e.kind ≠ .argumentsNumber := by
  rcases ofValue_eq_error_iff.1 h with ⟨-, rfl⟩ | ⟨-, h⟩
  · nofun
  · rcases of_store_eq_error (Prod.ext rfl h) with ⟨hcheck, -⟩ | ⟨rfl, -⟩
    · rcases kind_of_check hcheck with hkind | hkind <;> simp [hkind]
    · nofun

/-- A slot that holds a value is as large as its type says, also where the bytes of the type can not be counted in a
machine word. -/
theorem length_of_ofValue {t : NativeType} {dims : List Size} (hdims : dims.map Subtype.val = t.axes)
    (hd : shape t = .ok (.ofSizes t.element dims)) {v : Value} {s : Slot} (h : ofValue t v = .ok s) :
    s.type = t ∧ s.bytes.length = t.element.size * t.axes.prod := by
  obtain ⟨-, ws, h⟩ := ofValue_eq_ok_iff.1 h
  obtain ⟨hcheck, hle, rfl⟩ := of_store h
  have hshaped : v.Shaped t.element.Accepts t.axes := by
    obtain ⟨_, hshape, hcheck⟩ := bind_eq_ok.1 hcheck
    obtain ⟨r, hr, -⟩ := bind_eq_ok.1 hcheck
    cases hd.symm.trans hshape
    rw [← hdims]
    exact (DataType.check_ofSizes_iff.1 (mapError_eq_ok.1 hr)).1
  have hlen := (encodeAll_of_shaped hshaped).2
  have hsize : (zeroed t).bytes.length = t.storageSize := (zeroed t).size_eq
  refine ⟨rfl, le_antisymm ?_ ?_⟩
  · exact ((zeroed t).overwrite _).size_eq.trans_le t.storageSize_le
  · rw [((zeroed t).overwrite _).size_eq, ← hlen]
    exact hle.trans_eq hsize

variable {t : NativeType} {d : DataType} (ht : t.Solid) (hroom : t.allocated ≤ NativeType.allocationLimit)
  (hd : shape t = .ok d)
include ht hroom hd

omit hroom in
theorem exists_eq_ofSizes :
    ∃ dims : List Size, dims.map Subtype.val = t.axes ∧ d = DataType.ofSizes t.element dims := by
  obtain ⟨dims, hdims, h⟩ := exists_shape ht
  exact ⟨dims, hdims, Except.ok.inj (hd.symm.trans h)⟩

/-- A value that the type of the slot takes is stored in full. -/
theorem exists_ofValue {v : Value} {r : DataType × List RangeWarning} (h : d.check v = .ok r) :
    ∃ s, ofValue t v = .ok s ∧ s.type = t ∧ s.bytes = image d.element v := by
  obtain ⟨dims, hdims, rfl⟩ := exists_eq_ofSizes ht hd
  obtain ⟨hf, -⟩ := DataType.check_ofSizes_iff.1 h
  rw [DataType.Fits, hdims] at hf
  obtain ⟨s, hs, htype, hbytes⟩ := store_of_check (s := zeroed t) ht ((check_eq_ok_iff ht).2 ⟨hf, rfl⟩)
  refine ⟨s, ?_, htype, ?_⟩
  · exact ofValue_eq_ok_iff.2 ⟨hroom, _, hs⟩
  · rw [hbytes, DataType.element_ofSizes]
    rfl

omit ht in
theorem ofValue_of_check_eq_error {v : Value} {m : Mismatch} (h : d.check v = .error m) :
    ofValue t v = .error (.mismatch m) := by
  have hs : (zeroed t).check v = .error (.mismatch m) := by
    rw [check_eq hd, h]
    rfl
  refine ofValue_eq_error_iff.2 (.inr ⟨hroom, ?_⟩)
  rw [store, hs]

theorem exists_initial {v : Variable} (hv : v.Typed) (hvd : v.type = d)
    (hlists : v.literal = none → ∀ n ∈ t.axes, DataType.Listable n) :
    ∃ x s, v.initialValue = .ok x ∧ ofValue t x = .ok s ∧ s.type = t ∧ s.bytes = v.initialBytes := by
  subst hvd
  cases hl : v.literal with
  | some x =>
    obtain ⟨s, hs, htype, hbytes⟩ := exists_ofValue ht hroom hd (hv.check_literal hl)
    refine ⟨x, s, ?_, hs, htype, ?_⟩
    · rw [Variable.initialValue, hl]
    · rw [hbytes, Variable.initialBytes, hl]
  | none =>
    obtain ⟨dims, hdims, htype⟩ := exists_eq_ofSizes ht hd
    have hlistable : ∀ n ∈ dims, DataType.Listable n := fun n hn => hlists hl n (hdims ▸ List.mem_map_of_mem hn)
    obtain ⟨z, hz⟩ := DataType.exists_defaultValue_ofSizes (t := t.element) hlistable
    obtain ⟨-, hshaped⟩ := DataType.defaultValue_ofSizes hz
    have hleaf : ∀ x, x = t.element.zero → x.IsLeaf := fun x hx => hx ▸ t.element.accepts_zero.isLeaf
    have hfits : DataType.Fits t.element dims z := hshaped.imp fun x hx => hx ▸ t.element.accepts_zero
    have hcheck := DataType.check_ofSizes_iff.2 ⟨hfits, rfl, rfl⟩
    rw [← htype] at hcheck
    obtain ⟨s, hs, hst, hbytes⟩ := exists_ofValue ht hroom hd hcheck
    refine ⟨z, s, ?_, hs, hst, ?_⟩
    · simp only [Variable.initialValue, hl, htype, hz]
    · rw [hbytes, Variable.initialBytes, hl, image, htype, DataType.element_ofSizes, DataType.sizes?_ofSizes,
        CType.encodeAll_zero (hshaped.of_mem_leaves hleaf), hshaped.length_leaves hleaf]
      rfl

end Slot

end InlineAsm
