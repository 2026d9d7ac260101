import InlineAsm.Proofs.DataType.Native
import InlineAsm.Proofs.Storage.Initial

/-! Any bytes that compiled code may leave in a slot are read as a value of the slot's type. Except for numbers of
single precision, of which some bit patterns are not kept, storing that value gives the same bytes again. -/

namespace InlineAsm

theorem toNat_ofNat_of_byte {n : Nat} (h : n < 256) : (Char.ofNat n).toNat = n := by
  have hv : n.isValidChar := .inl (by omega)
  rw [Char.ofNat, dif_pos hv]
  rfl

namespace CType

variable {t : CType} {bytes : List UInt8}

/-- A value that a type accepts without a warning. -/
def AcceptsSilently (t : CType) (v : Value) : Prop := t.check v = .ok none

theorem AcceptsSilently.accepts {v : Value} (h : t.AcceptsSilently v) : t.Accepts v := ⟨none, h⟩

theorem AcceptsSilently.warning?_eq {v : Value} (h : t.AcceptsSilently v) : t.warning? v = none := by
  rw [warning?, h]
  rfl

theorem toNat_lt_twoPow (h : bytes.length = t.size) : Bytes.toNat bytes < twoPow (8 * t.size) := by
  rw [twoPow_eq, pow_mul, ← h]
  exact Bytes.toNat_lt bytes

theorem ofNat_size_toNat (h : bytes.length = t.size) : Bytes.ofNat t.size (Bytes.toNat bytes) = bytes := by
  rw [← h, Bytes.ofNat_toNat]

/-- The integer read is the value of the type that is congruent to the number that the bytes write. -/
theorem decode_integer (ht : t.isInteger) (h : bytes.length = t.size) :
    t.decode bytes = .int (t.wrap (Bytes.toNat bytes)) := by
  have hn : ((Bytes.toNat bytes : Int) % twoPow (8 * t.size)).toNat = Bytes.toNat bytes := by
    rw [← Int.natCast_mod, Int.toNat_natCast, Nat.mod_eq_of_lt (toNat_lt_twoPow h)]
  have hd := decode_wrap ht (Bytes.toNat bytes)
  rwa [hn, ofNat_size_toNat h] at hd

theorem check_int_of_holds {j : Int} (h : t.Holds j) : t.AcceptsSilently (.int j) := by
  obtain ⟨min, max, hr, hmin, hmax⟩ := h
  have hin : ¬(j < min ∨ max < j) := by omega
  cases t <;> cases hr
  all_goals exact congrArg Except.ok (if_neg hin)

/-- Whatever the bytes are, what is read passes the check: an integer is one of the values of its type, and a character
fits into one byte. -/
theorem acceptsSilently_decode (h : bytes.length = t.size) : t.AcceptsSilently (t.decode bytes) := by
  by_cases ht : t.isInteger
  · rw [decode_integer ht h]
    exact check_int_of_holds ((residue_iff ht _ _).2 rfl).1
  · have hn := toNat_lt_twoPow h
    cases t with
    | float => rfl
    | double => rfl
    | char =>
      have hc := toNat_ofNat_of_byte hn
      have hle : Bytes.toNat bytes ≤ 0xFF := Nat.le_of_lt_succ hn
      simp only [AcceptsSilently, check, decode, storage, Value.ofChar, String.toList_singleton, hc]
      exact if_pos hle
    | _ => exact absurd rfl ht

theorem encode_decode (ht : t ≠ .float) (h : bytes.length = t.size) : t.encode (t.decode bytes) = .ok bytes := by
  have hn := toNat_lt_twoPow h
  have hbytes := ofNat_size_toNat h
  by_cases hi : t.isInteger
  · have hmod : t.wrap (Bytes.toNat bytes) % twoPow (8 * t.size) = Bytes.toNat bytes % twoPow (8 * t.size) := by
      have hw := ((residue_iff hi (Bytes.toNat bytes) _).2 rfl).2
      rw [twoPow_eq]
      exact_mod_cast hw
    rw [decode_integer hi h, encode_int hi, hmod, ← Int.natCast_mod, Int.toNat_natCast, Nat.mod_eq_of_lt hn, hbytes]
  · cases t with
    | double =>
      have hbits : (BitVec.ofNat 64 (Bytes.toNat bytes)).toNat = Bytes.toNat bytes := by
        rw [BitVec.toNat_ofNat]
        exact Nat.mod_eq_of_lt hn
      change Except.ok (Bytes.ofNat 8 (BitVec.ofNat 64 (Bytes.toNat bytes)).toNat) = _
      rw [hbits]
      exact congrArg Except.ok hbytes
    | char =>
      have hc := toNat_ofNat_of_byte hn
      simp only [encode, decode, storage, Value.ofChar, String.toList_singleton, hc]
      exact congrArg Except.ok hbytes
    | float => exact absurd rfl ht
    | _ => exact absurd rfl hi

theorem encodeAll_decode (ht : t ≠ .float) {bs : List (List UInt8)} (h : ∀ b ∈ bs, b.length = t.size) :
    t.encodeAll (bs.map t.decode) = (bs.flatten, none) := by
  induction bs with
  | nil => rfl
  | cons b bs ih =>
    obtain ⟨hb, hbs⟩ := List.forall_mem_cons.1 h
    rw [List.map_cons, encodeAll, encode_decode ht hb]
    simp only [ih hbs, List.flatten_cons]

end CType

namespace Slot

variable {s : Slot}

/-- The bytes of a slot are cut into scalars, whatever they are, and the scalars form a value of the slot's shape. -/
theorem exists_load_decoded (hs : s.type.Solid) :
    ∃ (bs : List (List UInt8)) (v : Value), s.bytes = bs.flatten ∧ (∀ b ∈ bs, b.length = s.type.element.size) ∧
      v.leaves = bs.map s.type.element.decode ∧ s.load = .ok v ∧
      v.Shaped s.type.element.AcceptsSilently s.type.axes := by
  have hleaf : ∀ x, s.type.element.AcceptsSilently x → x.IsLeaf := fun _ hx => hx.accepts.isLeaf
  have hlen : s.bytes.length = s.type.axes.prod * s.type.element.size := by
    rw [s.size_eq, hs.storageSize_eq, Nat.mul_comm]
  obtain ⟨bs, hcount, hl, hbs⟩ := Bytes.exists_blocks hlen
  have hscalars : ∀ x ∈ bs.map s.type.element.decode, s.type.element.AcceptsSilently x := by
    intro x hx
    obtain ⟨b, hb, rfl⟩ := List.mem_map.1 hx
    exact CType.acceptsSilently_decode (hl b hb)
  obtain ⟨v, hv, hleaves⟩ := Value.Shaped.exists_of_leaves hleaf (by rw [List.length_map, hcount]) hscalars
  exact ⟨bs, v, hbs.symm, hl, hleaves, load_of_decode hs (hv.imp hleaf) hbs.symm hl hleaves.symm, hv⟩

theorem exists_load_silently (hs : s.type.Solid) :
    ∃ v, s.load = .ok v ∧ v.Shaped s.type.element.AcceptsSilently s.type.axes ∧
      (s.type.element ≠ .float → image s.type.element v = s.bytes) := by
  obtain ⟨bs, v, hbs, hl, hleaves, hload, hv⟩ := exists_load_decoded hs
  refine ⟨v, hload, hv, fun hne => ?_⟩
  rw [image, hleaves, CType.encodeAll_decode hne hl, hbs]

theorem warnings_of_silent {t : CType} {dims : List Nat} {v : Value} (hv : v.Shaped t.AcceptsSilently dims) :
    v.leaves.filterMap t.warning? = [] := by
  have hleaf : ∀ x, t.AcceptsSilently x → x.IsLeaf := fun _ hx => hx.accepts.isLeaf
  exact List.filterMap_eq_nil_iff.2 fun x hx => (hv.of_mem_leaves hleaf x hx).warning?_eq

theorem store_of_silent (hs : s.type.Solid) {v : Value} (hv : v.Shaped s.type.element.AcceptsSilently s.type.axes) :
    ∃ s', s.store v = (s', .ok []) ∧ s'.type = s.type ∧ s'.bytes = image s.type.element v :=
  store_of_check hs ((check_eq_ok_iff hs).2 ⟨hv.imp fun _ hx => hx.accepts, (warnings_of_silent hv).symm⟩)

/-- A slot for a declared type, or one behind the pointer of an output, has the element and the axes that are
declared. -/
theorem solid_of_ofAxes {t : CType} {dims : List Size}
    (hfit : t.size * (dims.map Subtype.val).prod < NativeType.wordLimit)
    (hs : s.type = .ofAxes t (dims.map Subtype.val) ∨ s.type = .pointer (.ofAxes t (dims.map Subtype.val))) :
    s.type.Solid ∧ s.type.element = t ∧ s.type.axes = dims.map Subtype.val := by
  have hsolid := NativeType.solid_ofAxes hfit
  have helement := NativeType.element_ofAxes t (dims.map Subtype.val)
  have haxes := NativeType.axes_ofAxes t (dims.map Subtype.val)
  rcases hs with hs | hs <;> rw [hs] <;> exact ⟨hsolid, helement, haxes⟩

/-- Whatever lies in a slot for a declared type is read as a value of that type, and storing it into any such slot
gives the same bytes, numbers of single precision apart. -/
theorem load_faithful {d : DataType} (hd : d.isResolved)
    (hfit : d.element.size * (d.sizes?.getD []).prod < NativeType.wordLimit) :
    ∃ t, d.native? = some t ∧ ∀ s : Slot, (s.type = t ∨ s.type = .pointer t) →
      ∃ v, s.load = .ok v ∧ d.check v = .ok (d, []) ∧
        (d.element.isInteger ∨ d.element = .char ∨ d.element = .double →
          ∀ s₁ : Slot, (s₁.type = t ∨ s₁.type = .pointer t) →
            ∃ s₂, s₁.store v = (s₂, .ok []) ∧ s₂.type = s₁.type ∧ s₂.bytes = s.bytes) := by
  obtain ⟨dims, hdims⟩ := DataType.exists_ofSizes hd
  generalize d.element = t at hdims hfit ⊢
  subst hdims
  rw [DataType.sizes?_ofSizes] at hfit
  refine ⟨_, DataType.native?_ofSizes t dims, fun s htype => ?_⟩
  obtain ⟨hs, helement, haxes⟩ := solid_of_ofAxes hfit htype
  obtain ⟨v, hload, hv, himage⟩ := exists_load_silently hs
  rw [helement] at hv himage
  rw [haxes] at hv
  refine ⟨v, hload, ?_, fun hkept s₁ htype₁ => ?_⟩
  · exact DataType.check_ofSizes_iff.2 ⟨hv.imp fun _ hx => hx.accepts, rfl, (warnings_of_silent hv).symm⟩
  · obtain ⟨hs₁, helement₁, haxes₁⟩ := solid_of_ofAxes hfit htype₁
    obtain ⟨s₂, hstore, htype₂, hbytes⟩ := store_of_silent (v := v) hs₁ (by rwa [helement₁, haxes₁])
    have hne : t ≠ .float := by
      rintro rfl
      revert hkept
      decide
    exact ⟨s₂, hstore, htype₂, by rw [hbytes, helement₁, himage hne]⟩

/-- Two shorts behind a pointer, both with the bit of the sign set. -/
def negativeShorts : Slot := ⟨.pointer (.array .short [2]), [0xff, 0xff, 0x00, 0x80], rfl⟩

theorem load_faithful_negative :
    negativeShorts.load = .ok (.list [.int (-1), .int (-32768)]) ∧
    ∃ s₂, (zeroed (.array .short [2])).store (.list [.int (-1), .int (-32768)]) = (s₂, .ok []) ∧
      s₂.bytes = negativeShorts.bytes := by
  obtain ⟨_, ⟨⟩, hall⟩ := load_faithful (d := .array (.scalar .short) (some ⟨2, by decide⟩)) (by decide) (by decide)
  obtain ⟨v, hload, -, hstore⟩ := hall negativeShorts (.inr rfl)
  have hblocks : negativeShorts.bytes = [[0xff, 0xff], [0x00, 0x80]].flatten := rfl
  have hread : negativeShorts.load = .ok (.list [.int (-1), .int (-32768)]) :=
    load_of_decode ⟨by decide, by decide, by decide⟩ ⟨_, rfl, rfl, by simp [Value.Shaped, Value.IsLeaf]⟩ hblocks
      (by decide) rfl
  obtain rfl := Except.ok.inj (hread.symm.trans hload)
  obtain ⟨s₂, hs₂, -, hbytes⟩ := hstore (.inl rfl) (zeroed (.array .short [2])) (.inl rfl)
  exact ⟨hload, s₂, hs₂, hbytes⟩

end Slot

end InlineAsm
