import InlineAsm.Proofs.Storage.Atomic
import InlineAsm.Proofs.Storage.Loading
import InlineAsm.Proofs.Storage.RowMajor

/-! How an array lies in its slot: the bytes of each leaf stand at the row-major position of its place, without gaps,
and loading reads each leaf from there. -/

namespace InlineAsm

/-- The bytes write the value as a number whose least significant byte comes first. -/
structure CType.Encoding (t : CType) (x : Value) (bytes : List UInt8) : Prop where
  length : bytes.length = t.size
  integer : t.isInteger → ∃ i, x = .int i ∧ (Bytes.toNat bytes : Int) ≡ i [ZMOD 2 ^ (8 * t.size)]
  character : t = .char → ∃ c, x = .ofChar c ∧ Bytes.toNat bytes = c.toNat
  double : t = .double → ∃ d, x.float? = some d ∧ Bytes.toNat bytes = d.bits.toNat
  single : t = .float → ∃ d, x.float? = some d ∧ Bytes.toNat bytes = d.toSingle.bits.toNat

namespace CType

variable {t : CType} {x : Value} {bytes : List UInt8}

theorem toNat_encode_int (ht : t.isInteger) {i : Int} (h : t.encode (.int i) = .ok bytes) :
    (Bytes.toNat bytes : Int) ≡ i [ZMOD 2 ^ (8 * t.size)] := by
  rw [encode_int ht] at h
  obtain rfl := Except.ok.inj h
  rw [Bytes.toNat_ofNat_of_lt (emod_lt_pow t.size i), toNat_emod_twoPow]
  exact Int.mod_modEq _ _

theorem encoding_of_encode (hx : t.Accepts x) (h : t.encode x = .ok bytes) : t.Encoding x bytes := by
  obtain ⟨w, hw⟩ := hx
  obtain ⟨bytes', hbytes', hlength, -⟩ := encode_of_check hw
  obtain rfl := Except.ok.inj (hbytes'.symm.trans h)
  rcases accepted_cases hw with ⟨i, min, max, rfl, hr, -⟩ | ⟨rfl | rfl, ⟨d, hd⟩, -⟩ | ⟨rfl, ⟨c, rfl, hc⟩, -⟩
  · have ht : t.isInteger := by rw [isInteger, hr]; rfl
    refine ⟨hlength, fun _ => ⟨i, rfl, toNat_encode_int ht h⟩, ?_, ?_, ?_⟩ <;>
      · rintro rfl
        cases ht
  -- For each of the other types one clause remains.
  · refine ⟨hlength, ?_, ?_, ?_, ?_⟩ <;> intro ht <;> cases ht
    refine ⟨d, hd, ?_⟩
    simp only [encode, storage, hd, if_pos, Except.ok.injEq] at h
    rw [← h]
    exact Bytes.toNat_ofNat_of_lt d.toSingle.bits.isLt
  · refine ⟨hlength, ?_, ?_, ?_, ?_⟩ <;> intro ht <;> cases ht
    refine ⟨d, hd, ?_⟩
    simp only [encode, storage, hd, Except.ok.injEq] at h
    rw [← h]
    exact Bytes.toNat_ofNat_of_lt d.bits.isLt
  · refine ⟨hlength, ?_, ?_, ?_, ?_⟩ <;> intro ht <;> cases ht
    refine ⟨c, rfl, ?_⟩
    simp only [encode, storage, Value.ofChar, String.toList_singleton, Except.ok.injEq] at h
    rw [← h]
    exact Bytes.toNat_singleton hc

end CType

namespace Slot

/-- The bytes of the element at a position. -/
def block (s : Slot) (position : Nat) : List UInt8 :=
  (s.bytes.drop (s.type.element.size * position)).take s.type.element.size

variable {s s' : Slot} {v : Value} {ws : List RangeWarning}

/-- What is loaded has at each place what the block of that place stands for. -/
theorem exists_load_blocks (hs : s.type.Solid) :
    ∃ u, s.load = .ok u ∧ ∀ index, InBounds index s.type.axes →
      u.at? index = some (s.type.element.decode (s.block (rowMajor s.type.axes index))) := by
  obtain ⟨bs, u, hbs, hl, hleaves, hload, hu⟩ := exists_load_decoded hs
  refine ⟨u, hload, ?_⟩
  intro index hindex
  obtain ⟨x, -, hat, hx⟩ := hu.exists_leaf (fun _ hx => hx.accepts.isLeaf) hindex
  rw [hleaves, List.getElem?_map] at hx
  obtain ⟨b, hb, rfl⟩ := Option.map_eq_some_iff.1 hx
  rw [hat, block, hbs, Bytes.take_drop_flatten hl hb]

/-- Each block that a leaf was stored in holds the leaf, whatever the axes of the slot are. -/
theorem encode_of_leaf (h : s.store v = (s', .ok ws)) {k : Nat} {x : Value} (hk : v.leaves[k]? = some x) :
    s.type.element.Accepts x ∧ s.type.element.encode x = .ok (s'.block k) := by
  obtain ⟨hcheck, hle, rfl⟩ := of_store h
  have haccepts := accepts_of_check hcheck
  obtain ⟨bs, hbs, hl, -, hencode⟩ := encodeAll_of_accepts haccepts
  have himage : image s.type.element v = bs.flatten := congrArg Prod.fst hbs
  have hget := congrArg (·[k]?) hencode
  simp only [List.getElem?_map, hk, Option.map_some] at hget
  obtain ⟨b, hb, hxb⟩ := Option.map_eq_some_iff.1 hget.symm
  have hblock := Bytes.take_drop_flatten hl hb
  have hlength := congrArg List.length hblock
  rw [List.length_take, List.length_drop, hl b (List.mem_of_getElem? hb)] at hlength
  have hpos := s.type.element.size_pos
  refine ⟨haccepts x (List.mem_of_getElem? hk), ?_⟩
  -- what the slot had before may follow the leaves, but the block ends before it
  change _ = Except.ok ((((image s.type.element v).take s.bytes.length ++ _).drop (s.type.element.size * k)).take
    s.type.element.size)
  rw [List.take_of_length_le hle, himage, List.drop_append_of_le_length (by omega),
    List.take_append_of_le_length (by rw [List.length_drop]; omega), hblock, hxb]

/-- The block of each place holds the leaf that was stored at this place. -/
theorem encode_of_store (hs : s.type.Solid) (h : s.store v = (s', .ok ws)) {index : List Nat}
    (hindex : InBounds index s.type.axes) :
    ∃ x, v.at? index = some x ∧ s.type.element.Accepts x ∧
      s.type.element.encode x = .ok (s'.block (rowMajor s.type.axes index)) := by
  obtain ⟨hv, -⟩ := (check_eq_ok_iff hs).1 (of_store h).1
  obtain ⟨x, -, hat, hposition⟩ := hv.exists_leaf (fun _ hx => hx.isLeaf) hindex
  exact ⟨x, hat, encode_of_leaf h hposition⟩

/-- Each byte of a slot belongs to the block of exactly one place. -/
theorem existsUnique_block (hs : s.type.Solid) {n : Nat} (hn : n < s.bytes.length) :
    ∃! index, InBounds index s.type.axes ∧
      s.type.element.size * rowMajor s.type.axes index ≤ n ∧
      n < s.type.element.size * rowMajor s.type.axes index + s.type.element.size := by
  have hw := s.type.element.size_pos
  rw [s.size_eq, hs.storageSize_eq] at hn
  obtain ⟨index, hindex, hunique⟩ := existsUnique_index (Nat.div_lt_of_lt_mul hn)
  have hdiv : ∀ p, s.type.element.size * p ≤ n ∧ n < s.type.element.size * p + s.type.element.size ↔
      p = n / s.type.element.size := by
    intro p
    rw [eq_comm, Nat.div_eq_iff hw, Nat.mul_comm]
    omega
  refine ⟨index, ⟨hindex.1, (hdiv _).2 hindex.2⟩, ?_⟩
  intro other h
  exact hunique other ⟨h.1, (hdiv _).1 h.2⟩

/-- Two rows of three shorts behind a pointer, with all bits of the storage set. -/
def rowsOfThree : Slot := ⟨.pointer (.array .short [2, 3]), List.replicate 12 0xff, rfl⟩

/-- Two rows of three integers, the last of them beyond the range of `short`. -/
def endingInWrap : Value := .list [.list [.int 1, .int 2, .int 3], .list [.int (-4), .int 5, .int 70000]]

end Slot

end InlineAsm
