import InlineAsm.Proofs.NativeType
import InlineAsm.Proofs.Storage.Conversion
import InlineAsm.Storage.Slot

/-! What a slot does, in terms of its type: it accepts what fits the axes, writes the leaves one behind the other until
its bytes are full, and nests what it reads by the same axes. -/

namespace InlineAsm

theorem DataType.ofDims_sizes (t : CType) (dims : List Size) :
    ofDims t (dims.map fun n => some n.val) = .ok (ofSizes t dims) := by
  induction dims with
  | nil => rfl
  | cons n dims ih =>
    rw [List.map_cons, ofDims, ih]
    exact dif_pos n.2

namespace Slot

/-- Nesting takes the leaves of a value back to the value. -/
theorem nest_leaves {P : Value → Prop} (hP : ∀ v, P v → v.IsLeaf) :
    ∀ {dims : List Nat} {v : Value}, dims ≠ [] → (∀ n ∈ dims, 0 < n) → dims.prod < NativeType.wordLimit →
      v.Shaped P dims → nest dims v.leaves = .ok v := by
  intro dims
  induction dims with
  | nil => intro v h; exact absurd rfl h
  | cons n dims ih =>
    rintro _ - hpos hlt ⟨items, rfl, hl, hi⟩
    rw [Value.leaves_list]
    cases dims with
    | nil =>
      have hid : items.flatMap Value.leaves = items := by
        rw [List.flatMap_congr fun x hx => (hP x (hi x hx)).leaves_eq]
        exact List.flatMap_singleton' items
      rw [hid, nest]
      simp
    | cons m dims =>
      have hinner : ∀ k ∈ m :: dims, 0 < k := fun k hk => hpos k (List.mem_cons_of_mem n hk)
      have hn : 0 < n := hpos n List.mem_cons_self
      rw [List.prod_cons] at hlt
      have hlt' : (m :: dims).prod < NativeType.wordLimit := (Nat.le_mul_of_pos_left _ hn).trans_lt hlt
      have hprod : 0 < (m :: dims).prod := List.prod_pos hinner
      have hblocks : Bytes.blocks (m :: dims).prod (items.flatMap Value.leaves) = items.map Value.leaves := by
        rw [List.flatMap_def]
        refine Bytes.blocks_flatten hprod _ fun b hb => ?_
        obtain ⟨x, hx, rfl⟩ := List.mem_map.1 hb
        exact (hi x hx).length_leaves hP
      have hmap : (items.map Value.leaves).mapM (nest (m :: dims)) = .ok items := by
        rw [mapM_eq_ok, List.forall₂_map_left_iff, List.forall₂_same]
        exact fun x hx => ih (List.cons_ne_nil m dims) hinner hlt' (hi x hx)
      rw [nest, NativeType.count_eq hlt', if_neg hprod.ne', hblocks, hmap]
      rfl

variable {t : NativeType}

theorem shape_array {t : CType} {dims : List Nat} (h : dims ≠ []) :
    shape (.array t dims) = DataType.ofDims t (dims.map some) := by
  rw [shape]
  exact h

/-- The type of the values that a slot takes has the axes of the slot. -/
theorem exists_shape : ∀ {t : NativeType}, t.Solid →
    ∃ dims : List Size, dims.map Subtype.val = t.axes ∧ shape t = .ok (DataType.ofSizes t.element dims) := by
  intro t
  induction t with
  | scalar t => exact fun _ => ⟨[], rfl, rfl⟩
  | array t dims =>
    intro h
    obtain ⟨hne, hpos, -⟩ := h
    lift dims to List Size using hpos
    refine ⟨dims, rfl, ?_⟩
    rw [shape_array hne, List.map_map]
    exact DataType.ofDims_sizes t dims
  | pointer inner ih => exact ih

/-- The bytes of the leaves, one behind the other. -/
def image (t : CType) (v : Value) : List UInt8 := (t.encodeAll v.leaves).1

/-- Leaves that a type accepts are all encoded. -/
theorem encodeAll_of_accepts {t : CType} :
    ∀ {vs : List Value}, (∀ v ∈ vs, t.Accepts v) →
      ∃ bs : List (List UInt8), t.encodeAll vs = (bs.flatten, none) ∧ (∀ b ∈ bs, b.length = t.size) ∧
        bs.map t.decode = vs.map t.convert ∧ vs.map t.encode = bs.map .ok := by
  intro vs
  induction vs with
  | nil => exact fun _ => ⟨[], rfl, by simp, rfl, rfl⟩
  | cons v vs ih =>
    intro h
    obtain ⟨⟨w, hw⟩, hvs⟩ := List.forall_mem_cons.1 h
    obtain ⟨b, hb, hl, hd⟩ := CType.encode_of_check hw
    obtain ⟨bs, hbs, hls, hds, hes⟩ := ih hvs
    refine ⟨b :: bs, ?_, List.forall_mem_cons.2 ⟨hl, hls⟩, ?_, ?_⟩
    · rw [CType.encodeAll, hb]
      simp only [hbs, List.flatten_cons]
    · rw [List.map_cons, List.map_cons, hd, hds]
    · rw [List.map_cons, List.map_cons, hb, hes]

theorem encodeAll_eq_image {t : CType} {v : Value} (h : ∀ x ∈ v.leaves, t.Accepts x) :
    t.encodeAll v.leaves = (image t v, none) := by
  obtain ⟨bs, hbs, -⟩ := encodeAll_of_accepts h
  rw [image, hbs]

/-- The leaves of a value of the right shape are all encoded, and take as many bytes as there are leaves of the type. -/
theorem encodeAll_of_shaped {t : CType} {dims : List Nat} {v : Value} (hv : v.Shaped t.Accepts dims) :
    t.encodeAll v.leaves = (image t v, none) ∧ (image t v).length = t.size * dims.prod := by
  have hleaf : ∀ x, t.Accepts x → x.IsLeaf := fun _ hx => hx.isLeaf
  obtain ⟨bs, hbs, hl, hd, -⟩ := encodeAll_of_accepts (hv.of_mem_leaves hleaf)
  have hcount : bs.length = v.leaves.length := by simpa using congrArg List.length hd
  refine ⟨encodeAll_eq_image (hv.of_mem_leaves hleaf), ?_⟩
  rw [image, hbs, List.length_flatten, List.map_congr_left hl, List.map_const', List.sum_replicate, hcount,
    hv.length_leaves hleaf, smul_eq_mul, Nat.mul_comm]

variable {s : Slot} {v : Value} {ws : List RangeWarning}

/-- A slot checks values as the type that it takes. -/
theorem check_eq {d : DataType} (hd : shape s.type = .ok d) (v : Value) :
    s.check v = ((d.check v).mapError .mismatch).map Prod.snd := by
  rw [check, hd]
  change ((d.check v).mapError Error.mismatch >>= fun r => pure r.2) = _
  cases d.check v <;> rfl

theorem check_eq_ok_iff (hs : s.type.Solid) :
    s.check v = .ok ws ↔
      v.Shaped s.type.element.Accepts s.type.axes ∧ ws = v.leaves.filterMap s.type.element.warning? := by
  obtain ⟨dims, hdims, hshape⟩ := exists_shape hs
  simp only [check, hshape, bind_eq_ok, pure_eq_ok, mapError_eq_ok, Except.ok.injEq, exists_eq_left', Prod.exists,
    DataType.check_ofSizes_iff, DataType.Fits, hdims]
  refine ⟨?_, ?_⟩
  · intro h
    obtain ⟨_, _, ⟨hf, rfl, rfl⟩, rfl⟩ := h
    exact ⟨hf, rfl⟩
  · intro h
    obtain ⟨hf, rfl⟩ := h
    exact ⟨_, _, ⟨hf, rfl, rfl⟩, rfl⟩

theorem overwrite_bytes_of_le {front : List UInt8} (h : s.bytes.length ≤ front.length) :
    (s.overwrite front).bytes = front.take s.bytes.length := by
  change front.take s.bytes.length ++ s.bytes.drop front.length = _
  rw [List.drop_eq_nil_of_le h, List.append_nil]

theorem overwrite_bytes {front : List UInt8} (h : front.length = s.bytes.length) :
    (s.overwrite front).bytes = front := by
  rw [overwrite_bytes_of_le h.ge, ← h, List.take_length]

/-- What storing has done if it succeeds. -/
theorem of_store {s' : Slot} (h : s.store v = (s', .ok ws)) :
    s.check v = .ok ws ∧ (image s.type.element v).length ≤ s.bytes.length ∧
      s' = s.overwrite (image s.type.element v) := by
  unfold store at h
  cases hc : s.check v with
  | error e =>
    rw [hc] at h
    cases h
  | ok ws' =>
    simp only [hc] at h
    split_ifs at h with hlt
    · simp at h
    · cases hr : (s.type.element.encodeAll v.leaves).2 with
      | some m => simp [hr] at h
      | none =>
        simp only [hr, Prod.mk.injEq, Except.ok.injEq] at h
        exact ⟨congrArg _ h.2, Nat.le_of_not_lt hlt, h.1.symm⟩

/-- A value that a slot accepts fills the slot, whatever was in there. -/
theorem store_of_check (hs : s.type.Solid) (h : s.check v = .ok ws) :
    ∃ s', s.store v = (s', .ok ws) ∧ s'.type = s.type ∧ s'.bytes = image s.type.element v := by
  obtain ⟨hf, -⟩ := (check_eq_ok_iff hs).1 h
  obtain ⟨hencode, hlen⟩ := encodeAll_of_shaped hf
  rw [← hs.storageSize_eq, ← s.size_eq] at hlen
  refine ⟨s.overwrite (image s.type.element v), ?_, rfl, overwrite_bytes hlen⟩
  simp only [store, h, hencode, if_neg hlen.not_gt]

theorem of_store_eq_ok (hs : s.type.Solid) {s' : Slot} (h : s.store v = (s', .ok ws)) :
    s.check v = .ok ws ∧ s'.type = s.type ∧ s'.bytes = image s.type.element v := by
  cases hc : s.check v with
  | error e =>
    simp only [store, hc, Prod.mk.injEq, reduceCtorEq, and_false] at h
  | ok ws' =>
    obtain ⟨s'', hstore, htype, hbytes⟩ := store_of_check hs hc
    cases hstore.symm.trans h
    exact ⟨rfl, htype, hbytes⟩

/-- A slot whose bytes decode to the leaves of a value of its shape is read as that value. -/
theorem load_of_decode (hs : s.type.Solid) (hv : v.Shaped Value.IsLeaf s.type.axes) {bs : List (List UInt8)}
    (hbytes : s.bytes = bs.flatten) (hl : ∀ b ∈ bs, b.length = s.type.element.size)
    (hd : bs.map s.type.element.decode = v.leaves) : s.load = .ok v := by
  have hblocks : Bytes.blocks s.type.element.size s.bytes = bs := by
    rw [hbytes, Bytes.blocks_flatten s.type.element.size_pos bs hl]
  rw [load, hblocks, hd]
  rcases hs.pointee_cases with ⟨hp, ha⟩ | ⟨hp, ha⟩
  · rw [ha] at hv
    rw [hp, hv.leaves_eq]
    rfl
  · rw [hp]
    exact nest_leaves (fun _ h => h) ha hs.pos_of_mem_axes hs.prod_lt hv

/-- As long as no axis is empty, any leaves can be nested. -/
theorem exists_nest : ∀ {dims : List Nat}, (∀ n ∈ dims, 0 < n) → dims.prod < NativeType.wordLimit →
    ∀ leaves, ∃ v, nest dims leaves = .ok v := by
  intro dims
  induction dims with
  | nil => intro _ _ leaves; exact ⟨_, rfl⟩
  | cons n dims ih =>
    intro hpos hlt leaves
    obtain ⟨hn, hinner⟩ := List.forall_mem_cons.1 hpos
    rw [List.prod_cons] at hlt
    have hlt' : dims.prod < NativeType.wordLimit := (Nat.le_mul_of_pos_left _ hn).trans_lt hlt
    cases dims with
    | nil => exact ⟨_, rfl⟩
    | cons m dims =>
      have hprod : 0 < (m :: dims).prod := List.prod_pos hinner
      obtain ⟨vs, hvs⟩ := exists_mapM_eq_ok_iff.2 fun b (_ : b ∈ Bytes.blocks (m :: dims).prod leaves) =>
        ih hinner hlt' b
      refine ⟨.list vs, ?_⟩
      rw [nest, NativeType.count_eq hlt', if_neg hprod.ne', hvs]
      rfl

theorem exists_load (hs : s.type.Solid) : ∃ v, s.load = .ok v := by
  unfold load
  rcases hs.pointee_cases with ⟨hp, -⟩ | ⟨hp, -⟩
  · rw [hp]
    exact ⟨_, rfl⟩
  · rw [hp]
    exact exists_nest hs.pos_of_mem_axes hs.prod_lt _

/-- What is read back after a value was stored: each leaf converted to the type of the slot. -/
theorem load_image (hs : s.type.Solid) (hv : v.Shaped s.type.element.Accepts s.type.axes)
    (hbytes : s.bytes = image s.type.element v) : s.load = .ok (v.mapLeaves s.type.element.convert) := by
  have hleaf : ∀ x, s.type.element.Accepts x → x.IsLeaf := fun _ hx => hx.isLeaf
  have hconv : ∀ x, s.type.element.Accepts x → (s.type.element.convert x).IsLeaf := fun _ hx => hx.isLeaf_convert
  obtain ⟨bs, hbs, hl, hd, -⟩ := encodeAll_of_accepts (hv.of_mem_leaves hleaf)
  refine load_of_decode hs (hv.mapLeaves hleaf hconv) ?_ hl ?_
  · rw [hbytes, image, hbs]
  · rw [hd, hv.leaves_mapLeaves hleaf hconv]

end Slot

end InlineAsm
