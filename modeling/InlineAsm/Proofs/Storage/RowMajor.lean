import InlineAsm.Proofs.Value.Shape
import Mathlib.Data.List.Forall2

/-! Row-major order. Each place in an array has one position, each position below the number of elements belongs to one
place, and the leaves of a nested value stand in the order of these positions. -/

namespace InlineAsm

/-- A place in an array with these axes: one index for each axis, below its length. -/
def InBounds (index dims : List Nat) : Prop := List.Forall₂ (· < ·) index dims

/-- The position of a place among all elements. Each axis multiplies what the axes before it have come to. -/
def rowMajor (dims index : List Nat) : Nat := (dims.zip index).foldl (fun position p => position * p.1 + p.2) 0

theorem foldl_position {index dims : List Nat} (h : InBounds index dims) :
    ∀ start : Nat, (dims.zip index).foldl (fun position p => position * p.1 + p.2) start =
      start * dims.prod + rowMajor dims index := by
  induction h with
  | nil => simp [rowMajor]
  | cons _ _ ih =>
    intro start
    rw [rowMajor, List.zip_cons_cons, List.foldl_cons, List.foldl_cons, ih, ih, List.prod_cons]
    ring

theorem rowMajor_cons {index dims : List Nat} (h : InBounds index dims) (i n : Nat) :
    rowMajor (n :: dims) (i :: index) = i * dims.prod + rowMajor dims index := by
  rw [rowMajor, List.zip_cons_cons, List.foldl_cons, foldl_position h, Nat.zero_mul, Nat.zero_add]

theorem rowMajor_lt {index dims : List Nat} (h : InBounds index dims) : rowMajor dims index < dims.prod := by
  induction h with
  | nil => exact Nat.one_pos
  | @cons i n index dims hi h ih =>
    rw [rowMajor_cons h, List.prod_cons]
    calc i * dims.prod + rowMajor dims index < i * dims.prod + dims.prod := Nat.add_lt_add_left ih _
      _ = (i + 1) * dims.prod := (Nat.succ_mul _ _).symm
      _ ≤ n * dims.prod := Nat.mul_le_mul_right _ hi

theorem existsUnique_index :
    ∀ {dims : List Nat} {n : Nat}, n < dims.prod → ∃! index, InBounds index dims ∧ rowMajor dims index = n := by
  intro dims
  induction dims with
  | nil =>
    intro n hn
    obtain rfl : n = 0 := by simpa using hn
    refine ⟨[], ⟨.nil, rfl⟩, ?_⟩
    intro index h
    exact List.forall₂_nil_right_iff.1 h.1
  | cons d dims ih =>
    intro n hn
    rw [List.prod_cons] at hn
    have hp : 0 < dims.prod := Nat.pos_of_mul_pos_left (Nat.zero_lt_of_lt hn)
    obtain ⟨index, ⟨hindex, hmod⟩, hunique⟩ := ih (Nat.mod_lt n hp)
    refine ⟨n / dims.prod :: index, ⟨.cons ?_ hindex, ?_⟩, ?_⟩
    · exact (Nat.div_lt_iff_lt_mul hp).2 hn
    · rw [rowMajor_cons hindex, hmod, Nat.div_add_mod']
    · intro other h
      obtain ⟨hother, rfl⟩ := h
      obtain ⟨i, rest, -, hrest, rfl⟩ := List.forall₂_cons_right_iff.1 hother
      have hlt := rowMajor_lt hrest
      rw [rowMajor_cons hrest, Nat.mul_add_mod', Nat.mod_eq_of_lt hlt] at hunique
      rw [rowMajor_cons hrest, Nat.add_comm, Nat.add_mul_div_right _ _ hp, Nat.div_eq_of_lt hlt, Nat.zero_add,
        hunique rest ⟨hrest, rfl⟩]

namespace Value

/-- The value at a place, one list deeper with each index. -/
def at? : Value → List Nat → Option Value
  | v, [] => some v
  | .list items, i :: index => items[i]?.bind fun v => v.at? index
  | _, _ :: _ => none

/-- The leaf at a place stands among the leaves at the position of that place. -/
theorem Shaped.exists_leaf {P : Value → Prop} (hP : ∀ v, P v → v.IsLeaf) {index dims : List Nat}
    (h : InBounds index dims) :
    ∀ {v : Value}, v.Shaped P dims →
      ∃ x, P x ∧ v.at? index = some x ∧ v.leaves[rowMajor dims index]? = some x := by
  induction h with
  | nil =>
    intro v hv
    refine ⟨v, hv, rfl, ?_⟩
    rw [(hP v hv).leaves_eq]
    rfl
  | @cons i n index dims hi h ih =>
    intro v hv
    obtain ⟨items, rfl, rfl, hitems⟩ := hv
    obtain ⟨x, hx, hat, hleaf⟩ := ih (hitems items[i] (List.getElem_mem hi))
    have hlength : ∀ b ∈ items.map leaves, b.length = dims.prod := by
      intro b hb
      obtain ⟨y, hy, rfl⟩ := List.mem_map.1 hb
      exact (hitems y hy).length_leaves hP
    refine ⟨x, hx, ?_, ?_⟩
    · rw [at?, List.getElem?_eq_getElem hi]
      exact hat
    · rw [leaves_list, rowMajor_cons h, List.flatMap_def, Bytes.getElem?_flatten (rowMajor_lt h) hlength,
        List.getElem?_map, List.getElem?_eq_getElem hi]
      exact hleaf

end Value

end InlineAsm
