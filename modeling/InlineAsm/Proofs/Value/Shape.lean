import InlineAsm.Proofs.Storage.Bytes
import InlineAsm.Value
import Mathlib.Algebra.BigOperators.Group.List.Basic
import Mathlib.Algebra.Group.Action.Defs

/-! Values that are nested in lists as the elements of an array are: on every axis all lists have the same length, and
the leaves lie below as many lists as there are axes. -/

namespace InlineAsm.Value

def IsLeaf (v : Value) : Prop := ∀ items, v ≠ .list items

/-- Lists of lists with the lengths `dims`, outermost first, and `P` on the leaves. -/
def Shaped (P : Value → Prop) : List Nat → Value → Prop
  | [], v => P v
  | n :: dims, v => ∃ items, v = .list items ∧ items.length = n ∧ ∀ x ∈ items, x.Shaped P dims

mutual

/-- The same lists with `f` applied to the leaves. -/
def mapLeaves (f : Value → Value) : Value → Value
  | .list items => .list (mapLeavesAll f items)
  | v => f v

def mapLeavesAll (f : Value → Value) : List Value → List Value
  | [] => []
  | v :: rest => v.mapLeaves f :: mapLeavesAll f rest

end

theorem leavesAll_eq (vs : List Value) : leavesAll vs = vs.flatMap leaves := by
  induction vs with
  | nil => rfl
  | cons v vs ih => rw [leavesAll, ih, List.flatMap_cons]

theorem mapLeavesAll_eq (f : Value → Value) (vs : List Value) : mapLeavesAll f vs = vs.map (mapLeaves f) := by
  induction vs with
  | nil => rfl
  | cons v vs ih => rw [mapLeavesAll, ih, List.map_cons]

theorem leaves_list (items : List Value) : (Value.list items).leaves = items.flatMap leaves := leavesAll_eq items

theorem mapLeaves_list (f : Value → Value) (items : List Value) :
    (Value.list items).mapLeaves f = .list (items.map (mapLeaves f)) := by
  rw [mapLeaves, mapLeavesAll_eq]

theorem IsLeaf.leaves_eq {v : Value} (h : v.IsLeaf) : v.leaves = [v] := by
  cases v with
  | list items => exact absurd rfl (h items)
  | int | float | text | tuple | unit => rfl

theorem IsLeaf.mapLeaves_eq {v : Value} (h : v.IsLeaf) (f : Value → Value) : v.mapLeaves f = f v := by
  cases v with
  | list items => exact absurd rfl (h items)
  | int | float | text | tuple | unit => rfl

namespace Shaped

theorem imp {P Q : Value → Prop} (h : ∀ v, P v → Q v) :
    ∀ {dims : List Nat} {v : Value}, v.Shaped P dims → v.Shaped Q dims := by
  intro dims
  induction dims with
  | nil => exact fun hv => h _ hv
  | cons n dims ih =>
    intro y hq
    obtain ⟨items, rfl, hl, hi⟩ := hq
    exact ⟨items, rfl, hl, fun x hx => ih (hi x hx)⟩

variable {P : Value → Prop} (hP : ∀ v, P v → v.IsLeaf)
include hP

theorem length_leaves : ∀ {dims : List Nat} {v : Value}, v.Shaped P dims → v.leaves.length = dims.prod := by
  intro dims
  induction dims with
  | nil => intro v h; rw [(hP v h).leaves_eq]; rfl
  | cons n dims ih =>
    intro y hq
    obtain ⟨items, rfl, rfl, h⟩ := hq
    rw [leaves_list, List.length_flatMap, List.prod_cons]
    have hm : items.map (fun x => x.leaves.length) = items.map fun _ => dims.prod :=
      List.map_congr_left fun x hx => ih (h x hx)
    rw [hm, List.map_const', List.sum_replicate, smul_eq_mul]

theorem of_mem_leaves : ∀ {dims : List Nat} {v : Value}, v.Shaped P dims → ∀ x ∈ v.leaves, P x := by
  intro dims
  induction dims with
  | nil =>
    intro v h x hx
    rw [(hP v h).leaves_eq, List.mem_singleton] at hx
    exact hx ▸ h
  | cons n dims ih =>
    intro w hq x hx
    obtain ⟨items, rfl, rfl, h⟩ := hq
    rw [leaves_list, List.mem_flatMap] at hx
    obtain ⟨y, hy, hx⟩ := hx
    exact ih (h y hy) x hx

theorem mapLeaves_eq_self_iff (f : Value → Value) :
    ∀ {dims : List Nat} {v : Value}, v.Shaped P dims → (v.mapLeaves f = v ↔ ∀ x ∈ v.leaves, f x = x) := by
  intro dims
  induction dims with
  | nil =>
    intro v h
    rw [(hP v h).mapLeaves_eq, (hP v h).leaves_eq]
    simp
  | cons n dims ih =>
    intro w hq
    obtain ⟨items, rfl, rfl, h⟩ := hq
    rw [mapLeaves_list, leaves_list, Value.list.injEq]
    have hm : items.map (mapLeaves f) = items ↔ ∀ x ∈ items, x.mapLeaves f = x := by
      conv_lhs => rhs; rw [← List.map_id items]
      exact List.map_inj_left
    rw [hm]
    simp only [List.mem_flatMap, forall_exists_index, and_imp]
    refine ⟨?_, ?_⟩
    · intro he x y hy hx
      exact (ih (h y hy)).1 (he y hy) x hx
    · intro he y hy
      exact (ih (h y hy)).2 fun x hx => he x y hy hx

theorem mapLeaves {Q : Value → Prop} {f : Value → Value} (hf : ∀ v, P v → Q (f v)) :
    ∀ {dims : List Nat} {v : Value}, v.Shaped P dims → (v.mapLeaves f).Shaped Q dims := by
  intro dims
  induction dims with
  | nil =>
    intro v h
    rw [(hP v h).mapLeaves_eq]
    exact hf v h
  | cons n dims ih =>
    intro y hq
    obtain ⟨items, rfl, hl, hi⟩ := hq
    refine ⟨_, mapLeaves_list f items, by rwa [List.length_map], ?_⟩
    intro y hy
    obtain ⟨x, hx, rfl⟩ := List.mem_map.1 hy
    exact ih (hi x hx)

theorem leaves_mapLeaves {f : Value → Value} (hf : ∀ v, P v → (f v).IsLeaf) :
    ∀ {dims : List Nat} {v : Value}, v.Shaped P dims → (v.mapLeaves f).leaves = v.leaves.map f := by
  intro dims
  induction dims with
  | nil =>
    intro v h
    rw [(hP v h).mapLeaves_eq, (hf v h).leaves_eq, (hP v h).leaves_eq, List.map_singleton]
  | cons n dims ih =>
    intro y hq
    obtain ⟨items, rfl, hl, hi⟩ := hq
    rw [mapLeaves_list, leaves_list, leaves_list, List.flatMap_map, List.map_flatMap]
    exact List.flatMap_congr fun x hx => ih (hi x hx)

/-- Leaves in the right number can be nested as an array with axes of these lengths. -/
theorem exists_of_leaves : ∀ {dims : List Nat} {leaves : List Value}, leaves.length = dims.prod →
    (∀ x ∈ leaves, P x) → ∃ v : Value, v.Shaped P dims ∧ v.leaves = leaves := by
  have hne : Nonempty Value := ⟨.unit⟩
  intro dims
  induction dims with
  | nil =>
    intro leaves hlen h
    obtain ⟨x, rfl⟩ := List.length_eq_one_iff.1 hlen
    have hx := h x List.mem_cons_self
    exact ⟨x, hx, (hP x hx).leaves_eq⟩
  | cons n dims ih =>
    intro leaves hlen h
    rw [List.prod_cons] at hlen
    obtain ⟨bs, hn, hl, rfl⟩ := Bytes.exists_blocks hlen
    have hblock : ∀ b ∈ bs, ∃ v : Value, v.Shaped P dims ∧ v.leaves = b := fun b hb =>
      ih (hl b hb) fun x hx => h x (List.mem_flatten_of_mem hb hx)
    choose! f hf using hblock
    refine ⟨.list (bs.map f), ⟨_, rfl, by rw [List.length_map, hn], ?_⟩, ?_⟩
    · intro v hv
      obtain ⟨b, hb, rfl⟩ := List.mem_map.1 hv
      exact (hf b hb).1
    · rw [leaves_list, List.flatMap_map, List.flatMap_def, List.map_congr_left fun b hb => (hf b hb).2, List.map_id']

end Shaped

end InlineAsm.Value
