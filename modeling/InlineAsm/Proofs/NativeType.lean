import InlineAsm.NativeType
import Mathlib.Algebra.BigOperators.Group.List.Basic
import Mathlib.Algebra.BigOperators.Ring.List
import Mathlib.Algebra.GroupWithZero.Nat
import Mathlib.Algebra.Order.BigOperators.GroupWithZero.List

/-! The sizes of native types. As long as the bytes of a type can be counted in a machine word, counting them does not
wrap around. -/

namespace InlineAsm

theorem CType.size_pos (t : CType) : 0 < t.size := by cases t <;> decide

namespace NativeType

/-- The lengths of the axes, outermost first. -/
def axes : NativeType → List Nat
  | scalar _ => []
  | array _ dims => dims
  | pointer inner => inner.axes

/-- A scalar, or an array with at least one axis and none of length zero, behind any pointers; its bytes can be
counted in a machine word. -/
def Solid : NativeType → Prop
  | scalar _ => True
  | array t dims => dims ≠ [] ∧ (∀ n ∈ dims, 0 < n) ∧ t.size * dims.prod < wordLimit
  | pointer inner => inner.Solid

theorem foldl_count (dims : List Nat) :
    ∀ a < wordLimit, dims.foldl (fun n d => n * d % wordLimit) a = a * dims.prod % wordLimit := by
  induction dims with
  | nil => intro a ha; simp [Nat.mod_eq_of_lt ha]
  | cons d dims ih =>
    intro a _
    have hlt : a * d % wordLimit < wordLimit := Nat.mod_lt _ (Nat.two_pow_pos 64)
    rw [List.foldl_cons, ih _ hlt, List.prod_cons, Nat.mod_mul_mod, mul_assoc]

theorem count_eq_mod (dims : List Nat) : count dims = dims.prod % wordLimit := by
  rw [count, foldl_count dims 1 (Nat.one_lt_two_pow (by decide)), one_mul]

theorem count_eq {dims : List Nat} (h : dims.prod < wordLimit) : count dims = dims.prod := by
  rw [count_eq_mod, Nat.mod_eq_of_lt h]

/-- An empty axis leaves no elements, also where counting the others wraps around. -/
theorem count_eq_zero {dims : List Nat} (h : 0 ∈ dims) : count dims = 0 := by
  have hprod : dims.prod = 0 := List.prod_eq_zero h
  rw [count_eq_mod, hprod, Nat.zero_mod]

theorem elementCount_eq_count (t : NativeType) : t.elementCount = count t.axes := by
  induction t with
  | scalar t => rfl
  | array t dims => rfl
  | pointer inner ih => exact ih

/-- Wrapping around only makes the storage smaller. -/
theorem storageSize_le (t : NativeType) : t.storageSize ≤ t.element.size * t.axes.prod := by
  rw [storageSize, elementCount_eq_count, count_eq_mod]
  exact (Nat.mod_le _ _).trans (Nat.mul_le_mul_left _ (Nat.mod_le _ _))

theorem storageSize_eq {t : NativeType} (h : t.element.size * t.axes.prod < wordLimit) :
    t.storageSize = t.element.size * t.axes.prod := by
  have hprod : t.axes.prod < wordLimit := (Nat.le_mul_of_pos_left _ t.element.size_pos).trans_lt h
  rw [storageSize, elementCount_eq_count, count_eq hprod, Nat.mod_eq_of_lt h]

theorem pointee_eq (t : NativeType) :
    (t.pointee = scalar t.element ∧ t.axes = []) ∨ t.pointee = array t.element t.axes := by
  induction t with
  | scalar t => exact .inl ⟨rfl, rfl⟩
  | array t dims => exact .inr rfl
  | pointer inner ih => exact ih

namespace Solid

variable {t : NativeType}

theorem bytes_lt : ∀ {t : NativeType}, t.Solid → t.element.size * t.axes.prod < wordLimit := by
  intro t
  induction t with
  | scalar t => intro _; cases t <;> decide
  | array t dims => exact fun h => h.2.2
  | pointer inner ih => exact ih

theorem pos_of_mem_axes : ∀ {t : NativeType}, t.Solid → ∀ n ∈ t.axes, 0 < n := by
  intro t
  induction t with
  | scalar t => exact fun _ _ h => nomatch h
  | array t dims => exact fun h => h.2.1
  | pointer inner ih => exact ih

theorem prod_lt (h : t.Solid) : t.axes.prod < wordLimit :=
  (Nat.le_mul_of_pos_left _ t.element.size_pos).trans_lt h.bytes_lt

theorem storageSize_eq (h : t.Solid) : t.storageSize = t.element.size * t.axes.prod :=
  NativeType.storageSize_eq h.bytes_lt

theorem pointee_cases : ∀ {t : NativeType}, t.Solid →
    (t.pointee = scalar t.element ∧ t.axes = []) ∨ (t.pointee = array t.element t.axes ∧ t.axes ≠ []) := by
  intro t
  induction t with
  | scalar t => exact fun _ => .inl ⟨rfl, rfl⟩
  | array t dims => exact fun h => .inr ⟨rfl, h.1⟩
  | pointer inner ih => exact ih

end Solid

theorem solid_of_pointee {t : CType} {dims : List Nat} (hne : dims ≠ []) (hpos : ∀ n ∈ dims, 0 < n)
    (hfit : t.size * dims.prod < wordLimit) :
    ∀ {n : NativeType}, n.pointee = .array t dims → n.Solid ∧ n.element = t ∧ n.axes = dims := by
  intro n
  induction n with
  | scalar u => exact nofun
  | array u sizes =>
    intro h
    obtain ⟨rfl, rfl⟩ := NativeType.array.inj h
    exact ⟨⟨hne, hpos, hfit⟩, rfl, rfl⟩
  | pointer inner ih => exact ih

end NativeType

end InlineAsm
