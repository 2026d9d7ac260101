import InlineAsm.Proofs.Storage.Initial
import Mathlib.Logic.Function.Iterate

/-! A slot for a declared type takes exactly the values that the type takes, and refuses the others for the same reason.
The slot knows its native type only, and builds the declared type anew from the lengths of the axes. -/

namespace InlineAsm

/-- `k` pointers in front of a type. -/
abbrev NativeType.behind (k : Nat) (t : NativeType) : NativeType := NativeType.pointer^[k] t

theorem NativeType.Solid.behind {t : NativeType} (h : t.Solid) (k : Nat) : (behind k t).Solid := by
  induction k with
  | zero => exact h
  | succ k ih =>
    rw [NativeType.behind, Function.iterate_succ_apply']
    exact ih

namespace Slot

theorem shape_behind (k : Nat) (t : NativeType) : shape (.behind k t) = shape t := by
  induction k with
  | zero => rfl
  | succ k ih =>
    rw [NativeType.behind, Function.iterate_succ_apply', shape]
    exact ih

/-- What storing answers is what the type of the slot answers. -/
theorem store_eq_check {s : Slot} {d : DataType} (hs : s.type.Solid) (hd : shape s.type = .ok d) (v : Value) :
    (s.store v).2 = ((d.check v).mapError .mismatch).map Prod.snd := by
  rw [← check_eq hd]
  cases hc : s.check v with
  | error e => rw [store, hc]
  | ok ws =>
    obtain ⟨s', hstore, -, -⟩ := store_of_check hs hc
    rw [hstore]

/-- Any slot for a declared type, behind however many pointers, agrees with the check of the type: it stores a value
if and only if the check accepts it, which then leaves the type as it is and gives the same warnings, and otherwise
both give the same error. -/
theorem store_agrees {d : DataType} (hd : d.isResolved)
    (hfit : d.element.size * (d.sizes?.getD []).prod < NativeType.wordLimit) :
    ∃ t, d.native? = some t ∧ ∀ (k : Nat) (s : Slot), s.type = .behind k t → ∀ v : Value,
      ((∃ ws, (s.store v).2 = .ok ws) ↔ ∃ r, d.check v = .ok r) ∧
      (∀ ws r, (s.store v).2 = .ok ws → d.check v = .ok r → r = (d, ws)) ∧
      ∀ e, (s.store v).2 = .error e ↔ (d.check v).mapError .mismatch = .error e := by
  obtain ⟨dims, hdims⟩ := DataType.exists_ofSizes hd
  generalize d.element = t at hdims hfit
  subst hdims
  rw [DataType.sizes?_ofSizes] at hfit
  refine ⟨_, DataType.native?_ofSizes t dims, fun k s htype v => ?_⟩
  have hsolid := NativeType.solid_ofAxes hfit
  have hshape : shape s.type = .ok (.ofSizes t dims) := by rw [htype, shape_behind, shape_ofAxes]
  have hanswer := store_eq_check (htype ▸ hsolid.behind k) hshape v
  rw [hanswer]
  cases hc : (DataType.ofSizes t dims).check v with
  | error m => simp [Except.mapError, Except.map]
  | ok r =>
    obtain ⟨d', ws⟩ := r
    obtain ⟨-, rfl, -⟩ := DataType.check_ofSizes_iff.1 hc
    simp [Except.mapError, Except.map]

/-- Two rows of three integers, behind two pointers. -/
def twoRows : Slot := zeroed (.behind 2 (.array .int [2, 3]))

/-- Three rows of two integers. -/
def threeRows : Value := .list [.list [.int 1, .int 2], .list [.int 3, .int 4], .list [.int 5, .int 6]]

theorem store_agrees_transposed :
    (twoRows.store threeRows).2 = .error (.mismatch (.wrongLength .int threeRows 3 2)) ∧
    ∃ ws, (twoRows.store (.list [.list [.int 1, .int 2, .int 3], .list [.int 4, .int 5, .int 6]])).2 = .ok ws := by
  obtain ⟨_, ⟨⟩, hall⟩ := store_agrees
    (d := .array (.array (.scalar .int) (some ⟨3, by decide⟩)) (some ⟨2, by decide⟩)) (by decide) (by decide)
  obtain ⟨-, -, herror⟩ := hall 2 twoRows rfl threeRows
  obtain ⟨hok, -⟩ := hall 2 twoRows rfl (.list [.list [.int 1, .int 2, .int 3], .list [.int 4, .int 5, .int 6]])
  exact ⟨(herror _).2 rfl, hok.2 ⟨_, rfl⟩⟩

end Slot

end InlineAsm
