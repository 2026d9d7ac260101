import InlineAsm.DataType.Check
import InlineAsm.Proofs.Except
import InlineAsm.Proofs.Value.Shape

/-! A type accepts exactly the values that are nested as its axes say, with leaves that its scalar accepts. The open
axes take the lengths found in the value, so checking the value once more against the answer changes nothing. -/

namespace InlineAsm

namespace CType

def Accepts (t : CType) (v : Value) : Prop := ∃ w, t.check v = .ok w

def warning? (t : CType) (v : Value) : Option RangeWarning := (t.check v).toOption.join

variable {t : CType} {v : Value}

theorem Accepts.check_eq (h : t.Accepts v) : t.check v = .ok (t.warning? v) := by
  obtain ⟨w, hw⟩ := h
  rw [warning?, hw]
  rfl

theorem Accepts.isLeaf (h : t.Accepts v) : v.IsLeaf := by
  intro items he
  subst he
  obtain ⟨w, hw⟩ := h
  cases t <;> cases hw

end CType

namespace DataType

/-- The type with these sizes, outermost first. -/
def ofSizes (t : CType) : List Size → DataType
  | [] => scalar t
  | n :: dims => array (ofSizes t dims) (some n)

/-- The sizes agree with those that are not open. -/
def Admits : DataType → List Size → Prop
  | scalar _, [] => True
  | array inner size, n :: dims => (∀ m ∈ size, m = n) ∧ inner.Admits dims
  | _, _ => False

theorem element_ofSizes (t : CType) (dims : List Size) : (ofSizes t dims).element = t := by
  induction dims with
  | nil => rfl
  | cons n dims ih => exact ih

/-- The values that a type takes with the sizes `dims`. -/
def Fits (t : CType) (dims : List Size) (v : Value) : Prop := v.Shaped t.Accepts (dims.map Subtype.val)

theorem check_array_iff {inner : DataType} {size : Option Size} {v : Value} {d : DataType} {ws : List RangeWarning} :
    (array inner size).check v = .ok (d, ws) ↔
      ∃ items inner', ∃ n : Size, v = .list items ∧ items.length = n ∧ (∀ m ∈ size, m = n) ∧
        inner.checkAll items = .ok (inner', ws) ∧ d = array inner' (some n) := by
  cases v with
  | int | float | text | tuple | unit => simp [check]
  | list items =>
    cases items with
    | nil =>
      simp only [check, reduceCtorEq, false_iff]
      intro hx
      obtain ⟨_, _, n, ⟨⟩, hn, -⟩ := hx
      exact absurd hn (Nat.ne_of_lt n.2)
    | cons x xs =>
      have hn (m : Size) : m.val = (x :: xs).length ↔ m = ⟨xs.length + 1, Nat.succ_pos _⟩ := by
        rw [Subtype.ext_iff, List.length_cons]
      simp only [check]
      cases hf : size.filter fun m => decide (m ≠ ⟨xs.length + 1, Nat.succ_pos _⟩) with
      | some m =>
        simp only [reduceCtorEq, false_iff]
        intro hx
        obtain ⟨_, _, n, ⟨⟩, hl, hm, -⟩ := hx
        obtain ⟨hs, hne⟩ := Option.filter_eq_some_iff.1 hf
        have heq : m = ⟨xs.length + 1, Nat.succ_pos _⟩ := (hm m hs).trans ((hn n).1 hl.symm)
        exact of_decide_eq_true hne heq
      | none =>
        rw [Option.filter_eq_none_iff] at hf
        simp only [bind_eq_ok, pure_eq_ok, Prod.mk.injEq, Value.list.injEq, Prod.exists]
        refine ⟨?_, ?_⟩
        · intro hx
          obtain ⟨inner', ws', h, rfl, rfl⟩ := hx
          exact ⟨_, inner', _, rfl, (hn _).2 rfl |>.symm, fun m hm => by simpa using hf m hm, h, rfl⟩
        · intro hx
          obtain ⟨_, inner', n, rfl, hl, hm, h, rfl⟩ := hx
          obtain rfl := (hn n).1 hl.symm
          exact ⟨inner', ws, h, rfl, rfl⟩

theorem checkAll_cons_iff {d d' : DataType} {v : Value} {vs : List Value} {ws : List RangeWarning} :
    d.checkAll (v :: vs) = .ok (d', ws) ↔
      ∃ first ws₁ ws₂, d.check v = .ok (first, ws₁) ∧ first.checkAll vs = .ok (d', ws₂) ∧ ws = ws₁ ++ ws₂ := by
  simp only [checkAll, bind_eq_ok, pure_eq_ok, Prod.exists, Prod.mk.injEq]
  refine ⟨?_, ?_⟩
  · intro h
    obtain ⟨first, ws₁, h₁, _, ws₂, h₂, rfl, rfl⟩ := h
    exact ⟨first, ws₁, ws₂, h₁, h₂, rfl⟩
  · intro h
    obtain ⟨first, ws₁, ws₂, h₁, h₂, rfl⟩ := h
    exact ⟨first, ws₁, h₁, d', ws₂, h₂, rfl, rfl⟩

theorem toList_warning {t : CType} {v : Value} (h : v.IsLeaf) :
    (t.warning? v).toList = v.leaves.filterMap t.warning? := by
  rw [h.leaves_eq, List.filterMap_cons]
  cases t.warning? v <;> rfl

theorem check_scalar_iff {t : CType} {v : Value} {d : DataType} {ws : List RangeWarning} :
    (scalar t).check v = .ok (d, ws) ↔ t.Accepts v ∧ d = scalar t ∧ ws = v.leaves.filterMap t.warning? := by
  simp only [check, bind_eq_ok, pure_eq_ok, Prod.mk.injEq]
  refine ⟨?_, ?_⟩
  · intro h
    obtain ⟨w, hw, rfl, rfl⟩ := h
    have ha : t.Accepts v := ⟨w, hw⟩
    obtain rfl := Except.ok.inj (ha.check_eq.symm.trans hw)
    exact ⟨ha, rfl, toList_warning ha.isLeaf⟩
  · intro h
    obtain ⟨ha, rfl, rfl⟩ := h
    exact ⟨_, ha.check_eq, rfl, toList_warning ha.isLeaf⟩

theorem wrap_eq_ok_iff {inner d : DataType} {n : Option Nat} :
    inner.wrap n = .ok d ↔ ∃ size : Option Size, d = array inner size ∧ size.map Subtype.val = n := by
  cases n with
  | none =>
    rw [wrap, Except.ok.injEq]
    refine ⟨fun h => ⟨none, h.symm, rfl⟩, ?_⟩
    intro h
    obtain ⟨size, rfl, hsize⟩ := h
    rw [Option.map_eq_none_iff.1 hsize]
  | some n =>
    rw [wrap]
    split_ifs with hn
    · rw [Except.ok.injEq]
      refine ⟨fun h => ⟨some ⟨n, hn⟩, h.symm, rfl⟩, ?_⟩
      intro h
      obtain ⟨size, rfl, hsize⟩ := h
      obtain ⟨m, rfl, rfl⟩ := Option.map_eq_some_iff.1 hsize
      rfl
    · simp only [false_iff]
      intro h
      obtain ⟨size, -, hsize⟩ := h
      obtain ⟨m, -, rfl⟩ := Option.map_eq_some_iff.1 hsize
      exact hn m.2

theorem ofDims_eq_ok_iff {t : CType} {sizes : List (Option Nat)} :
    ∀ {d : DataType}, ofDims t sizes = .ok d ↔ d.element = t ∧ d.dims = sizes := by
  induction sizes with
  | nil =>
    intro d
    cases d with
    | scalar u => simp [ofDims, element, dims, eq_comm]
    | array inner size => simp [ofDims, dims]
  | cons n sizes ih =>
    intro d
    rw [ofDims, bind_eq_ok]
    simp only [ih, wrap_eq_ok_iff]
    refine ⟨?_, ?_⟩
    · intro h
      obtain ⟨inner, ⟨rfl, rfl⟩, size, rfl, rfl⟩ := h
      exact ⟨rfl, rfl⟩
    · intro h
      obtain ⟨rfl, hdims⟩ := h
      cases d with
      | scalar u => cases hdims
      | array inner size =>
        obtain ⟨hn, hdims⟩ := List.cons.inj hdims
        exact ⟨inner, ⟨rfl, hdims⟩, size, rfl, hn⟩

/-- On values that are checked one after the other a type without open axes stays the same. -/
theorem checkAll_ofSizes_iff {t : CType} {dims : List Size}
    (hcheck : ∀ {v : Value} {d : DataType} {ws : List RangeWarning}, (ofSizes t dims).check v = .ok (d, ws) ↔
      Fits t dims v ∧ d = ofSizes t dims ∧ ws = v.leaves.filterMap t.warning?) :
    ∀ {vs : List Value} {d : DataType} {ws : List RangeWarning}, (ofSizes t dims).checkAll vs = .ok (d, ws) ↔
      (∀ v ∈ vs, Fits t dims v) ∧ d = ofSizes t dims ∧ ws = (vs.flatMap Value.leaves).filterMap t.warning? := by
  intro vs
  induction vs with
  | nil => intro d ws; simp [checkAll, eq_comm]
  | cons v vs ih =>
    intro d ws
    rw [checkAll_cons_iff, List.forall_mem_cons, List.flatMap_cons, List.filterMap_append]
    refine ⟨?_, ?_⟩
    · intro h
      obtain ⟨_, _, _, h₁, h₂, rfl⟩ := h
      obtain ⟨hv, rfl, rfl⟩ := hcheck.1 h₁
      obtain ⟨hvs, rfl, rfl⟩ := ih.1 h₂
      exact ⟨⟨hv, hvs⟩, rfl, rfl⟩
    · intro h
      obtain ⟨⟨hv, hvs⟩, rfl, rfl⟩ := h
      exact ⟨_, _, _, hcheck.2 ⟨hv, rfl, rfl⟩, ih.2 ⟨hvs, rfl, rfl⟩, rfl⟩

/-- A type without open axes accepts what fits its sizes, and answers itself. -/
theorem check_ofSizes_iff {t : CType} :
    ∀ {dims : List Size} {v : Value} {d : DataType} {ws : List RangeWarning},
      (ofSizes t dims).check v = .ok (d, ws) ↔
        Fits t dims v ∧ d = ofSizes t dims ∧ ws = v.leaves.filterMap t.warning? := by
  intro dims
  induction dims with
  | nil => exact check_scalar_iff
  | cons n dims ih =>
    intro v d ws
    rw [ofSizes, check_array_iff]
    refine ⟨?_, ?_⟩
    · intro hx
      obtain ⟨items, _, m, rfl, hl, hm, h, rfl⟩ := hx
      obtain rfl := hm n rfl
      obtain ⟨hi, rfl, rfl⟩ := (checkAll_ofSizes_iff ih).1 h
      exact ⟨⟨items, rfl, hl, hi⟩, rfl, by rw [Value.leaves_list]⟩
    · intro hx
      obtain ⟨⟨items, rfl, hl, hi⟩, rfl, rfl⟩ := hx
      have h := (checkAll_ofSizes_iff ih).2 ⟨hi, rfl, rfl⟩
      exact ⟨items, _, n, rfl, hl, fun m hm => (Option.some.inj hm).symm, by rwa [Value.leaves_list], rfl⟩

/-- A type accepts a value if and only if sizes that it admits fit the value; these then take the place of its own. -/
theorem check_eq_ok_iff :
    ∀ {d : DataType} {v : Value} {d' : DataType} {ws : List RangeWarning},
      d.check v = .ok (d', ws) ↔
        ∃ dims, d.Admits dims ∧ Fits d.element dims v ∧ d' = ofSizes d.element dims ∧
          ws = v.leaves.filterMap d.element.warning? := by
  intro d
  induction d with
  | scalar t =>
    intro v d' ws
    rw [check_scalar_iff]
    refine ⟨?_, ?_⟩
    · intro hq
      obtain ⟨h, rfl, rfl⟩ := hq
      exact ⟨[], trivial, h, rfl, rfl⟩
    · intro hq
      obtain ⟨dims, ha, h, rfl, rfl⟩ := hq
      cases dims with
      | nil => exact ⟨h, rfl, rfl⟩
      | cons n dims => cases ha
  | array inner size ih =>
    intro v d' ws
    -- The first value on the axis fixes the sizes further in, and the others are held against these.
    have hall : ∀ {x xs inner'}, inner.checkAll (x :: xs) = .ok (inner', ws) ↔
        ∃ dims, inner.Admits dims ∧ (∀ y ∈ x :: xs, Fits inner.element dims y) ∧
          inner' = ofSizes inner.element dims ∧
          ws = ((x :: xs).flatMap Value.leaves).filterMap inner.element.warning? := by
      intro x xs inner'
      rw [checkAll_cons_iff, List.flatMap_cons, List.filterMap_append]
      refine ⟨?_, ?_⟩
      · intro hq
        obtain ⟨_, _, _, h₁, h₂, rfl⟩ := hq
        obtain ⟨dims, ha, hx, rfl, rfl⟩ := ih.1 h₁
        obtain ⟨hxs, rfl, rfl⟩ := (checkAll_ofSizes_iff check_ofSizes_iff).1 h₂
        exact ⟨dims, ha, List.forall_mem_cons.2 ⟨hx, hxs⟩, rfl, rfl⟩
      · intro hq
        obtain ⟨dims, ha, h, rfl, rfl⟩ := hq
        obtain ⟨hx, hxs⟩ := List.forall_mem_cons.1 h
        exact ⟨_, _, _, ih.2 ⟨dims, ha, hx, rfl, rfl⟩,
          (checkAll_ofSizes_iff check_ofSizes_iff).2 ⟨hxs, rfl, rfl⟩, rfl⟩
    rw [check_array_iff]
    refine ⟨?_, ?_⟩
    · intro hq
      obtain ⟨items, _, n, rfl, hl, hm, h, rfl⟩ := hq
      cases items with
      | nil => exact absurd hl (Nat.ne_of_lt n.2)
      | cons x xs =>
        obtain ⟨dims, ha, hi, rfl, rfl⟩ := hall.1 h
        exact ⟨n :: dims, ⟨hm, ha⟩, ⟨_, rfl, hl, hi⟩, rfl, by rw [Value.leaves_list]; rfl⟩
    · intro hq
      obtain ⟨dims, ha, h, rfl, rfl⟩ := hq
      cases dims with
      | nil => cases ha
      | cons n dims =>
        obtain ⟨items, rfl, hl, hi⟩ := h
        cases items with
        | nil => exact absurd hl (Nat.ne_of_lt n.2)
        | cons x xs =>
          have hc := hall.2 ⟨dims, ha.2, hi, rfl, by rw [← Value.leaves_list]; rfl⟩
          exact ⟨_, _, n, rfl, hl, ha.1, hc, rfl⟩

/-- What a check answers for a value takes that value again, with the same warnings. -/
theorem check_again {d d' : DataType} {v : Value} {ws : List RangeWarning} (h : d.check v = .ok (d', ws)) :
    d'.check v = .ok (d', ws) := by
  obtain ⟨dims, -, hf, rfl, rfl⟩ := check_eq_ok_iff.1 h
  exact check_ofSizes_iff.2 ⟨hf, rfl, rfl⟩

end DataType

end InlineAsm
