import InlineAsm.Proofs.Except
import InlineAsm.Value.Json
import Mathlib.Algebra.Group.Int.Defs
import Mathlib.Logic.Relation

/-! Values that are written as JSON and read back. They are the same but for what JSON has no form for: a tuple comes
back as a list, a number that is not finite as the unit, and an integer beyond 64 bits as its digits. In the other
direction nothing is lost: a tree without booleans and objects is the tree of the value that it is read as. -/

namespace InlineAsm

theorem Double.isFinite_iff {x : Double} : x.isFinite = true ↔ ¬(x.isNaN = true ∨ x.isInfinite = true) := by
  simp only [isFinite, isNaN, isInfinite, decide_eq_true_eq]
  omega

open Relation in
theorem forall_reflTransGen_iff {α : Type} {r : α → α → Prop} {a : α} {P : α → Prop} :
    (∀ b, ReflTransGen r a b → P b) ↔ P a ∧ ∀ c, r a c → ∀ b, ReflTransGen r c b → P b := by
  refine ⟨fun h => ⟨h a .refl, fun c hc b hb => h b (.head hc hb)⟩, ?_⟩
  intro h b hb
  rcases hb.cases_head with rfl | ⟨c, hc, hb⟩
  · exact h.1
  · exact h.2 c hc b hb

namespace Json.Number

theorem toInt_toInt64 {n : UInt64} (h : n.toNat < twoPow 63) : n.toInt64.toInt = n.toNat := by
  rw [← n.ofNat_toNat, UInt64.toInt64_ofNat', UInt64.ofNat_toNat]
  exact Int64.toInt_ofNat_of_lt h

theorem toNat_toUInt64 {i : Int64} (h : ¬i < 0) : (i.toUInt64.toNat : Int) = i.toInt := by
  have hle : 0 ≤ i := Int64.not_lt.1 h
  rw [Int64.toNat_toUInt64_of_le hle, Int64.toNatClampNeg]
  exact Int.toNat_of_nonneg (Int64.le_iff_toInt_le.1 hle)

theorem int64?_eq_some {i : Int} {n : Int64} : int64? i = some n ↔ n.toInt = i := by
  unfold int64?
  constructor
  · intro h
    split_ifs at h with hi
    cases h
    exact Int64.toInt_ofInt_of_le hi.1 hi.2
  · rintro rfl
    rw [if_pos ⟨n.le_toInt, n.toInt_lt⟩, Int64.ofInt_toInt]

theorem int64?_eq_none {i : Int} : int64? i = none ↔ ¬(-2 ^ 63 ≤ i ∧ i < 2 ^ 63) :=
  ite_eq_right_iff.trans (forall_congr' fun _ => iff_false_intro (Option.some_ne_none _))

theorem uint64?_eq_some {i : Int} {n : UInt64} : uint64? i = some n ↔ (n.toNat : Int) = i := by
  unfold uint64?
  constructor
  · intro h
    split_ifs at h with hi
    cases h
    rw [UInt64.toNat_ofNat_of_lt' ((Int.toNat_lt hi.1).2 hi.2), Int.toNat_of_nonneg hi.1]
  · rintro rfl
    rw [if_pos ⟨Int.natCast_nonneg _, Int.ofNat_lt.2 n.toNat_lt⟩, Int.toNat_natCast, UInt64.ofNat_toNat]

theorem uint64?_eq_none {i : Int} : uint64? i = none ↔ ¬(0 ≤ i ∧ i < 2 ^ 64) :=
  ite_eq_right_iff.trans (forall_congr' fun _ => iff_false_intro (Option.some_ne_none _))

theorem asInt64?_ofInt64 (i : Int64) : asInt64? (ofInt64 i) = some i := by
  unfold ofInt64
  split_ifs with h
  · rfl
  · have hlt : (i.toUInt64.toNat : Int) < twoPow 63 := toNat_toUInt64 h ▸ i.toInt_lt
    rw [asInt64?, if_pos (Int.ofNat_lt.1 hlt), Int64.toInt64_toUInt64]

theorem ofInt64_of_toInt_eq {i : Int64} {n : UInt64} (h : i.toInt = n.toNat) : ofInt64 i = .unsigned n := by
  have hsign : ¬i < 0 := by
    rw [Int64.lt_iff_toInt_lt, Int64.toInt_zero]
    omega
  have heq : i.toUInt64 = n := UInt64.toNat_inj.1 (Int.ofNat_inj.1 ((toNat_toUInt64 hsign).trans h))
  rw [ofInt64, dif_neg hsign, heq]

end Json.Number

namespace Json

def parts : Json → List Json
  | .array items => items
  | .object members => members.map Prod.snd
  | _ => []

/-- `k` is the tree `j` itself or stands anywhere in it. -/
def Contains (j k : Json) : Prop := Relation.ReflTransGen (fun j k => k ∈ j.parts) j k

def IsBoolOrObject : Json → Prop
  | .bool _ | .object _ => True
  | _ => False

theorem sizeOf_lt_of_part {j k : Json} (h : k ∈ j.parts) : sizeOf k < sizeOf j := by
  cases j with
  | array items =>
    have hlt : sizeOf k < sizeOf items := List.sizeOf_lt_of_mem h
    rw [array.sizeOf_spec]
    omega
  | object members =>
    obtain ⟨⟨key, i⟩, hm, rfl⟩ := List.mem_map.1 h
    have hlt := List.sizeOf_lt_of_mem hm
    rw [Prod.mk.sizeOf_spec] at hlt
    change sizeOf i < sizeOf (object members)
    rw [object.sizeOf_spec]
    omega
  | null | bool | number | string => cases h

@[elab_as_elim]
theorem induction_parts {P : Json → Prop} (h : ∀ j, (∀ k ∈ j.parts, P k) → P j) (j : Json) : P j :=
  h j fun k _ => induction_parts h k
termination_by sizeOf j
decreasing_by exact sizeOf_lt_of_part ‹_›

end Json

namespace Value

def parts : Value → List Value
  | .list items | .tuple items => items
  | _ => []

/-- `x` is the value `v` itself or stands anywhere in it. -/
def Contains (v x : Value) : Prop := Relation.ReflTransGen (fun v x => x ∈ v.parts) v x

/-- JSON has no form for the value, whatever its parts are. -/
def Foreign : Value → Prop
  | .int i => i < -2 ^ 63 ∨ 2 ^ 64 - 1 < i
  | .float x => x.isNaN ∨ x.isInfinite
  | .tuple _ => True
  | _ => False

mutual

/-- What comes back for a value. -/
def exchanged : Value → Value
  | .int i => if -2 ^ 63 ≤ i ∧ i ≤ 2 ^ 64 - 1 then .int i else .text (Text.Numeral.ofInt i)
  | .float x => if x.isNaN ∨ x.isInfinite then .unit else .float x
  | .text s => .text s
  | .list items => .list (exchangedAll items)
  | .tuple items => .list (exchangedAll items)
  | .unit => .unit

def exchangedAll : List Value → List Value
  | [] => []
  | v :: rest => v.exchanged :: exchangedAll rest

end

theorem sizeOf_lt_of_part {v x : Value} (h : x ∈ v.parts) : sizeOf x < sizeOf v := by
  cases v with
  | list items | tuple items =>
    have hlt : sizeOf x < sizeOf items := List.sizeOf_lt_of_mem h
    simp only [list.sizeOf_spec, tuple.sizeOf_spec]
    omega
  | int | float | text | unit => cases h

@[elab_as_elim]
theorem induction_parts {P : Value → Prop} (h : ∀ v, (∀ x ∈ v.parts, P x) → P v) (v : Value) : P v :=
  h v fun x _ => induction_parts h x
termination_by sizeOf v
decreasing_by exact sizeOf_lt_of_part ‹_›

theorem toJsonAll_eq (vs : List Value) : toJsonAll vs = vs.map toJson := by
  induction vs with
  | nil => rfl
  | cons v vs ih => rw [toJsonAll, ih, List.map_cons]

theorem ofJsonAll_eq (js : List Json) : ofJsonAll js = js.mapM ofJson := by
  induction js with
  | nil => rfl
  | cons j js ih => rw [ofJsonAll, ih, List.mapM_cons]

theorem exchangedAll_eq (vs : List Value) : exchangedAll vs = vs.map exchanged := by
  induction vs with
  | nil => rfl
  | cons v vs ih => rw [exchangedAll, ih, List.map_cons]

theorem ofJson_array_iff {items : List Json} {v : Value} :
    ofJson (.array items) = .ok v ↔ ∃ vs, items.mapM ofJson = .ok vs ∧ .list vs = v := by
  rw [ofJson, ofJsonAll_eq, bind_eq_ok]
  simp only [pure_eq_ok]

theorem ofNumber_ofInt64 (i : Int64) : ofNumber (.ofInt64 i) = .ok (.int i.toInt) := by
  simp only [ofNumber, Json.Number.asInt64?_ofInt64]

/-- A number without a sign is first tried with one, and has the same value in both forms. -/
theorem ofNumber_ofUInt64 (n : UInt64) : ofNumber (.ofUInt64 n) = .ok (.int n.toNat) := by
  by_cases h : n.toNat < twoPow 63
  · simp only [ofNumber, Json.Number.ofUInt64, Json.Number.asInt64?, if_pos h, Json.Number.toInt_toInt64 h]
  · simp only [ofNumber, Json.Number.ofUInt64, Json.Number.asInt64?, if_neg h, Json.Number.asUInt64?]

theorem exists_ofNumber (n : Json.Number) : ∃ v, ofNumber n = .ok v := by
  cases n with
  | unsigned n => exact ⟨_, ofNumber_ofUInt64 n⟩
  | negative | float => exact ⟨_, rfl⟩

theorem ofJson_toJson_int (i : Int) : ofJson (toJson (.int i)) = .ok (exchanged (.int i)) := by
  rw [toJson, exchanged]
  cases hs : Json.Number.int64? i with
  | some n =>
    have hn := Json.Number.int64?_eq_some.1 hs
    have hlo := n.le_toInt
    have hhi := n.toInt_lt
    rw [ofJson, ofNumber_ofInt64, hn, if_pos (by omega)]
  | none =>
    have hs := Json.Number.int64?_eq_none.1 hs
    cases hu : Json.Number.uint64? i with
    | some n =>
      have hn := Json.Number.uint64?_eq_some.1 hu
      have hhi := n.toNat_lt
      rw [ofJson, ofNumber_ofUInt64, hn, if_pos (by omega)]
    | none =>
      have hu := Json.Number.uint64?_eq_none.1 hu
      rw [ofJson, if_neg (by omega)]

theorem toJson_of_ofNumber {n : Json.Number} {v : Value} (h : ofNumber n = .ok v) : v.toJson = .number n := by
  cases n with
  | unsigned n =>
    cases (ofNumber_ofUInt64 n).symm.trans h
    rw [toJson, Json.Number.uint64?_eq_some.2 rfl]
    cases hs : Json.Number.int64? n.toNat with
    | some i => exact congrArg Json.number (Json.Number.ofInt64_of_toInt_eq (Json.Number.int64?_eq_some.1 hs))
    | none => rfl
  | negative i sign =>
    cases h
    simp only [toJson, Json.Number.int64?_eq_some.2 rfl, Json.Number.ofInt64, dif_pos sign]
  | float x finite =>
    cases h
    simp only [toJson, Json.Number.ofDouble?, dif_pos finite]

theorem ofJson_toJson (v : Value) : ofJson v.toJson = .ok v.exchanged := by
  induction v using induction_parts with
  | h v ih =>
    cases v with
    | int i => exact ofJson_toJson_int i
    | float x =>
      rw [toJson, exchanged, Json.Number.ofDouble?]
      simp only [Double.isFinite_iff]
      split_ifs <;> rfl
    | list items | tuple items =>
      rw [toJson, exchanged, toJsonAll_eq, exchangedAll_eq, ofJson_array_iff]
      refine ⟨items.map exchanged, ?_, rfl⟩
      rw [mapM_eq_ok, List.forall₂_map_left_iff, List.forall₂_map_right_iff, List.forall₂_same]
      exact ih
    | text | unit => rfl

/-- The values that come back as they were are those without a part that JSON has no form for. -/
theorem exchanged_eq_self_iff {v : Value} : v.exchanged = v ↔ ∀ x, v.Contains x → ¬x.Foreign := by
  induction v using induction_parts with
  | h v ih =>
    have hparts : (∀ x ∈ v.parts, x.exchanged = x) ↔ ∀ x ∈ v.parts, ∀ y, x.Contains y → ¬y.Foreign :=
      forall₂_congr ih
    unfold Contains at hparts ⊢
    rw [forall_reflTransGen_iff, ← hparts]
    cases v with
    | int i => simp [exchanged, Foreign, parts]
    | float x => simp [exchanged, Foreign, parts]
    | list items =>
      have hmap : items.map exchanged = items ↔ ∀ x ∈ items, x.exchanged = x := by
        simpa using List.map_inj_left (l := items) (f := exchanged) (g := id)
      rw [exchanged, exchangedAll_eq, list.injEq, hmap]
      exact (and_iff_right not_false).symm
    | tuple items => simp [exchanged, Foreign]
    | text | unit => simp [exchanged, Foreign, parts]

/-- What can be read at all is written back as it was. -/
theorem toJson_of_ofJson {j : Json} : ∀ {v : Value}, ofJson j = .ok v → v.toJson = j := by
  induction j using Json.induction_parts with
  | h j ih =>
    intro v h
    cases j with
    | number n => exact toJson_of_ofNumber h
    | array items =>
      obtain ⟨vs, hvs, rfl⟩ := ofJson_array_iff.1 h
      have hback : vs.map toJson = items := map_of_mapM_eq_ok hvs fun k hk _ => ih k hk
      rw [toJson, toJsonAll_eq, hback]
    | null | string =>
      cases h
      rfl
    | bool | object => cases h

theorem exists_ofJson_of_contains {j k : Json} (h : ∃ v, ofJson j = .ok v) (hk : j.Contains k) :
    ∃ v, ofJson k = .ok v := by
  induction hk with
  | refl => exact h
  | @tail i k _ hk ih =>
    obtain ⟨v, hv⟩ := ih
    cases i with
    | array items =>
      obtain ⟨vs, hvs, -⟩ := ofJson_array_iff.1 hv
      exact exists_mapM_eq_ok_iff.1 ⟨vs, hvs⟩ k hk
    | object => cases hv
    | null | bool | number | string => cases hk

theorem exists_of_ofJson_eq_error {j : Json} {e : Error} (h : ofJson j = .error e) :
    ∃ k, j.Contains k ∧ k.IsBoolOrObject ∧ e = .unconvertible k := by
  induction j using Json.induction_parts with
  | h j ih =>
    cases j with
    | array items =>
      rw [ofJson, ofJsonAll_eq, bind_eq_error] at h
      rcases h with h | ⟨_, -, h⟩
      · obtain ⟨i, hi, h⟩ := exists_of_mapM_eq_error h
        obtain ⟨k, hk, hbad⟩ := ih i hi h
        exact ⟨k, .head hi hk, hbad⟩
      · cases h
    | bool | object =>
      cases h
      exact ⟨_, .refl, trivial, rfl⟩
    | number n =>
      obtain ⟨v, hv⟩ := exists_ofNumber n
      rw [ofJson, hv] at h
      cases h
    | null | string => cases h

/-- A value sent through JSON comes back as `exchanged` says, and that is the value itself if and only if JSON has a
form for all its parts. A tree is refused if and only if a boolean or an object stands in it, and else it is the form
of the value read. -/
theorem json_exchange (v : Value) (j : Json) :
    (ofJson v.toJson = .ok v.exchanged ∧ (v.exchanged = v ↔ ∀ x, v.Contains x → ¬x.Foreign)) ∧
    ((∃ e, ofJson j = .error e) ↔ ∃ k, j.Contains k ∧ k.IsBoolOrObject) ∧
    (∀ e, ofJson j = .error e → e.kind = .argumentType) ∧
    ∀ w, ofJson j = .ok w → w.toJson = j := by
  refine ⟨⟨ofJson_toJson v, exchanged_eq_self_iff⟩, ⟨?_, ?_⟩, ?_, fun w => toJson_of_ofJson⟩
  · intro h
    obtain ⟨e, he⟩ := h
    obtain ⟨k, hk, hbad, -⟩ := exists_of_ofJson_eq_error he
    exact ⟨k, hk, hbad⟩
  · intro h
    obtain ⟨k, hk, hbad⟩ := h
    cases hj : ofJson j with
    | error e => exact ⟨e, rfl⟩
    | ok w =>
      obtain ⟨u, hu⟩ := exists_ofJson_of_contains ⟨w, hj⟩ hk
      cases k with
      | bool | object => cases hu
      | null | number | string | array => cases hbad
  · intro e he
    obtain ⟨k, -, -, rfl⟩ := exists_of_ofJson_eq_error he
    rfl

/-- The greatest integer that JSON has a form for, and next to it three values without one. -/
def edgeOfJson : Value :=
  .list [.int (2 ^ 64 - 1), .tuple [.int (2 ^ 64), .float (.ofMagnitude true Binary.double.infinity)], .text "a"]

theorem json_exchange_edge :
    ofJson edgeOfJson.toJson =
      .ok (.list [.int (2 ^ 64 - 1), .list [.text "18446744073709551616", .unit], .text "a"]) ∧
    ∃ e, ofJson (.array [.null, .array [.bool true]]) = .error e ∧ e.kind = .argumentType := by
  obtain ⟨⟨hv, -⟩, hfails, hkind, -⟩ := json_exchange edgeOfJson (.array [.null, .array [.bool true]])
  have hinner : (Json.array [.bool true]) ∈ (Json.array [.null, .array [.bool true]]).parts := .tail _ (.head _)
  obtain ⟨e, he⟩ := hfails.2 ⟨.bool true, .head hinner (.single (.head _)), trivial⟩
  have hdigits : Text.Numeral.ofInt (2 ^ 64) = "18446744073709551616" := by decide +kernel
  rw [← hdigits]
  exact ⟨hv, e, he, hkind e he⟩

end Value

end InlineAsm
