import InlineAsm.Proofs.DataType.Check
import InlineAsm.Proofs.Storage.Bytes
import InlineAsm.Storage.Scalar
import Mathlib.Data.Int.ModEq
import Mathlib.Tactic.Positivity

/-! What becomes of a scalar that is stored and read back. An integer type has exactly one value congruent to a given
integer, and that is the one read back; a character and a number of double precision come back as they were. -/

namespace InlineAsm

theorem twoPow_eq (k : Nat) : twoPow k = 2 ^ k := rfl

theorem twoPow_pos (k : Nat) : 0 < twoPow k := Nat.two_pow_pos k

theorem toNat_emod_twoPow (i : Int) (k : Nat) : ((i % twoPow k).toNat : Int) = i % 2 ^ k := by
  have hN : (twoPow k : Int) ≠ 0 := by exact_mod_cast (twoPow_pos k).ne'
  rw [Int.toNat_of_nonneg (Int.emod_nonneg i hN), twoPow_eq]
  norm_cast

namespace CType

def Holds (t : CType) (j : Int) : Prop :=
  ∃ min max, t.range = some (min, max) ∧ min ≤ j ∧ j ≤ max

/-- `j` is a value of the type that a conversion in C may give for `i`. -/
def Residue (t : CType) (i j : Int) : Prop :=
  t.Holds j ∧ j ≡ i [ZMOD 2 ^ (8 * t.size)]

def wrap (t : CType) (i : Int) : Int :=
  match t.range with
  | some (min, _) => min + (i - min) % twoPow (8 * t.size)
  | none => i

def round (t : CType) (x : Double) : Double := if t = .float then x.toSingle.toDouble else x

/-- What a value of type `t` is read back as. -/
def convert (t : CType) : Value → Value
  | .int i => if t.isInteger then .int (t.wrap i) else .float (t.round (.ofInt i))
  | .float x => .float (t.round x)
  | v => v

/-- The values of an integer type are as many as its bytes have patterns, without a gap. -/
theorem range_eq {t : CType} (ht : t.isInteger) :
    ∃ min : Int, t.range = some (min, min + 2 ^ (8 * t.size) - 1) := by
  cases t <;> first
    | exact absurd ht (by decide)
    | exact ⟨_, rfl⟩

theorem residue_iff {t : CType} (ht : t.isInteger) (i j : Int) : t.Residue i j ↔ j = t.wrap i := by
  obtain ⟨min, hr⟩ := range_eq ht
  have hN : (0 : Int) < 2 ^ (8 * t.size) := by positivity
  have hw : t.wrap i = min + (i - min) % 2 ^ (8 * t.size) := by
    simp only [wrap, hr, twoPow]
    norm_cast
  simp only [Residue, Holds, hr, Option.some.injEq, Prod.mk.injEq, hw]
  generalize (2 : Int) ^ (8 * t.size) = N at hN
  refine ⟨?_, ?_⟩
  · intro h
    obtain ⟨⟨_, _, ⟨rfl, rfl⟩, hmin, hmax⟩, hmod⟩ := h
    have hj : (j - min) % N = j - min := Int.emod_eq_of_lt (by omega) (by omega)
    have hi : (j - min) % N = (i - min) % N := hmod.sub_right min
    omega
  · intro he
    subst he
    have h0 := Int.emod_nonneg (i - min) hN.ne'
    have h1 := Int.emod_lt_of_pos (i - min) hN
    refine ⟨⟨_, _, ⟨rfl, rfl⟩, by omega, by omega⟩, ?_⟩
    calc min + (i - min) % N ≡ min + (i - min) [ZMOD N] := (Int.mod_modEq _ _).add_left min
      _ = i := by ring

theorem emod_lt_pow (width : Nat) (i : Int) : (i % twoPow (8 * width)).toNat < 256 ^ width := by
  have hN : (0 : Int) < twoPow (8 * width) := by exact_mod_cast twoPow_pos (8 * width)
  have h := Int.emod_lt_of_pos i hN
  have hp : twoPow (8 * width) = 256 ^ width := by rw [twoPow_eq, pow_mul]; norm_num
  rw [← hp]
  omega

theorem encode_int {t : CType} (ht : t.isInteger) (i : Int) :
    t.encode (.int i) = .ok (Bytes.ofNat t.size (i % twoPow (8 * t.size)).toNat) := by
  cases t <;> first
    | exact absurd ht (by decide)
    | rfl

theorem decode_wrap {t : CType} (ht : t.isInteger) (i : Int) :
    t.decode (Bytes.ofNat t.size (i % twoPow (8 * t.size)).toNat) = .int (t.wrap i) := by
  have hn := Bytes.toNat_ofNat_of_lt (emod_lt_pow t.size i)
  unfold decode
  rw [hn]
  cases t <;> first
    | exact absurd ht (by decide)
    | simp only [storage, size, Storage.size, signedValue, wrap, range, twoPow, Value.int.injEq]
      norm_num
      omega

/-- All that a type accepts: integers, the numbers of both kinds, or characters of one byte. -/
theorem accepted_cases {t : CType} {v : Value} {w : Option RangeWarning} (h : t.check v = .ok w) :
    (∃ i min max, v = .int i ∧ t.range = some (min, max) ∧
      w = if i < min ∨ max < i then some ⟨t, i, min, max⟩ else none) ∨
    ((t = .float ∨ t = .double) ∧ (∃ x, v.float? = some x) ∧ w = none) ∨
    (t = .char ∧ (∃ c, v = .ofChar c ∧ c.toNat ≤ 0xFF) ∧ w = none) := by
  by_cases ht : t.isInteger
  · obtain ⟨min, hr⟩ := range_eq ht
    left
    cases t <;> first
      | exact absurd ht (by decide)
      | cases v with
        | int i => exact ⟨i, _, _, rfl, rfl, by cases h; rfl⟩
        | float | text | list | tuple | unit => cases h
  · right
    cases t <;> first
      | exact absurd (by decide) ht
      | skip
    · left
      cases v <;> cases h
      · exact ⟨.inl rfl, ⟨_, rfl⟩, rfl⟩
      · exact ⟨.inl rfl, ⟨_, rfl⟩, rfl⟩
    · left
      cases v <;> cases h
      · exact ⟨.inr rfl, ⟨_, rfl⟩, rfl⟩
      · exact ⟨.inr rfl, ⟨_, rfl⟩, rfl⟩
    · right
      cases v with
      | text s =>
        simp only [check, storage] at h
        split at h
        case h_1 c hs =>
          split_ifs at h with hc
          have hv : Value.text s = .ofChar c := by
            rw [Value.ofChar, String.singleton_eq_ofList, ← hs, String.ofList_toList]
          cases h
          exact ⟨rfl, ⟨c, hv, hc⟩, rfl⟩
        case h_2 => cases h
      | int | float | list | tuple | unit => cases h

theorem convert_number {t : CType} (ht : ¬t.isInteger) {v : Value} {x : Double} (hx : v.float? = some x) :
    t.convert v = .float (t.round x) := by
  cases v with
  | int i => cases hx; rw [convert, if_neg ht]
  | float x => cases hx; rfl
  | text | list | tuple | unit => cases hx

/-- A value that a type accepts has an encoding, of the size of the type. -/
theorem encode_of_check {t : CType} {v : Value} {w : Option RangeWarning} (h : t.check v = .ok w) :
    ∃ bytes, t.encode v = .ok bytes ∧ bytes.length = t.size ∧ t.decode bytes = t.convert v := by
  rcases accepted_cases h with ⟨i, min, max, rfl, hr, -⟩ | ⟨ht, ⟨x, hx⟩, -⟩ | ⟨rfl, ⟨c, rfl, hc⟩, -⟩
  · have ht : t.isInteger := by rw [isInteger, hr]; rfl
    exact ⟨_, encode_int ht i, Bytes.length_ofNat _ _, by rw [decode_wrap ht, convert, if_pos ht]⟩
  · have hc : t.convert v = .float (t.round x) := convert_number (by rcases ht with rfl | rfl <;> decide) hx
    rw [hc]
    rcases ht with rfl | rfl
    · refine ⟨Bytes.ofNat 4 x.toSingle.bits.toNat, ?_, Bytes.length_ofNat _ _, ?_⟩
      · simp [encode, storage, hx]
      · have hn : Bytes.toNat (Bytes.ofNat 4 x.toSingle.bits.toNat) = _ := Bytes.toNat_ofNat_of_lt x.toSingle.bits.isLt
        simp [decode, storage, hn, round]
    · refine ⟨Bytes.ofNat 8 x.bits.toNat, ?_, Bytes.length_ofNat _ _, ?_⟩
      · simp [encode, storage, hx]
      · have hn : Bytes.toNat (Bytes.ofNat 8 x.bits.toNat) = _ := Bytes.toNat_ofNat_of_lt x.bits.isLt
        simp [decode, storage, hn, round]
  · refine ⟨[UInt8.ofNat c.toNat], ?_, rfl, ?_⟩
    · simp [encode, storage, Value.ofChar]
    · simp [decode, storage, Bytes.toNat_singleton hc, Value.ofChar, convert]

theorem Accepts.isLeaf_convert {t : CType} {v : Value} (h : t.Accepts v) : (t.convert v).IsLeaf := by
  obtain ⟨w, hw⟩ := h
  obtain ⟨bytes, -, -, hd⟩ := encode_of_check hw
  intro items hv
  rw [hv] at hd
  cases t <;> cases hd

/-- How a leaf and the value read back for it belong together: an integer wraps around to the one value of its type
that is congruent to it, a character stays the same, and so does a number of double precision. -/
structure Conversion (t : CType) (x y : Value) : Prop where
  integer : t.isInteger → ∃ i j, x = .int i ∧ y = .int j ∧ ∀ k, t.Residue i k ↔ k = j
  character : t = .char → y = x
  double : t = .double → ∃ d, x.float? = some d ∧ y = .float d
  single : t = .float → ∃ d, x.float? = some d ∧ y = .ofSingle d.toSingle

theorem conversion_convert {t : CType} {v : Value} (h : t.Accepts v) : t.Conversion v (t.convert v) := by
  obtain ⟨w, hw⟩ := h
  rcases accepted_cases hw with ⟨i, min, max, rfl, hr, -⟩ | ⟨ht, ⟨x, hx⟩, -⟩ | ⟨rfl, ⟨c, rfl, -⟩, -⟩
  · have ht : t.isInteger := by rw [isInteger, hr]; rfl
    refine ⟨fun _ => ⟨i, t.wrap i, rfl, by rw [convert, if_pos ht], residue_iff ht i⟩, ?_, ?_, ?_⟩ <;>
      · intro he
        subst he
        cases ht
  · have hn : ¬t.isInteger := by rcases ht with rfl | rfl <;> decide
    have hc := convert_number hn hx
    refine ⟨fun h => absurd h hn, ?_, ?_, ?_⟩
    · intro he
      subst he
      rcases ht with h | h <;> cases h
    · intro he
      subst he
      exact ⟨x, hx, hc⟩
    · intro he
      subst he
      exact ⟨x, hx, hc⟩
  · exact ⟨fun h => absurd h (by decide), fun _ => rfl, nofun, nofun⟩

/-- The warning that an integer was read back as another one. -/
def changeWarning (t : CType) : Value → Value → Option RangeWarning
  | .int i, .int j => if j = i then none else t.range.map fun r => ⟨t, i, r.1, r.2⟩
  | _, _ => none

theorem warning_eq_change {t : CType} {v : Value} (h : t.Accepts v) :
    t.warning? v = t.changeWarning v (t.convert v) := by
  rcases accepted_cases h.check_eq with ⟨i, min, max, rfl, hr, hw⟩ | ⟨ht, ⟨x, hx⟩, hw⟩ | ⟨rfl, ⟨c, rfl, -⟩, hw⟩
  · have ht : t.isInteger := by rw [isInteger, hr]; rfl
    have hfix : t.wrap i = i ↔ min ≤ i ∧ i ≤ max := by
      rw [eq_comm, ← residue_iff ht, Residue, Holds, hr]
      simp [Int.ModEq.refl]
    rw [hw, convert, if_pos ht, changeWarning, hr, Option.map_some]
    by_cases hi : min ≤ i ∧ i ≤ max
    · rw [if_pos (hfix.2 hi), if_neg (by omega)]
    · rw [if_neg fun hj => hi (hfix.1 hj), if_pos (by omega)]
  · have hn : ¬t.isInteger := by rcases ht with rfl | rfl <;> decide
    rw [hw, convert_number hn hx]
    cases v <;> rfl
  · exact hw

theorem changeWarning_eq_none_iff {t : CType} (ht : t.isInteger) {v : Value} (h : t.Accepts v) :
    t.changeWarning v (t.convert v) = none ↔ t.convert v = v := by
  obtain ⟨i, j, rfl, hj, -⟩ := (conversion_convert h).integer ht
  obtain ⟨min, hr⟩ := range_eq ht
  rw [hj, changeWarning, hr, Value.int.injEq]
  split_ifs with hij <;> simp [hij]

end CType

end InlineAsm
