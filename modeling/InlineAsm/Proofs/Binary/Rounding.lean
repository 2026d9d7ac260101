import InlineAsm.Binary.Format
import Mathlib.Algebra.Order.Ring.Nat
import Mathlib.Data.Nat.Dist
import Mathlib.Order.Monotone.Basic
import Mathlib.Tactic.Ring

/-! Rounding in exact arithmetic. The value of a magnitude rises strictly with its pattern, so the numbers that are
rounded to a magnitude are told by the middles between it and its two neighbours. -/

namespace InlineAsm.Binary

/-- Which of the two whole numbers around a quotient is the nearest. -/
theorem roundQuotient_cases {d : Nat} (hd : 0 < d) (n : Nat) :
    n / d * d ≤ n ∧ n < (n / d + 1) * d ∧
    (roundQuotient n d = n / d ∧
        (2 * n < (2 * (n / d) + 1) * d ∨ 2 * n = (2 * (n / d) + 1) * d ∧ n / d % 2 = 0) ∨
      roundQuotient n d = n / d + 1 ∧
        ((2 * (n / d) + 1) * d < 2 * n ∨ (2 * (n / d) + 1) * d = 2 * n ∧ (n / d + 1) % 2 = 0)) := by
  have hn : n / d * d + n % d = n := Nat.div_add_mod' n d
  have hr : n % d < d := Nat.mod_lt n hd
  have hmiddle : (2 * (n / d) + 1) * d = 2 * (n / d * d) + d := by ring
  have hnext : (n / d + 1) * d = n / d * d + d := by ring
  refine ⟨by omega, by omega, ?_⟩
  unfold roundQuotient
  dsimp only
  split_ifs with h
  · left
    exact ⟨rfl, by omega⟩
  · right
    exact ⟨rfl, by omega⟩

namespace Format

variable (f : Format)

/-- Twice the value halfway between a magnitude and the next one. -/
def middle (m : Nat) : Nat := f.units m + f.units (m + 1)

/-- `m` is a finite magnitude, and no other one is as near to `n / d` units, unless `m` is even and the other as near as
`m`. -/
def Nearest (n d m : Nat) : Prop :=
  m < f.infinity ∧ ∀ k < f.infinity, k ≠ m →
    (f.units m * d).dist n < (f.units k * d).dist n ∨ (f.units m * d).dist n = (f.units k * d).dist n ∧ m % 2 = 0

/-- No middle lies between `n / d` units and `m`, and one that is met belongs to the even of its neighbours. -/
structure Rounds (n d m : Nat) : Prop where
  lower : ∀ k, k + 1 = m → f.middle k * d < 2 * n ∨ f.middle k * d = 2 * n ∧ m % 2 = 0
  upper : 2 * n < f.middle m * d ∨ 2 * n = f.middle m * d ∧ m % 2 = 0

/-- A significand scaled by a power of two. It may be that of the next power of two as well. -/
theorem units_of_significand {e K : Nat} (hlt : K ≤ 2 * 2 ^ f.fractionBits) (hle : 2 ^ f.fractionBits ≤ K ∨ e = 0) :
    f.units (e * 2 ^ f.fractionBits + K) = K * 2 ^ e := by
  have hpos : 0 < 2 ^ f.fractionBits := Nat.two_pow_pos _
  unfold units
  simp only [twoPow, Nat.pow_eq]
  generalize 2 ^ f.fractionBits = P at *
  rw [Nat.add_comm, Nat.add_mul_mod_self_right, Nat.add_mul_div_right _ _ hpos]
  rcases Nat.lt_or_ge K P with h | h
  · obtain rfl : e = 0 := hle.resolve_left (by omega)
    simp [Nat.div_eq_of_lt h, Nat.mod_eq_of_lt h]
  rcases Nat.lt_or_ge K (2 * P) with h₂ | h₂
  · have hq : K / P = 1 := Nat.div_eq_of_lt_le (by omega) (by omega)
    have hr : K % P = K - P := by rw [Nat.mod_eq_sub_mod h, Nat.mod_eq_of_lt (by omega)]
    rw [hq, hr, Nat.add_comm 1 e, Nat.add_sub_cancel' h]
  · obtain rfl : K = 2 * P := by omega
    rw [Nat.mul_mod_left, Nat.mul_div_cancel _ hpos, Nat.add_comm 2 e]
    simp only [Nat.add_zero, pow_succ]
    ring

theorem exists_significand (m : Nat) :
    ∃ e K, m = e * 2 ^ f.fractionBits + K ∧ K < 2 * 2 ^ f.fractionBits ∧ (2 ^ f.fractionBits ≤ K ∨ e = 0) := by
  have hpos : 0 < 2 ^ f.fractionBits := Nat.two_pow_pos _
  generalize 2 ^ f.fractionBits = P at *
  have hm : m / P * P + m % P = m := Nat.div_add_mod' m P
  have hr : m % P < P := Nat.mod_lt m hpos
  cases hq : m / P with
  | zero => exact ⟨0, m, by omega, by rw [hq] at hm; omega, .inr rfl⟩
  | succ e =>
    rw [hq, Nat.succ_mul] at hm
    exact ⟨e, P + m % P, by omega, by omega, .inl (Nat.le_add_right _ _)⟩

variable {f} {n d m : Nat}

theorem units_lt_succ (m : Nat) : f.units m < f.units (m + 1) := by
  obtain ⟨e, K, rfl, hlt, hle⟩ := f.exists_significand m
  rw [Nat.add_assoc, f.units_of_significand hlt.le hle, f.units_of_significand (K := K + 1) hlt (by omega)]
  exact Nat.mul_lt_mul_of_pos_right (Nat.lt_succ_self K) (Nat.two_pow_pos e)

theorem units_strictMono : StrictMono f.units := strictMono_nat_of_lt_succ units_lt_succ

/-- A middle has one more bit than the significands. -/
theorem exists_middle_eq (m : Nat) :
    ∃ e K, K < 2 * 2 ^ f.fractionBits ∧ f.middle m = (2 * K + 1) * 2 ^ e := by
  obtain ⟨e, K, rfl, hlt, hle⟩ := f.exists_significand m
  refine ⟨e, K, hlt, ?_⟩
  rw [middle, Nat.add_assoc, f.units_of_significand hlt.le hle, f.units_of_significand (K := K + 1) hlt (by omega)]
  ring

/-- What a significand can hold is a value of the format at any scale. -/
theorem exists_units_eq (e : Nat) : ∀ {K : Nat}, K ≤ 2 * 2 ^ f.fractionBits → ∃ m, f.units m = K * 2 ^ e := by
  induction e with
  | zero => exact fun hK => ⟨_, f.units_of_significand hK (.inr rfl)⟩
  | succ e ih =>
    intro K hK
    by_cases hle : 2 ^ f.fractionBits ≤ K
    · exact ⟨_, f.units_of_significand hK (.inl hle)⟩
    · obtain ⟨m, hm⟩ := ih (K := 2 * K) (by omega)
      refine ⟨m, ?_⟩
      rw [hm, pow_succ]
      ring

theorem Rounds.le_of_le {p : Nat} (h : f.Rounds n d m) (hd : 0 < d) (hp : n ≤ f.units p * d) : m ≤ p := by
  by_contra hlt
  obtain ⟨k, rfl⟩ : ∃ k, m = k + 1 := ⟨m - 1, by omega⟩
  have hpk : f.units p ≤ f.units k := units_strictMono.monotone (by omega)
  have hk := Nat.mul_lt_mul_of_pos_right (units_lt_succ (f := f) k) hd
  have hpk' := Nat.mul_le_mul_right d hpk
  have hlower := h.lower k rfl
  rw [middle, Nat.add_mul] at hlower
  omega

theorem Rounds.ge_of_ge {p : Nat} (h : f.Rounds n d m) (hd : 0 < d) (hp : f.units p * d ≤ n) : p ≤ m := by
  by_contra hlt
  have hpm : f.units (m + 1) ≤ f.units p := units_strictMono.monotone (by omega)
  have hm := Nat.mul_lt_mul_of_pos_right (units_lt_succ (f := f) m) hd
  have hpm' := Nat.mul_le_mul_right d hpm
  have hupper := h.upper
  rw [middle, Nat.add_mul] at hupper
  omega

/-- Being nearest is a matter of the two middles next to a magnitude. -/
theorem nearest_iff_rounds (hd : 0 < d) (hm : m + 1 < f.infinity) : f.Nearest n d m ↔ f.Rounds n d m := by
  have hsucc : ∀ k, f.units k * d < f.units (k + 1) * d :=
    fun k => Nat.mul_lt_mul_of_pos_right (units_lt_succ k) hd
  have hmono : ∀ {k l}, k ≤ l → f.units k * d ≤ f.units l * d :=
    fun h => Nat.mul_le_mul_right d (units_strictMono.monotone h)
  constructor
  · intro h
    obtain ⟨-, h⟩ := h
    refine ⟨?_, ?_⟩
    · rintro k rfl
      have hk := h k (by omega) (by omega)
      have := hsucc k
      rw [middle, Nat.add_mul]
      simp only [Nat.dist] at hk
      omega
    · have hk := h (m + 1) hm (by omega)
      have := hsucc m
      rw [middle, Nat.add_mul]
      simp only [Nat.dist] at hk
      omega
  · intro h
    obtain ⟨hlower, hupper⟩ := h
    refine ⟨by omega, fun k _ hk => ?_⟩
    simp only [Nat.dist]
    rw [middle, Nat.add_mul] at hupper
    rcases Nat.lt_or_gt_of_ne hk with hlt | hgt
    · obtain ⟨l, rfl⟩ : ∃ l, m = l + 1 := ⟨m - 1, by omega⟩
      have hl := hlower l rfl
      have := hsucc l
      have := hmono (show k ≤ l by omega)
      rw [middle, Nat.add_mul] at hl
      omega
    · have := hsucc m
      have := hmono (show m + 1 ≤ k by omega)
      omega

/-- The significand and the shift with which `nearest` starts. -/
theorem shift_spec (f : Format) (q : Nat) :
    q / 2 ^ (q.log2 - f.fractionBits) < 2 * 2 ^ f.fractionBits ∧
      (2 ^ f.fractionBits ≤ q / 2 ^ (q.log2 - f.fractionBits) ∨ q.log2 - f.fractionBits = 0) := by
  rcases Nat.eq_zero_or_pos q with rfl | hq
  · exact ⟨by simp, .inr (by simp)⟩
  have hlow : 2 ^ q.log2 ≤ q := Nat.log2_self_le (by omega)
  have hhigh : q < 2 ^ (q.log2 + 1) := Nat.lt_log2_self
  generalize q.log2 = l at *
  rcases Nat.le_total l f.fractionBits with h | h
  · rw [Nat.sub_eq_zero_of_le h, pow_zero, Nat.div_one]
    refine ⟨hhigh.trans_le ?_, .inr rfl⟩
    rw [← pow_succ']
    exact Nat.pow_le_pow_right (by decide) (by omega)
  · obtain ⟨s, rfl⟩ := Nat.exists_eq_add_of_le h
    rw [Nat.add_sub_cancel_left, Nat.div_lt_iff_lt_mul (Nat.two_pow_pos s), Nat.le_div_iff_mul_le (Nat.two_pow_pos s),
      ← pow_add, ← pow_succ', ← pow_add]
    refine ⟨?_, .inl hlow⟩
    rwa [Nat.add_right_comm] at hhigh

theorem nearest_eq_min (f : Format) (hf : f.fractionBits ≠ 0) (n : Nat) (hd : 0 < d) :
    ∃ m, f.nearest n d = min m f.infinity ∧ f.Rounds n d m := by
  obtain ⟨hlt, hle⟩ := f.shift_spec (n / d)
  set s := (n / d).log2 - f.fractionBits with hs
  have hD : 0 < d * 2 ^ s := Nat.mul_pos hd (Nat.two_pow_pos s)
  obtain ⟨hlow, hhigh, hcases⟩ := roundQuotient_cases hD n
  refine ⟨s * 2 ^ f.fractionBits + roundQuotient n (d * 2 ^ s), rfl, ?_⟩
  rw [← Nat.div_div_eq_div_mul] at hlow hhigh hcases
  generalize n / d / 2 ^ s = q at *
  set a := s * 2 ^ f.fractionBits with ha
  have heven : a % 2 = 0 := by
    rw [ha, ← Nat.succ_pred_eq_of_ne_zero hf, pow_succ, ← Nat.mul_assoc, Nat.mul_mod_left]
  have hunits : f.units (a + q) * d = q * (d * 2 ^ s) := by
    rw [f.units_of_significand hlt.le hle]
    ring
  have hunits' : f.units (a + q + 1) * d = (q + 1) * (d * 2 ^ s) := by
    rw [Nat.add_assoc, f.units_of_significand (K := q + 1) hlt (by omega)]
    ring
  have hmiddle : f.middle (a + q) * d = (2 * q + 1) * (d * 2 ^ s) := by
    rw [middle, Nat.add_mul, hunits, hunits']
    ring
  rw [← hunits] at hlow
  rw [← hunits'] at hhigh
  rw [← hmiddle] at hcases
  rcases hcases with ⟨hround, h⟩ | ⟨hround, h⟩ <;> rw [hround]
  · refine ⟨fun k hk => ?_, by omega⟩
    have hprev := Nat.mul_lt_mul_of_pos_right (units_lt_succ (f := f) k) hd
    rw [hk] at hprev
    rw [middle, Nat.add_mul, hk]
    omega
  · refine ⟨fun k hk => ?_, ?_⟩
    · obtain rfl : k = a + q := by omega
      omega
    · have hnext := Nat.mul_lt_mul_of_pos_right (units_lt_succ (f := f) (a + q + 1)) hd
      rw [middle, Nat.add_mul, ← Nat.add_assoc]
      omega

/-- A quotient that a finite magnitude bounds is rounded to a finite one, not above it. -/
theorem rounds_nearest (hf : f.fractionBits ≠ 0) (hd : 0 < d) {p : Nat} (hp : p < f.infinity)
    (hn : n ≤ f.units p * d) : f.Rounds n d (f.nearest n d) ∧ f.nearest n d ≤ p := by
  obtain ⟨m, hm, h⟩ := f.nearest_eq_min hf n hd
  have hle := h.le_of_le hd hn
  rw [hm, Nat.min_eq_left (by omega)]
  exact ⟨h, hle⟩

/-- Only the quotient counts. -/
theorem nearest_mul_iff {c : Nat} (hc : 0 < c) : f.Nearest (n * c) (d * c) m ↔ f.Nearest n d m := by
  simp only [Nearest, ← Nat.mul_assoc, Nat.dist_mul_right, Nat.mul_lt_mul_right hc, Nat.mul_left_inj hc.ne']

end Format

end InlineAsm.Binary
