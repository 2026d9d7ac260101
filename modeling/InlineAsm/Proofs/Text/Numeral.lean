import InlineAsm.Text.Numeral
import Mathlib.Data.Nat.Basic

/-! Decimal numerals are read back as the numbers that they were written for, so two numbers are never written alike.
What is read at all is the ASCII digits, as the number that they stand for, up to the limit. -/

namespace InlineAsm.Text.Numeral

theorem digitValue_digitChar : ∀ d < 10, digitValue? (Nat.digitChar d) = some d := by decide

theorem readDigits_digits {limit n : Nat} (hn : n ≤ limit) (rest : List Char) :
    readDigits limit 0 (digits n ++ rest) = readDigits limit n rest := by
  induction n using Nat.strongRecOn generalizing rest with
  | ind n ih =>
    rw [digits]
    split_ifs with h
    · have hd := digitValue_digitChar n h
      simp only [List.singleton_append, readDigits, hd, Nat.mul_zero, Nat.zero_add]
      rw [if_neg (by omega)]
    · have hd := digitValue_digitChar (n % 10) (Nat.mod_lt n (by decide))
      have hq : 10 * (n / 10) + n % 10 = n := Nat.div_add_mod n 10
      rw [List.append_assoc, ih (n / 10) (by omega) (by omega)]
      simp only [List.singleton_append, readDigits, hd, hq]
      rw [if_neg (by omega)]

theorem digits_injective {m n : Nat} (h : digits m = digits n) : m = n := by
  have hm := readDigits_digits (Nat.le_max_left m n) []
  have hn := readDigits_digits (Nat.le_max_right m n) []
  rw [h, hn] at hm
  exact (Except.ok.inj hm).symm

theorem ofNat_injective {m n : Nat} (h : ofNat m = ofNat n) : m = n :=
  digits_injective (String.ofList_injective h)

def IsDigit (c : Char) : Prop := '0' ≤ c ∧ c ≤ '9'

instance (c : Char) : Decidable (IsDigit c) := inferInstanceAs (Decidable (_ ∧ _))

theorem isDigit_digitChar : ∀ d < 10, IsDigit (Nat.digitChar d) := by decide

theorem isDigit_of_mem_digits {n : Nat} : ∀ c ∈ digits n, IsDigit c := by
  induction n using Nat.strongRecOn with
  | ind n ih =>
    rw [digits]
    split_ifs with h
    · exact List.forall_mem_singleton.2 (isDigit_digitChar n h)
    · have hlast := isDigit_digitChar (n % 10) (Nat.mod_lt n (by decide))
      exact List.forall_mem_append.2 ⟨ih (n / 10) (by omega), List.forall_mem_singleton.2 hlast⟩

theorem IsDigit.ne {c d : Char} (hc : IsDigit c) (hd : ¬IsDigit d) : c ≠ d := by
  rintro rfl
  exact hd hc

theorem not_mem_ofNat {c : Char} (hc : ¬IsDigit c) (n : Nat) : c ∉ (ofNat n).toList := by
  rw [ofNat, String.toList_ofList]
  exact fun h => hc (isDigit_of_mem_digits c h)

theorem ofInt_injective : ofInt.Injective := by
  intro i j h
  have hsign : ∀ m n, "-" ++ ofNat m ≠ ofNat n := by
    intro m n h
    refine not_mem_ofNat (c := '-') (by decide) n ?_
    rw [← h, String.toList_append]
    exact List.mem_append_left _ (by decide)
  unfold ofInt at h
  split_ifs at h with hi hj hj
  · have habs := ofNat_injective ((String.append_right_inj "-").1 h)
    omega
  · exact absurd h (hsign _ _)
  · exact absurd h.symm (hsign _ _)
  · have habs := ofNat_injective h
    omega
/-- The number that digits behind `n` stand for. -/
def valueFrom (n : Nat) (ds : List Char) : Nat := ds.foldl (fun n c => 10 * n + (c.toNat - '0'.toNat)) n

theorem valueFrom_cons (n : Nat) (c : Char) (ds : List Char) :
    valueFrom n (c :: ds) = valueFrom (10 * n + (c.toNat - '0'.toNat)) ds := List.foldl_cons ..

theorem le_valueFrom (ds : List Char) : ∀ n, n ≤ valueFrom n ds := by
  induction ds with
  | nil => exact fun n => le_rfl
  | cons c ds ih =>
    intro n
    have h := ih (10 * n + (c.toNat - '0'.toNat))
    rw [valueFrom_cons]
    omega

theorem readDigits_eq_ok_iff {limit m : Nat} {ds : List Char} :
    ∀ {n : Nat}, n ≤ limit →
      (readDigits limit n ds = .ok m ↔ (∀ c ∈ ds, IsDigit c) ∧ m = valueFrom n ds ∧ m ≤ limit) := by
  induction ds with
  | nil =>
    intro n hn
    rw [readDigits, Except.ok.injEq]
    refine ⟨?_, fun h => h.2.1.symm⟩
    intro h
    exact ⟨nofun, h.symm, h ▸ hn⟩
  | cons c ds ih =>
    intro n hn
    rw [List.forall_mem_cons]
    by_cases hc : IsDigit c
    · have hd : digitValue? c = some (c.toNat - '0'.toNat) := if_pos hc
      simp only [readDigits, hd]
      split_ifs with hlimit
      · have hle := le_valueFrom ds (10 * n + (c.toNat - '0'.toNat))
        simp only [valueFrom_cons, false_iff]
        intro h
        obtain ⟨-, rfl, hm⟩ := h
        omega
      · rw [ih (by omega), and_iff_right hc, valueFrom_cons]
    · have hd : digitValue? c = none := if_neg hc
      simp only [readDigits, hd, reduceCtorEq, false_iff]
      exact fun h => hc h.1.1

theorem readNatural_eq_ok_iff {limit m : Nat} {ds : List Char} (hne : ds ≠ []) (hplus : '+' ∉ ds) :
    readNatural limit ds = .ok m ↔ (∀ c ∈ ds, IsDigit c) ∧ m = valueFrom 0 ds ∧ m ≤ limit := by
  rw [← readDigits_eq_ok_iff (Nat.zero_le limit)]
  unfold readNatural
  split
  · exact absurd rfl hne
  · exact absurd List.mem_cons_self hplus
  · exact absurd List.mem_cons_self hplus
  · rfl

theorem digits_ne_nil (n : Nat) : digits n ≠ [] := by
  rw [digits]
  split_ifs <;> simp

/-- Digits stand for the number that they were written for. -/
theorem valueFrom_digits (n : Nat) : valueFrom 0 (digits n) = n := by
  have h := readDigits_digits (le_refl n) []
  rw [List.append_nil, readDigits, readDigits_eq_ok_iff (Nat.zero_le n)] at h
  exact h.2.1.symm

end InlineAsm.Text.Numeral
