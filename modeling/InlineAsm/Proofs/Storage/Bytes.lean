import InlineAsm.Storage.Bytes
import Mathlib.Tactic.Ring

/-! Numbers as little-endian bytes, one number for each list of bytes of a given length, and lists that are put together
from blocks of one length: cutting such a list gives the blocks back. -/

namespace InlineAsm.Bytes

@[simp] theorem length_ofNat (width n : Nat) : (ofNat width n).length = width := by
  induction width generalizing n with
  | zero => rfl
  | succ width ih => simp only [ofNat, List.length_cons, ih]

theorem toNat_ofNat (width n : Nat) : toNat (ofNat width n) = n % 256 ^ width := by
  induction width generalizing n with
  | zero => simp [ofNat, toNat, Nat.mod_one]
  | succ width ih =>
    have hb : (UInt8.ofNat n).toNat = n % 256 := UInt8.toNat_ofNat'
    rw [ofNat, toNat, ih, hb, pow_succ', Nat.mod_mul]

theorem toNat_ofNat_of_lt {width n : Nat} (h : n < 256 ^ width) : toNat (ofNat width n) = n := by
  rw [toNat_ofNat, Nat.mod_eq_of_lt h]

theorem toNat_singleton {n : Nat} (h : n ≤ 0xFF) : toNat [UInt8.ofNat n] = n := by
  have hb : (UInt8.ofNat n).toNat = n % 256 := UInt8.toNat_ofNat'
  rw [toNat, toNat, hb]
  omega

theorem toNat_lt (bytes : List UInt8) : toNat bytes < 256 ^ bytes.length := by
  induction bytes with
  | nil => exact Nat.one_pos
  | cons b bytes ih =>
    have hb : b.toNat < 256 := b.toNat_lt
    rw [toNat, List.length_cons, pow_succ']
    omega

theorem ofNat_toNat (bytes : List UInt8) : ofNat bytes.length (toNat bytes) = bytes := by
  induction bytes with
  | nil => rfl
  | cons b bytes ih =>
    have hb : b.toNat < 256 := b.toNat_lt
    have hhead : UInt8.ofNat (b.toNat + 256 * toNat bytes) = b := by
      rw [← UInt8.toNat_inj, UInt8.toNat_ofNat']
      omega
    have htail : (b.toNat + 256 * toNat bytes) / 256 = toNat bytes := by omega
    rw [List.length_cons, toNat, ofNat, hhead, htail, ih]

variable {α : Type}

theorem exists_blocks {n k : Nat} :
    ∀ {xs : List α}, xs.length = k * n →
      ∃ bs : List (List α), bs.length = k ∧ (∀ b ∈ bs, b.length = n) ∧ bs.flatten = xs := by
  induction k with
  | zero =>
    intro xs h
    rw [Nat.zero_mul, List.length_eq_zero_iff] at h
    exact ⟨[], rfl, nofun, h.symm⟩
  | succ k ih =>
    intro xs h
    rw [Nat.succ_mul] at h
    have hrest : (xs.drop n).length = k * n := by
      rw [List.length_drop]
      omega
    obtain ⟨bs, hk, hn, hbs⟩ := ih hrest
    refine ⟨xs.take n :: bs, congrArg (· + 1) hk, List.forall_mem_cons.2 ⟨?_, hn⟩, ?_⟩
    · rw [List.length_take]
      omega
    · rw [List.flatten_cons, hbs, List.take_append_drop]

theorem blocks_nil (n : Nat) : blocks n ([] : List α) = [] := by
  cases n <;> simp [blocks]

theorem blocks_append {n : Nat} (hn : 0 < n) {b : List α} (hb : b.length = n) (rest : List α) :
    blocks n (b ++ rest) = b :: blocks n rest := by
  obtain ⟨n, rfl⟩ : ∃ m, n = m + 1 := ⟨n - 1, by omega⟩
  cases b with
  | nil => simp at hb
  | cons x b =>
    have hb' : b.length = n := by simpa using hb
    rw [List.cons_append, blocks, ← hb', List.take_left', List.drop_left'] <;> rfl

theorem blocks_flatten {n : Nat} (hn : 0 < n) :
    ∀ bs : List (List α), (∀ b ∈ bs, b.length = n) → blocks n bs.flatten = bs := by
  intro bs
  induction bs with
  | nil => intro _; exact blocks_nil n
  | cons b bs ih =>
    intro h
    rw [List.flatten_cons, blocks_append hn (h b (by simp)), ih (fun c hc => h c (by simp [hc]))]

theorem getElem?_flatten {n r : Nat} (hr : r < n) :
    ∀ {bs : List (List α)}, (∀ b ∈ bs, b.length = n) → ∀ i : Nat, bs.flatten[i * n + r]? = bs[i]?.bind (·[r]?) := by
  intro bs
  induction bs with
  | nil => simp
  | cons b bs ih =>
    intro h i
    obtain ⟨hb, hbs⟩ := List.forall_mem_cons.1 h
    rw [List.flatten_cons]
    cases i with
    | zero => simp [List.getElem?_append_left (hb.symm ▸ hr)]
    | succ i =>
      have hskip : (i + 1) * n + r - b.length = i * n + r := by
        rw [hb, Nat.succ_mul]
        omega
      rw [List.getElem?_append_right, hskip, ih hbs, List.getElem?_cons_succ]
      rw [hb, Nat.succ_mul]
      omega

/-- The block at a position of a list that is put together from blocks. -/
theorem take_drop_flatten {n : Nat} :
    ∀ {bs : List (List α)}, (∀ b ∈ bs, b.length = n) → ∀ {i : Nat} {b : List α}, bs[i]? = some b →
      (bs.flatten.drop (n * i)).take n = b := by
  intro bs
  induction bs with
  | nil => simp
  | cons b bs ih =>
    intro h i c hc
    obtain ⟨rfl, hbs⟩ := List.forall_mem_cons.1 h
    rw [List.flatten_cons]
    cases i with
    | zero =>
      obtain rfl := Option.some.inj hc
      simp
    | succ i =>
      rw [Nat.mul_succ, Nat.add_comm, ← List.drop_drop, List.drop_left]
      exact ih hbs hc

end InlineAsm.Bytes
