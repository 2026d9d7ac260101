import InlineAsm.Proofs.Instruction.Opcode

/-! Opcodes take operands slot by slot. An application fails at the number of the operands, or else at the first of
them that no capability of its slot admits, and keeps the operands as they are in all other cases. What the slots of
the built-in opcodes admit limits what their instructions can hold. -/

namespace InlineAsm

namespace Opcode

/-- Some capability of the slot at an index admits the operand there. -/
def Admitted (slots : List (List Capability)) (operands : List Operand) (k : Nat) : Prop :=
  ∃ slot x, slots[k]? = some slot ∧ operands[k]? = some x ∧ ∃ c ∈ slot, c.admits x

/-- The operand `x` at index `k` is the first that no capability of its slot admits. -/
structure FirstRefused (slots : List (List Capability)) (operands : List Operand) (k : Nat)
    (slot : List Capability) (x : Operand) : Prop where
  slot_eq : slots[k]? = some slot
  operand_eq : operands[k]? = some x
  refused : ∀ c ∈ slot, ¬c.admits x
  first : ∀ j < k, Admitted slots operands j

variable {slots : List (List Capability)} {operands : List Operand}

theorem forall₂_iff_admitted : List.Forall₂ (fun slot x => slot.any (·.admits x)) slots operands ↔
    operands.length = slots.length ∧ ∀ k < slots.length, Admitted slots operands k := by
  rw [List.forall₂_iff_get, eq_comm]
  refine and_congr_right fun hlength => ?_
  refine forall_congr' fun k => ⟨?_, ?_⟩
  · intro h hk
    have hk' : k < operands.length := hlength.symm ▸ hk
    exact ⟨slots[k], operands[k], List.getElem?_eq_getElem hk, List.getElem?_eq_getElem hk',
      List.any_eq_true.1 (h hk hk')⟩
  · intro h hk hk'
    obtain ⟨slot, x, hslot, hx, hadmits⟩ := h hk
    rw [List.getElem?_eq_getElem hk] at hslot
    rw [List.getElem?_eq_getElem hk'] at hx
    cases hslot
    cases hx
    exact List.any_eq_true.2 hadmits

theorem FirstRefused.not_admitted {k : Nat} {slot : List Capability} {x : Operand}
    (h : FirstRefused slots operands k slot x) : ¬Admitted slots operands k := by
  intro hk
  obtain ⟨slot', x', hslot, hx, c, hc, hadmits⟩ := hk
  rw [h.slot_eq] at hslot
  rw [h.operand_eq] at hx
  cases hslot
  cases hx
  exact h.refused c hc hadmits

section Cons

variable {s slot : List Capability} {y x : Operand} {k : Nat}

theorem admitted_zero_iff : Admitted (s :: slots) (y :: operands) 0 ↔ ∃ c ∈ s, c.admits y := by
  simp [Admitted]

theorem admitted_succ_iff : Admitted (s :: slots) (y :: operands) (k + 1) ↔ Admitted slots operands k := by
  simp [Admitted]

/-- Behind an operand that is admitted the first one refused is that of the rest. -/
theorem firstRefused_succ_iff (hy : ∃ c ∈ s, c.admits y) :
    FirstRefused (s :: slots) (y :: operands) (k + 1) slot x ↔ FirstRefused slots operands k slot x := by
  refine ⟨?_, ?_⟩
  · intro h
    exact ⟨h.slot_eq, h.operand_eq, h.refused, fun j hj => admitted_succ_iff.1 (h.first (j + 1) (Nat.succ_lt_succ hj))⟩
  · intro h
    refine ⟨h.slot_eq, h.operand_eq, h.refused, fun j hj => ?_⟩
    cases j with
    | zero => exact admitted_zero_iff.2 hy
    | succ j => exact admitted_succ_iff.2 (h.first j (Nat.lt_of_succ_lt_succ hj))

/-- An operand that is refused at the front is the first one. -/
theorem firstRefused_cons_iff (hy : ¬∃ c ∈ s, c.admits y) :
    FirstRefused (s :: slots) (y :: operands) k slot x ↔ k = 0 ∧ slot = s ∧ x = y := by
  refine ⟨?_, ?_⟩
  · intro h
    cases k with
    | zero => exact ⟨rfl, (Option.some.inj h.slot_eq).symm, (Option.some.inj h.operand_eq).symm⟩
    | succ k => exact absurd (admitted_zero_iff.1 (h.first 0 (Nat.succ_pos k))) hy
  · rintro ⟨rfl, rfl, rfl⟩
    exact ⟨rfl, rfl, fun c hc hadmits => hy ⟨c, hc, hadmits⟩, fun j hj => absurd hj (Nat.not_lt_zero j)⟩

end Cons

/-- The walk over the slots stops at the first operand refused. -/
theorem refused?_eq_some_iff : ∀ {operands : List Operand} {index n : Nat} {slot : List Capability} {x : Operand},
    refused? index slots operands = some (n, slot, x) ↔
      ∃ k, n = index + k ∧ FirstRefused slots operands k slot x := by
  induction slots with
  | nil =>
    intro operands index n slot x
    refine iff_of_false (by simp [refused?]) ?_
    rintro ⟨k, -, h⟩
    cases h.slot_eq
  | cons s slots ih =>
    intro operands index n slot x
    cases operands with
    | nil =>
      refine iff_of_false (by simp [refused?]) ?_
      rintro ⟨k, -, h⟩
      cases h.operand_eq
    | cons y operands =>
      rw [refused?]
      split_ifs with hy
      · rw [List.any_eq_true] at hy
        rw [ih]
        refine ⟨?_, ?_⟩
        · rintro ⟨k, rfl, h⟩
          exact ⟨k + 1, by omega, (firstRefused_succ_iff hy).2 h⟩
        · rintro ⟨k, rfl, h⟩
          cases k with
          | zero => exact absurd (admitted_zero_iff.2 hy) h.not_admitted
          | succ k => exact ⟨k, by omega, (firstRefused_succ_iff hy).1 h⟩
      · rw [List.any_eq_true] at hy
        simp only [firstRefused_cons_iff hy]
        simp [eq_comm]

theorem firstRefused_iff {k : Nat} {slot : List Capability} {x : Operand} :
    FirstRefused slots operands k slot x ↔ refused? 0 slots operands = some (k, slot, x) := by
  rw [refused?_eq_some_iff]
  simp

theorem apply_eq_error_iff {o : Opcode} {e : Error} : o.apply operands = .error e ↔
    (operands.length ≠ o.slots.length ∧ e = .operandCount o.name o.slots.length operands.length) ∨
    (operands.length = o.slots.length ∧
      ∃ k slot x, FirstRefused o.slots operands k slot x ∧ e = .operandKind o.name x.kind k slot) := by
  unfold apply
  split_ifs with hlength
  · simp [hlength, eq_comm]
  · rw [not_not] at hlength
    simp only [hlength, ne_eq, not_true_eq_false, false_and, false_or, true_and, firstRefused_iff]
    cases refused? 0 o.slots operands with
    | none => simp
    | some r =>
      obtain ⟨k, slot, x⟩ := r
      simp [eq_comm]

end Opcode

namespace Capability

/-- Which registers a capability admits. -/
theorem admits_register_cases {c : Capability} {r : Register} (h : c.admits (.register r)) :
    c = .register ∨ (c = .generalRegister ∧ r.isGeneralPurpose) ∨ (c = .segmentRegister ∧ r.isSegment) ∨
      (c = .countRegister ∧ r = .cl) := by
  cases c <;> simp_all [admits]

theorem eq_label_of_admits {c : Capability} {l : Label} (h : c.admits (.label l)) : c = .label := by
  cases c <;> first | rfl | cases h

end Capability

namespace Mnemonic

/-- No built-in opcode takes registers of every class. -/
theorem not_register_mem_slots (m : Mnemonic) : ∀ slot ∈ m.slots, ∀ c ∈ slot, c ≠ .register := by
  cases m <;> decide

theorem name_of_segmentRegister_mem (m : Mnemonic) : ∀ slot ∈ m.slots, .segmentRegister ∈ slot → m.name = "mov" := by
  cases m <;> decide

theorem name_of_label_mem (m : Mnemonic) :
    ∀ slot ∈ m.slots, .label ∈ slot → m.name ∈ ["jmp", "je", "jne", "jl", "jg"] := by
  cases m <;> decide

theorem slots_of_shift {m : Mnemonic} (h : m.name ∈ ["shl", "shr", "sal", "sar"]) : m.slots = [target, shiftCount] := by
  revert h
  cases m <;> decide

end Mnemonic

theorem Register.not_isMMX_of_isSegment {r : Register} (h : r.isSegment) : ¬r.isMMX := by
  revert h
  cases r <;> decide

namespace Instruction

/-- No operand is of a kind that the slots of the built-in opcodes leave out. -/
structure WithinTable (i : Instruction) : Prop where
  float : ∀ x, .literal (.float x) ∉ i.operands
  mmx : ∀ r, .register r ∈ i.operands → ¬r.isMMX
  segment : ∀ r, .register r ∈ i.operands → r.isSegment → i.opcode = "mov"
  label : ∀ l, .label l ∈ i.operands → i.opcode ∈ ["jmp", "je", "jne", "jl", "jg"]
  shift : i.opcode ∈ ["shl", "shr", "sal", "sar"] → ∀ r, i.operands[1]? = some (.register r) → r = .cl

variable {m : Mnemonic} {operands : List Operand} {i : Instruction}

theorem exists_capability (h : m.opcode.apply operands = .ok i) :
    ∀ x ∈ i.operands, ∃ slot ∈ m.slots, ∃ c ∈ slot, c.admits x := by
  obtain ⟨hadmits, rfl⟩ := Opcode.apply_eq_ok_iff.1 h
  exact forall_mem_of_forall₂ hadmits fun slot hslot x hx => ⟨slot, hslot, List.any_eq_true.1 hx⟩

/-- A register in a built-in instruction is a general purpose register, a segment register of `mov`, or `cl`. -/
theorem register_cases (h : m.opcode.apply operands = .ok i) {r : Register} (hr : .register r ∈ i.operands) :
    r.isGeneralPurpose ∨ (r.isSegment ∧ m.name = "mov") ∨ r = .cl := by
  obtain ⟨slot, hslot, c, hc, hadmits⟩ := exists_capability h _ hr
  rcases Capability.admits_register_cases hadmits with rfl | ⟨-, hr⟩ | ⟨rfl, hr⟩ | ⟨-, hr⟩
  · exact absurd rfl (m.not_register_mem_slots slot hslot _ hc)
  · exact .inl hr
  · exact .inr (.inl ⟨hr, m.name_of_segmentRegister_mem slot hslot hc⟩)
  · exact .inr (.inr hr)

theorem eq_cl_of_shift (h : m.opcode.apply operands = .ok i) (hm : m.name ∈ ["shl", "shr", "sal", "sar"])
    {r : Register} (hr : i.operands[1]? = some (.register r)) : r = .cl := by
  obtain ⟨hadmits, rfl⟩ := Opcode.apply_eq_ok_iff.1 h
  have hslots : m.opcode.slots = [Mnemonic.target, Mnemonic.shiftCount] := Mnemonic.slots_of_shift hm
  rw [hslots] at hadmits
  cases hadmits with
  | cons _ hrest =>
    cases hrest with
    | cons hcount _ =>
      cases hr
      obtain ⟨c, hc, hadmits⟩ := List.any_eq_true.1 hcount
      rcases Capability.admits_register_cases hadmits with rfl | ⟨rfl, -⟩ | ⟨rfl, -⟩ | ⟨-, hr⟩
      · exact absurd hc (by decide)
      · exact absurd hc (by decide)
      · exact absurd hc (by decide)
      · exact hr

theorem withinTable_of_apply (h : m.opcode.apply operands = .ok i) : i.WithinTable := by
  have hname : i.opcode = m.name := by
    obtain ⟨-, rfl⟩ := Opcode.apply_eq_ok_iff.1 h
    rfl
  constructor
  · intro x hx
    obtain ⟨slot, hslot, c, hc, hadmits⟩ := exists_capability h _ hx
    exact Capability.not_isFloat_of_admits (m.not_float_mem_slots slot hslot c hc) hadmits trivial
  · intro r hr
    rcases register_cases h hr with hr | ⟨hr, -⟩ | rfl
    · simp_all [Register.isGeneralPurpose]
    · exact Register.not_isMMX_of_isSegment hr
    · decide
  · intro r hr hsegment
    rcases register_cases h hr with hr | ⟨-, hmov⟩ | rfl
    · simp_all [Register.isGeneralPurpose]
    · exact hname.trans hmov
    · cases hsegment
  · intro l hl
    obtain ⟨slot, hslot, c, hc, hadmits⟩ := exists_capability h _ hl
    obtain rfl := Capability.eq_label_of_admits hadmits
    exact hname ▸ m.name_of_label_mem slot hslot hc
  · intro hshift r hr
    exact eq_cl_of_shift h (hname ▸ hshift) hr

theorem withinTable_of_instruction {name : String} (h : Mnemonic.instruction name operands = .ok i) :
    i.WithinTable := by
  unfold Mnemonic.instruction at h
  split at h
  · exact withinTable_of_apply h
  · cases h

end Instruction

namespace Opcode

end Opcode

end InlineAsm
