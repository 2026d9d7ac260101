import InlineAsm.Mnemonic
import Mathlib.Data.List.Forall2

/-! What opcodes make of operands. An instruction carries the operands as they were given, and all else in it goes with
the opcode. -/

namespace InlineAsm

theorem forall_mem_of_forall₂ {α β : Type} {R : α → β → Prop} {P : β → Prop} {xs : List α} {ys : List β}
    (h : List.Forall₂ R xs ys) (hR : ∀ x ∈ xs, ∀ y, R x y → P y) : ∀ y ∈ ys, P y := by
  induction h with
  | nil => exact nofun
  | cons hxy _ ih =>
    obtain ⟨hx, hxs⟩ := List.forall_mem_cons.1 hR
    exact List.forall_mem_cons.2 ⟨hx _ hxy, ih hxs⟩

namespace Opcode

theorem refused?_eq_none_iff : ∀ {slots : List (List Capability)} {operands : List Operand} (index : Nat),
    operands.length = slots.length →
      (refused? index slots operands = none ↔ List.Forall₂ (fun slot x => slot.any (·.admits x)) slots operands) := by
  intro slots
  induction slots with
  | nil =>
    intro operands index h
    obtain rfl := List.length_eq_zero_iff.1 h
    simp [refused?]
  | cons slot slots ih =>
    intro operands index h
    cases operands with
    | nil => simp at h
    | cons x operands =>
      rw [refused?, List.forall₂_cons]
      split_ifs with hx
      · rw [ih (index + 1) (Nat.succ.inj h), and_iff_right hx]
      · simp [hx]

/-- An opcode takes as many operands as it has slots, each admitted by its slot, and nothing else. -/
theorem apply_eq_ok_iff {o : Opcode} {operands : List Operand} {i : Instruction} :
    o.apply operands = .ok i ↔
      List.Forall₂ (fun slot x => slot.any (·.admits x)) o.slots operands ∧ i = ⟨o.name, operands, o.implicit⟩ := by
  unfold apply
  split_ifs with hlength
  · refine iff_of_false nofun ?_
    exact fun h => hlength h.1.length_eq.symm
  · rw [not_not] at hlength
    rw [← refused?_eq_none_iff 0 hlength]
    cases refused? 0 o.slots operands with
    | none => simp [eq_comm]
    | some r => simp

end Opcode

namespace Mnemonic

theorem name_injective : name.Injective := by
  intro m n h
  have hm : ofName? m.name = some m := by cases m <;> decide
  have hn : ofName? n.name = some n := by cases n <;> decide
  rw [h] at hm
  exact Option.some.inj (hm.symm.trans hn)

/-- No built-in opcode takes a float. -/
theorem not_float_mem_slots (m : Mnemonic) : ∀ slot ∈ m.slots, ∀ c ∈ slot, c ≠ .float := by
  cases m <;> decide

end Mnemonic

/-- A literal that is a number of double precision. -/
def Operand.IsFloat : Operand → Prop
  | .literal (.float _) => True
  | _ => False

namespace Capability

theorem not_isFloat_of_admits {c : Capability} (hc : c ≠ .float) {x : Operand} (h : c.admits x) : ¬x.IsFloat := by
  intro hx
  match x, hx with
  | .literal (.float _), _ => cases c <;> first | exact hc rfl | cases h

end Capability

namespace Instruction

/-- The instruction comes from a built-in opcode. -/
def BuiltIn (i : Instruction) : Prop := ∃ (m : Mnemonic) (operands : List Operand), m.opcode.apply operands = .ok i

variable {i j : Instruction}

/-- All of a built-in instruction but its operands goes with the opcode, and no operand is a float. -/
theorem BuiltIn.spec (h : i.BuiltIn) :
    ∃ m : Mnemonic, i.opcode = m.name ∧ i.implicit = m.implicit ∧ ∀ x ∈ i.operands, ¬x.IsFloat := by
  obtain ⟨m, operands, h⟩ := h
  obtain ⟨hadmits, rfl⟩ := Opcode.apply_eq_ok_iff.1 h
  refine ⟨m, rfl, rfl, forall_mem_of_forall₂ hadmits fun slot hslot x hx => ?_⟩
  obtain ⟨c, hc, hx⟩ := List.any_eq_true.1 hx
  exact Capability.not_isFloat_of_admits (m.not_float_mem_slots slot hslot c hc) hx

theorem BuiltIn.implicit_eq (hi : i.BuiltIn) (hj : j.BuiltIn) (h : i.opcode = j.opcode) : i.implicit = j.implicit := by
  obtain ⟨m, hm, himplicit, -⟩ := hi.spec
  obtain ⟨n, hn, himplicit', -⟩ := hj.spec
  rw [hm, hn, Mnemonic.name_injective.eq_iff] at h
  rw [himplicit, himplicit', h]

end Instruction

end InlineAsm
