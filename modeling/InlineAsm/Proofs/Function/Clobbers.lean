import InlineAsm.Proofs.FirstOccurrence
import InlineAsm.Proofs.Function.Emitted

/-! The registers that the assembly in the source declares as overwritten are those that an instruction touches, by name
or implicitly, in the body or behind any label that the body reaches. A part of a register stands for the whole of
it. -/

namespace InlineAsm

namespace Register

/-- The name of the 32-bit register that a general purpose register is a part of, by the letters of its own name. -/
def wideName (r : Register) : String :=
  match r.width with
  | 32 => r.name
  | 16 => "e" ++ r.name
  | _ => "e" ++ String.ofList (r.name.toList.take 1) ++ "x"

/-- How a register that is touched has to be declared. The segment registers, the stack pointer and the base pointer
can not be declared. -/
def declaredName? (r : Register) : Option String :=
  if r.isMMX then some r.name
  else if r.isGeneralPurpose ∧ r.wideName ≠ "esp" ∧ r.wideName ≠ "ebp" then some r.wideName
  else none

theorem name_injective : name.Injective := by
  intro r q h
  have hr : ofName? r.name = some r := by cases r <;> decide
  have hq : ofName? q.name = some q := by cases q <;> decide
  rw [h] at hr
  exact Option.some.inj (hr.symm.trans hq)

theorem map_name_clobber? (r : Register) : r.clobber?.map name = r.declaredName? := by cases r <;> decide

theorem name_ne_flags (r : Register) : r.name ≠ "cc" := by cases r <;> decide

end Register

namespace SourceUnit

theorem clobbers?_eq_eraseDups (touched : List Register) :
    clobbers? touched = (touched.filterMap Register.clobber?).eraseDups := keepNew_nil _

theorem map_name_clobbers? (touched : List Register) :
    (clobbers? touched).map Register.name = (touched.filterMap Register.declaredName?).eraseDups := by
  have hnames : (touched.filterMap Register.clobber?).map Register.name = touched.filterMap Register.declaredName? := by
    rw [List.map_filterMap]
    exact List.filterMap_congr fun r _ => r.map_name_clobber?
  rw [clobbers?_eq_eraseDups, ← map_eraseDups Register.name_injective, hnames]

end SourceUnit

namespace Instruction

/-- An instruction of the body or of a label that the body reaches names the register, or uses it implicitly. -/
def Touches (body : List Instruction) (r : Register) : Prop :=
  ∃ i, (i ∈ body ∨ ∃ l, Reaches body l ∧ i ∈ l.body) ∧ (.register r ∈ i.operands ∨ r ∈ i.implicit)

theorem mem_registers_iff {i : Instruction} {r : Register} :
    r ∈ i.registers ↔ .register r ∈ i.operands ∨ r ∈ i.implicit := by
  rw [registers, List.mem_append, List.mem_filterMap]
  apply or_congr_left
  constructor
  · intro h
    obtain ⟨x, hx, hr⟩ := h
    cases x with
    | register q =>
      cases hr
      exact hx
    | var | label | literal => cases hr
  · exact fun h => ⟨_, h, rfl⟩

end Instruction

theorem Plan.mem_registers_iff {p : Plan} (hlabels : ∀ m, m ∈ p.labels ↔ Instruction.Reaches p.body m)
    (r : Register) : r ∈ p.instructions.flatMap Instruction.registers ↔ Instruction.Touches p.body r := by
  simp only [instructions, List.mem_flatMap, List.mem_append, hlabels, Instruction.mem_registers_iff,
    Instruction.Touches]

namespace Function

variable {c : Catalog} {f f' : Function} {inputs locals outputs : List Variable} {σ : Type}
  {bridge : Bridge (StateM σ)} {s s' : σ}

/-- After a successful compilation the last clause of the assembly names exactly the registers that are touched, each
once and in the order in which the emitted instructions touch them first, and after them the flags. -/
theorem clobbers_touched (hc : c.Constructed) (hf : c.Knows f.body)
    (h : (f.compile bridge inputs locals outputs).run s = ((f', .ok ()), s')) :
    ∃ k r names, f'.compiled = some k ∧ f'.source?.bind Source.read? = some r ∧
      r.lines = emittedLines f.body k.labels ∧
      r.clobbers = names ++ ["cc"] ∧ r.clobbers.Nodup ∧
      names = (((f.body ++ k.labels.flatMap Label.body).flatMap Instruction.registers).filterMap
        Register.declaredName?).eraseDups ∧
      ∀ n, n ∈ names ↔ ∃ r, Instruction.Touches f.body r ∧ r.declaredName? = some n := by
  obtain ⟨p, k, hp, rfl, rfl, hread⟩ := exists_reading_of_compile h
  obtain ⟨-, he, -, hbody⟩ := plan_eq_ok_iff.1 hp
  obtain ⟨-, hmem⟩ := Instruction.emitted_of_ok hc.closed (fun i hi => (hf i hi).2) he
  have hlabels : ∀ m, m ∈ k.labels ↔ Instruction.Reaches k.body m := by rwa [hbody]
  have hclause : k.unit.reading.clobbers =
      (SourceUnit.clobbers? (k.instructions.flatMap Instruction.registers)).map Register.name ++ ["cc"] := rfl
  have hnames := SourceUnit.map_name_clobbers? (k.instructions.flatMap Instruction.registers)
  refine ⟨k, _, _, rfl, hread, hbody ▸ k.lines_unit, hclause, ?_, ?_, ?_⟩
  · rw [hclause, List.nodup_append]
    refine ⟨hnames ▸ nodup_eraseDups _, List.nodup_singleton _, ?_⟩
    simp [Register.name_ne_flags]
  · rw [hnames, Plan.instructions, hbody]
  · intro n
    rw [hnames, List.mem_eraseDups, List.mem_filterMap]
    simp only [Plan.mem_registers_iff hlabels, hbody]

/-- Names one half of a register, and uses two more registers implicitly. -/
def dividing : Label := ⟨1, [⟨"idiv", [.register .bl], [.eax, .edx]⟩]⟩

def division : Function := { body := [⟨"mov", [.register .ah, .register .sp], []⟩, ⟨"jmp", [.label dividing], []⟩] }

def divisionCatalog : Catalog := ⟨⟨0, 1⟩, [], [dividing]⟩

theorem constructed_divisionCatalog : divisionCatalog.Constructed := by
  refine .make (k := .label dividing.body) .empty ?_
  intro i hi
  obtain rfl := List.mem_singleton.1 hi
  exact ⟨nofun, nofun⟩

theorem knows_division : divisionCatalog.Knows division.body := by
  simp [Catalog.Knows, division, divisionCatalog, Instruction.vars, Instruction.labels, Operand.var?, Operand.label?]

theorem clobbers_touched_division :
    ∃ r, ((division.compile idleBridge [] [] []).run []).1.1.source?.bind Source.read? = some r ∧
      r.clobbers = ["eax", "ebx", "edx", "cc"] ∧
      ∃ q, Instruction.Touches division.body q ∧ q.declaredName? = some "ebx" := by
  have hrun : (division.compile idleBridge [] [] []).run [] =
      ((((division.compile idleBridge [] [] []).run []).1.1, .ok ()), _) := rfl
  obtain ⟨k, r, names, hk, hread, -, hclause, -, hnames, hmem⟩ :=
    clobbers_touched constructed_divisionCatalog knows_division hrun
  have hlabels : k.labels = [dividing] := by
    cases hk
    rfl
  have htouched : names = ["eax", "ebx", "edx"] := by
    rw [hnames, hlabels]
    rfl
  refine ⟨r, hread, ?_, (hmem "ebx").1 ?_⟩
  · rw [hclause, htouched]
    rfl
  · rw [htouched]
    exact .tail _ (.head _)

end Function

end InlineAsm
