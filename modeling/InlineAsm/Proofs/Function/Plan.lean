import InlineAsm.Function.Basic
import InlineAsm.Proofs.Function.References
import InlineAsm.Proofs.Function.Roles
import InlineAsm.Proofs.Handles

/-! What is settled before a bridge is asked. Of the four conditions that a compilation depends on, the first that
fails decides the kind of the error. -/

namespace InlineAsm

namespace Function

/-- No variable is listed twice. -/
def Distinct (inputs locals outputs : List Variable) : Prop := (outputs ++ inputs ++ locals).Nodup

/-- No input has a literal. -/
def Unbound (inputs : List Variable) : Prop := ∀ v ∈ inputs, v.literal = none

/-- All variables that the body uses are listed. -/
def Covered (body : List Instruction) (inputs locals outputs : List Variable) : Prop :=
  ∀ v, Instruction.Uses body v → v ∈ outputs ++ inputs ++ locals

/-- No axis of a listed variable is open. -/
def Resolved (inputs locals outputs : List Variable) : Prop :=
  ∀ v ∈ outputs ++ inputs ++ locals, v.type.isResolved

variable {f : Function} {inputs locals outputs : List Variable}

theorem plan_eq_ok_iff {p : Plan} :
    f.plan inputs locals outputs = .ok p ↔
      Roles.resolve inputs locals outputs = .ok p.toRoles ∧
      Instruction.emittedLabels p.registers 0 f.body [] = .ok p.labels ∧
      p.bindings.mapM Binding.native = .ok p.signature ∧ p.body = f.body := by
  simp only [plan, bind_eq_ok, pure_eq_ok]
  refine ⟨?_, ?_⟩
  · intro h
    obtain ⟨roles, hr, labels, hl, signature, hs, rfl⟩ := h
    exact ⟨hr, hl, hs, rfl⟩
  · intro h
    obtain ⟨hr, hl, hs, hf⟩ := h
    exact ⟨_, hr, _, hl, _, hs, by rw [← hf]⟩

theorem resolved_iff :
    (∀ b ∈ Binding.parameters inputs locals outputs, ∃ t, b.native = .ok t) ↔ Resolved inputs locals outputs := by
  simp only [Binding.exists_native_iff, Resolved, ← Binding.map_var_parameters, List.forall_mem_map]

end Function

namespace Catalog

open InlineAsm.Function

variable {c : Catalog} (hc : c.Constructed)
include hc

theorem Constructed.mem_of_uses {body : List Instruction} (hb : c.Knows body) {v : Variable}
    (h : Instruction.Uses body v) : v ∈ c.vars := by
  rcases h with ⟨i, hi, hv⟩ | ⟨m, hm, i, hi, hv⟩
  · exact (hb i hi).1 v hv
  · have hmem : m ∈ c.labels := hm.mem hc.closed fun i hi => (hb i hi).2
    exact (hc.sound.bodies m hmem i hi).1 v hv

theorem Constructed.mem_map_handle_iff {vs : List Variable} (hvs : vs ⊆ c.vars) {v : Variable} (hv : v ∈ c.vars) :
    v.handle ∈ vs.map Variable.handle ↔ v ∈ vs := by
  refine ⟨?_, ?_⟩
  · intro h
    obtain ⟨w, hw, he⟩ := List.mem_map.1 h
    exact hc.eq_of_handle (hvs hw) hv he ▸ hw
  · exact fun h => List.mem_map.2 ⟨v, h, rfl⟩

theorem Constructed.nodup_map_handle_iff {vs : List Variable} (hvs : vs ⊆ c.vars) :
    (vs.map Variable.handle).Nodup ↔ vs.Nodup :=
  ⟨List.Nodup.of_map _, List.Nodup.map_on fun _ hv _ hw => hc.eq_of_handle (hvs hv) (hvs hw)⟩

variable {inputs locals outputs : List Variable} (hl : outputs ++ inputs ++ locals ⊆ c.vars)
include hl

theorem Constructed.distinct_iff :
    ((Binding.parameters inputs locals outputs).map Binding.handle).Nodup ↔ Distinct inputs locals outputs := by
  rw [Binding.map_handle, Binding.map_var_parameters]
  exact hc.nodup_map_handle_iff hl

variable {f : Function} (hf : c.Knows f.body)
include hf

theorem Constructed.covered_iff {r : Roles} (hr : r.Inverse)
    (hb : r.bindings = Binding.parameters inputs locals outputs) :
    (∀ v, Instruction.Uses f.body v → r.registers v) ↔ Covered f.body inputs locals outputs := by
  refine forall_congr' fun v => imp_congr_right fun hv => ?_
  rw [hr.registers_iff, hb, Binding.map_handle, Binding.map_var_parameters,
    hc.mem_map_handle_iff hl (hc.mem_of_uses hf hv)]

/-- The outcomes of planning. -/
theorem Constructed.plan_cases :
    (¬(Distinct inputs locals outputs ∧ Unbound inputs) ∧
      ∃ e, f.plan inputs locals outputs = .error e ∧ e.kind = .argumentValue) ∨
    (Distinct inputs locals outputs ∧ Unbound inputs ∧ ¬Covered f.body inputs locals outputs ∧
      ∃ e, f.plan inputs locals outputs = .error e ∧ e.kind = .variableDoesNotExist) ∨
    (Distinct inputs locals outputs ∧ Unbound inputs ∧ Covered f.body inputs locals outputs ∧
      ¬Resolved inputs locals outputs ∧
      ∃ e, f.plan inputs locals outputs = .error e ∧ e.kind = .argumentValue) ∨
    (Distinct inputs locals outputs ∧ Unbound inputs ∧ Covered f.body inputs locals outputs ∧
      Resolved inputs locals outputs ∧ ∃ p, f.plan inputs locals outputs = .ok p) := by
  have hlabels : ∀ i ∈ f.body, ∀ l ∈ i.labels, l ∈ c.labels := fun i hi => (hf i hi).2
  have hdistinct := hc.distinct_iff hl
  cases hr : Roles.resolve inputs locals outputs with
  | error e =>
    left
    refine ⟨?_, e, bind_eq_error.2 (.inl hr), Roles.kind_of_resolve hr⟩
    intro h
    obtain ⟨hd, hu⟩ := h
    have hok := Roles.resolve_eq_ok_iff.2 ⟨rfl, Roles.inverse_ofBindings_iff.2 (hdistinct.2 hd), hu⟩
    cases hr.symm.trans hok
  | ok roles =>
    right
    obtain ⟨hb, hinverse, hu⟩ := Roles.of_resolve hr
    have hd := hdistinct.1 (hb ▸ hinverse.nodup)
    have hcovered := hc.covered_iff hl hf hinverse hb
    cases he : Instruction.emittedLabels roles.registers 0 f.body [] with
    | error e =>
      obtain ⟨k, v, rfl⟩ := Instruction.eq_notRegistered_of_emittedLabels he
      have hplan : f.plan inputs locals outputs = .error (.notRegistered k v) :=
        bind_eq_error.2 (.inr ⟨_, hr, bind_eq_error.2 (.inl he)⟩)
      refine .inl ⟨hd, hu, fun hcov => ?_, _, hplan, rfl⟩
      obtain ⟨labels, hok⟩ := (Instruction.exists_emittedLabels_iff hc.closed hlabels 0).2 (hcovered.2 hcov)
      cases he.symm.trans hok
    | ok labels =>
      right
      have hcov := hcovered.1 ((Instruction.exists_emittedLabels_iff hc.closed hlabels 0).1 ⟨labels, he⟩)
      cases hs : roles.bindings.mapM Binding.native with
      | error e =>
        obtain ⟨b, -, hn⟩ := exists_of_mapM_eq_error hs
        have hplan : f.plan inputs locals outputs = .error e :=
          bind_eq_error.2 (.inr ⟨_, hr, bind_eq_error.2 (.inr ⟨_, he, bind_eq_error.2 (.inl hs)⟩)⟩)
        refine .inl ⟨hd, hu, hcov, fun hres => ?_, e, hplan, Binding.kind_of_native hn⟩
        obtain ⟨signature, hok⟩ := exists_mapM_eq_ok_iff.2 (resolved_iff.2 hres)
        rw [← hb] at hok
        cases hs.symm.trans hok
      | ok signature =>
        have hplan : f.plan inputs locals outputs = .ok { roles with body := f.body, labels, signature } :=
          plan_eq_ok_iff.2 ⟨hr, he, hs, rfl⟩
        rw [hb] at hs
        exact .inr ⟨hd, hu, hcov, resolved_iff.1 (exists_mapM_eq_ok_iff.1 ⟨signature, hs⟩), _, hplan⟩

end Catalog

end InlineAsm
