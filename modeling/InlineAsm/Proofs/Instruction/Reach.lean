import InlineAsm.Instruction.Reach
import Mathlib.Data.List.Nodup
import Mathlib.Logic.Relation

/-! The walk from label to label finds exactly what can be reached through operands. What carries the proof is that a
label which the walk added has all its targets among the labels seen, whether the walk got to them through this label
or had seen them before. -/

namespace InlineAsm

namespace Label

/-- The labels among the operands of the body. -/
def targets (l : Label) : List Label := l.body.flatMap Instruction.labels

/-- `m` is reached from `l` through the operands of bodies. -/
def Leads : Label → Label → Prop := Relation.ReflTransGen fun l m => m ∈ l.targets

theorem sizeOf_lt_of_target {l m : Label} (h : m ∈ l.targets) : sizeOf m < sizeOf l := by
  obtain ⟨i, hi, hm⟩ := List.mem_flatMap.1 h
  obtain ⟨x, hx, hxm⟩ := List.mem_filterMap.1 hm
  have h₁ : sizeOf x < sizeOf i := by
    have := List.sizeOf_lt_of_mem hx
    cases i
    simp only [Instruction.mk.sizeOf_spec] at *
    omega
  have h₂ : sizeOf i < sizeOf l := by
    have := List.sizeOf_lt_of_mem hi
    cases l
    simp only [Label.mk.sizeOf_spec] at *
    omega
  cases x with
  | label l' =>
    cases hxm
    simp only [Operand.label.sizeOf_spec] at h₁
    omega
  | register | var | literal => cases hxm

theorem induction_targets {P : Label → Prop} (h : ∀ l, (∀ m ∈ l.targets, P m) → P l) : ∀ l, P l := by
  intro l
  induction hn : sizeOf l using Nat.strongRecOn generalizing l with
  | ind n ih =>
    refine h l fun m hm => ih (sizeOf m) ?_ m rfl
    exact hn ▸ sizeOf_lt_of_target hm

end Label

theorem Operand.visitAll_eq (operands : List Operand) :
    ∀ seen, visitAll operands seen = (operands.filterMap label?).foldl (fun seen l => l.visit seen) seen := by
  induction operands with
  | nil => intro seen; rfl
  | cons x operands ih =>
    intro seen
    cases x <;> simp [visitAll, ih, List.filterMap_cons, label?]

theorem Instruction.visitAll_eq (body : List Instruction) :
    ∀ seen, visitAll body seen = (body.flatMap labels).foldl (fun seen l => l.visit seen) seen := by
  induction body with
  | nil => intro seen; rfl
  | cons i body ih =>
    intro seen
    cases i
    rw [visitAll, ih, Operand.visitAll_eq, List.flatMap_cons, List.foldl_append]
    rfl

theorem Label.visit_eq (l : Label) (seen : List Label) :
    l.visit seen =
      if seen.contains l then seen else l.targets.foldl (fun seen l => l.visit seen) (seen ++ [l]) := by
  cases l
  rw [visit, Instruction.visitAll_eq]
  rfl

namespace Label

instance : EquivBEq Label where
  rfl := beq_self_eq_true (α := Nat) _
  symm {l m} := BEq.symm (a := l.handle) (b := m.handle)
  trans {l m n} := BEq.trans (a := l.handle) (b := m.handle) (c := n.handle)

/-- A set of labels with all their targets, in which the handle tells a label. -/
structure Closed (U : Label → Prop) : Prop where
  target : ∀ l, U l → ∀ m ∈ l.targets, U m
  eq_of_handle : ∀ l m, U l → U m → l.handle = m.handle → l = m

theorem Closed.leads {U : Label → Prop} (hU : Closed U) {l m : Label} (hl : U l) (h : l.Leads m) : U m := by
  induction h with
  | refl => exact hl
  | tail _ hm ih => exact hU.target _ ih _ hm

theorem Closed.contains_iff {U : Label → Prop} (hU : Closed U) {l : Label} (hl : U l) {ls : List Label}
    (hls : ∀ m ∈ ls, U m) : ls.contains l ↔ l ∈ ls := by
  rw [List.contains_iff_exists_mem_beq]
  refine ⟨?_, ?_⟩
  · intro hx
    obtain ⟨m, hm, he⟩ := hx
    have hlm : (l.handle == m.handle) = true := he
    exact hU.eq_of_handle l m hl (hls m hm) (beq_iff_eq.1 hlm) ▸ hm
  · exact fun h => ⟨l, h, beq_self_eq_true l.handle⟩

/-- What walks from `roots` make of the labels `seen` before. -/
structure Walked (roots seen result : List Label) : Prop where
  keeps : ∀ l ∈ seen, l ∈ result
  starts : ∀ l ∈ roots, l ∈ result
  reached : ∀ m ∈ result, m ∈ seen ∨ ∃ l ∈ roots, l.Leads m
  targets : ∀ m ∈ result, m ∉ seen → ∀ n ∈ m.targets, n ∈ result
  nodup : seen.Nodup → result.Nodup

namespace Walked

theorem nil (seen : List Label) : Walked [] seen seen :=
  ⟨fun _ h => h, nofun, fun _ h => .inl h, fun _ h hn => absurd h hn, fun h => h⟩

theorem cons {l : Label} {ls seen middle result : List Label} (h₁ : Walked [l] seen middle)
    (h₂ : Walked ls middle result) : Walked (l :: ls) seen result where
  keeps m hm := h₂.keeps m (h₁.keeps m hm)
  starts := List.forall_mem_cons.2 ⟨h₂.keeps l (h₁.starts l (List.mem_singleton_self l)), h₂.starts⟩
  reached m hm := by
    rcases h₂.reached m hm with hm | ⟨k, hk, hl⟩
    · rcases h₁.reached m hm with hm | ⟨k, hk, hl⟩
      · exact .inl hm
      · exact .inr ⟨k, List.mem_cons.2 (.inl (List.mem_singleton.1 hk)), hl⟩
    · exact .inr ⟨k, List.mem_cons_of_mem l hk, hl⟩
  targets m hm hseen n hn := by
    by_cases hmid : m ∈ middle
    · exact h₂.keeps n (h₁.targets m hmid hseen n hn)
    · exact h₂.targets m hm hmid n hn
  nodup h := h₂.nodup (h₁.nodup h)

/-- A label that was not seen is added in front of the walk from its targets. -/
theorem enter {l : Label} {seen result : List Label} (hl : l ∉ seen) (h : Walked l.targets (seen ++ [l]) result) :
    Walked [l] seen result where
  keeps m hm := h.keeps m (List.mem_append_left _ hm)
  starts := List.forall_mem_singleton.2 (h.keeps l (List.mem_append_right _ (List.mem_singleton_self l)))
  reached m hm := by
    rcases h.reached m hm with hm | ⟨k, hk, hkm⟩
    · rcases List.mem_append.1 hm with hm | hm
      · exact .inl hm
      · exact .inr ⟨l, List.mem_singleton_self l, List.mem_singleton.1 hm ▸ .refl⟩
    · exact .inr ⟨l, List.mem_singleton_self l, .head hk hkm⟩
  targets m hm hseen n hn := by
    by_cases hml : m = l
    · exact h.starts n (hml ▸ hn)
    · exact h.targets m hm (by simp [hseen, hml]) n hn
  nodup hn := h.nodup (List.nodup_append.2 ⟨hn, List.nodup_singleton l, by
    intro a ha b hb he
    subst he
    exact hl (List.mem_singleton.1 hb ▸ ha)⟩)

/-- A walk does not leave a closed set. -/
theorem subset {U : Label → Prop} (hU : Closed U) {roots seen result : List Label} (h : Walked roots seen result)
    (hroots : ∀ l ∈ roots, U l) (hseen : ∀ m ∈ seen, U m) : ∀ m ∈ result, U m := by
  intro m hm
  rcases h.reached m hm with hm | ⟨k, hk, hkm⟩
  · exact hseen m hm
  · exact hU.leads (hroots k hk) hkm

end Walked

theorem walked_foldl {U : Label → Prop} (hU : Closed U) :
    ∀ {roots seen : List Label}, (∀ l ∈ roots, U l) → (∀ m ∈ seen, U m) →
      (∀ l ∈ roots, ∀ seen, (∀ m ∈ seen, U m) → Walked [l] seen (l.visit seen)) →
      Walked roots seen (roots.foldl (fun seen l => l.visit seen) seen) := by
  intro roots
  induction roots with
  | nil => intro seen _ _ _; exact Walked.nil seen
  | cons l ls ih =>
    intro seen hroots hseen hvisit
    obtain ⟨hl, hls⟩ := List.forall_mem_cons.1 hroots
    obtain ⟨hv, hvs⟩ := List.forall_mem_cons.1 hvisit
    have h₁ := hv seen hseen
    exact h₁.cons (ih hls (h₁.subset hU (List.forall_mem_singleton.2 hl) hseen) hvs)

theorem walked_visit {U : Label → Prop} (hU : Closed U) :
    ∀ l, U l → ∀ seen, (∀ m ∈ seen, U m) → Walked [l] seen (l.visit seen) := by
  intro l
  induction l using induction_targets with
  | h l ih =>
    intro hl seen hseen
    rw [visit_eq]
    split_ifs with hc
    · -- Its targets may still be missing, as it may be a label that the walk has not left yet.
      have hmem : l ∈ seen := (hU.contains_iff hl hseen).1 hc
      exact ⟨fun _ h => h, by simpa using hmem, fun _ h => .inl h, fun _ h hn => absurd h hn, fun h => h⟩
    · have hmem : l ∉ seen := fun h => hc ((hU.contains_iff hl hseen).2 h)
      refine Walked.enter hmem (walked_foldl hU (hU.target l hl) ?_ fun m hm => ih m hm (hU.target l hl m hm))
      intro m hm
      rcases List.mem_append.1 hm with hm | hm
      · exact hseen m hm
      · exact List.mem_singleton.1 hm ▸ hl

end Label

namespace Instruction

/-- The labels that a body reaches through the operands of its instructions. -/
def Reaches (body : List Instruction) (m : Label) : Prop := ∃ i ∈ body, ∃ l ∈ i.labels, l.Leads m

/-- The variables in a body and in all labels that it reaches. -/
def Uses (body : List Instruction) (v : Variable) : Prop :=
  (∃ i ∈ body, v ∈ i.vars) ∨ ∃ l, Reaches body l ∧ ∃ i ∈ l.body, v ∈ i.vars

variable {U : Label → Prop} (hU : Label.Closed U) {i : Instruction} (hi : ∀ l ∈ i.labels, U l)
include hU hi

theorem walked_reachedLabels : Label.Walked i.labels [] i.reachedLabels := by
  rw [reachedLabels, Operand.visitAll_eq]
  exact Label.walked_foldl hU hi nofun fun l hl => Label.walked_visit hU l (hi l hl)

theorem nodup_reachedLabels : i.reachedLabels.Nodup := (walked_reachedLabels hU hi).nodup List.nodup_nil

theorem mem_reachedLabels_iff (m : Label) : m ∈ i.reachedLabels ↔ ∃ l ∈ i.labels, l.Leads m := by
  have hw := walked_reachedLabels hU hi
  refine ⟨?_, ?_⟩
  · intro hm
    exact (hw.reached m hm).resolve_left List.not_mem_nil
  · intro h
    obtain ⟨l, hl, hlm⟩ := h
    induction hlm with
    | refl => exact hw.starts l hl
    | tail _ hn ih => exact hw.targets _ ih List.not_mem_nil _ hn

theorem mem_reachedVars_iff (v : Variable) : v ∈ i.reachedVars ↔ Uses [i] v := by
  simp only [reachedVars, Label.bodyVars, List.mem_append, List.mem_flatMap, mem_reachedLabels_iff hU hi, Uses,
    Reaches, List.mem_singleton, exists_eq_left]

end Instruction

end InlineAsm
