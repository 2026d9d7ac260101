import InlineAsm.Proofs.Function.References
import InlineAsm.Proofs.Handles

/-! The order in which the walk finds labels. If shared labels are written out wherever they are jumped to, the labels
behind an instruction form a tree, and the walk gives the pre-order of that tree with only the first occurrence of each
label. What carries the proof is that a label seen before is skipped together with a whole subtree, and that all of the
subtree was seen too: the only labels that the walk has entered and not left are those above it. -/

namespace InlineAsm

namespace Label

theorem bne_iff {l m : Label} : (l != m) = true ↔ l.handle ≠ m.handle := bne_iff_ne (a := l.handle) (b := m.handle)

/-- The tree behind a label in pre-order, shared labels repeated. -/
def preorder (l : Label) : List Label := l :: l.targets.attach.flatMap fun m => m.1.preorder
termination_by sizeOf l
decreasing_by exact sizeOf_lt_of_target m.2

theorem preorder_eq (l : Label) : l.preorder = l :: l.targets.flatMap preorder := by
  rw [preorder, List.flatMap_subtype, List.unattach_attach]
  exact fun _ _ => rfl

theorem mem_preorder_iff {m : Label} : ∀ {l : Label}, m ∈ l.preorder ↔ l.Leads m := by
  intro l
  induction l using induction_targets with
  | h l ih =>
    rw [preorder_eq, List.mem_cons, List.mem_flatMap, Leads, Relation.ReflTransGen.cases_head_iff, eq_comm]
    exact or_congr_right (exists_congr fun k => and_congr_right fun hk => ih k hk)

theorem Leads.sizeOf_le {l m : Label} (h : l.Leads m) : sizeOf m ≤ sizeOf l := by
  induction h with
  | refl => exact Nat.le_refl _
  | tail _ hm ih => exact Nat.le_trans (Nat.le_of_lt (sizeOf_lt_of_target hm)) ih

theorem not_leads_of_target {l m : Label} (h : m ∈ l.targets) : ¬m.Leads l :=
  fun hm => Nat.not_le_of_gt (sizeOf_lt_of_target h) hm.sizeOf_le

/-- Of the labels seen, those that a root still leads to have all their targets among the labels seen. -/
def Settled (roots seen : List Label) : Prop := ∀ r ∈ roots, ∀ m ∈ seen, r.Leads m → ∀ n ∈ m.targets, n ∈ seen

namespace Settled

variable {l : Label} {roots seen : List Label}

theorem nil (roots : List Label) : Settled roots [] := fun _ _ _ h => nomatch h

/-- A label that was seen is seen with all that it leads to. -/
theorem preorder_subset (h : Settled [l] seen) (hl : l ∈ seen) : l.preorder ⊆ seen := by
  intro m hm
  rw [mem_preorder_iff] at hm
  induction hm with
  | refl => exact hl
  | tail hm hn ih => exact h l (List.mem_singleton_self l) _ ih hm _ hn

/-- Below a label that is entered nothing leads back to it. -/
theorem enter (h : Settled [l] seen) : Settled l.targets (seen ++ [l]) := by
  intro r hr m hm hrm n hn
  rcases List.mem_append.1 hm with hm | hm
  · exact List.mem_append_left _ (h l (List.mem_singleton_self l) m hm (.head hr hrm) n hn)
  · exact absurd (List.mem_singleton.1 hm ▸ hrm) (not_leads_of_target hr)

theorem walk {result : List Label} (h : Settled roots seen) (hw : Walked [l] seen result) : Settled roots result := by
  intro r hr m hm hrm n hn
  by_cases hseen : m ∈ seen
  · exact hw.keeps n (h r hr m hseen hrm n hn)
  · exact hw.targets m hm hseen n hn

end Settled

variable {U : Label → Prop} (hU : Closed U)
include hU

/-- The walks from several roots, if the walk from each is known. -/
theorem foldl_visit_eq {roots : List Label} :
    ∀ {seen : List Label}, (∀ l ∈ roots, U l) → (∀ m ∈ seen, U m) → Settled roots seen →
      (∀ l ∈ roots, ∀ seen, (∀ m ∈ seen, U m) → Settled [l] seen →
        l.visit seen = Instruction.addLabels seen l.preorder) →
      roots.foldl (fun seen l => l.visit seen) seen = Instruction.addLabels seen (roots.flatMap preorder) := by
  induction roots with
  | nil => intro seen _ _ _ _; rfl
  | cons l ls ih =>
    intro seen hroots hseen hs hvisit
    obtain ⟨hl, hls⟩ := List.forall_mem_cons.1 hroots
    obtain ⟨hv, hvs⟩ := List.forall_mem_cons.1 hvisit
    obtain ⟨hsl, hsls⟩ := List.forall_mem_cons.1 hs
    have hw := walked_visit hU l hl seen hseen
    have hmiddle := hw.subset hU (List.forall_mem_singleton.2 hl) hseen
    rw [List.foldl_cons, ih hls hmiddle (Settled.walk hsls hw) hvs, hv seen hseen (List.forall_mem_singleton.2 hsl),
      List.flatMap_cons, Instruction.addLabels_append]

theorem visit_eq_addLabels :
    ∀ l, U l → ∀ seen, (∀ m ∈ seen, U m) → Settled [l] seen →
      l.visit seen = Instruction.addLabels seen l.preorder := by
  intro l
  induction l using induction_targets with
  | h l ih =>
    intro hl seen hseen hs
    rw [visit_eq]
    split_ifs with hc
    · have hmem : l ∈ seen := (hU.contains_iff hl hseen).1 hc
      exact (Instruction.addLabels_of_subset (hs.preorder_subset hmem)).symm
    · have hseen' : ∀ m ∈ seen ++ [l], U m := by
        rw [List.forall_mem_append]
        exact ⟨hseen, List.forall_mem_singleton.2 hl⟩
      have htargets := hU.target l hl
      rw [foldl_visit_eq hU htargets hseen' hs.enter fun m hm => ih m hm (htargets m hm), preorder_eq,
        Instruction.addLabels, Instruction.addLabels, List.foldl_cons, if_neg hc]

theorem visit_nil_eq {l : Label} (hl : U l) : l.visit [] = l.preorder.eraseDups := by
  rw [visit_eq_addLabels hU l hl [] nofun (Settled.nil [l]), Instruction.addLabels_nil]

/-- The labels that a label reaches follow it in the pre-order, and it is not among them. -/
theorem cons_reached {l : Label} (hl : U l) : l :: l.reached = l.preorder.eraseDups := by
  have hvisit := visit_nil_eq hU hl
  have hw := walked_visit hU l hl [] nofun
  have hnodup := hw.nodup List.nodup_nil
  have hsub := hw.subset hU (List.forall_mem_singleton.2 hl) nofun
  rw [preorder_eq, List.eraseDups_cons] at hvisit ⊢
  rw [hvisit] at hnodup hsub
  have hself : ¬(l != l) = true := fun h => bne_iff.1 h rfl
  rw [reached, hvisit, List.filter_cons_of_neg (p := fun m => m != l) hself]
  refine congrArg (l :: ·) (List.filter_eq_self.2 fun m hm => ?_)
  rw [bne_iff]
  intro h
  obtain rfl := hU.eq_of_handle m l (hsub m (List.mem_cons_of_mem l hm)) hl h
  exact (List.nodup_cons.1 hnodup).1 hm

end Label

namespace Instruction

variable {U : Label → Prop} (hU : Label.Closed U) {i : Instruction}

include hU in
theorem reachedLabels_eq (hi : ∀ l ∈ i.labels, U l) :
    i.reachedLabels = (i.labels.flatMap Label.preorder).eraseDups := by
  have hwalk : i.labels.foldl (fun seen l => l.visit seen) [] = addLabels [] (i.labels.flatMap Label.preorder) :=
    Label.foldl_visit_eq hU hi nofun (Label.Settled.nil i.labels) fun l hl => Label.visit_eq_addLabels hU l (hi l hl)
  rw [reachedLabels, Operand.visitAll_eq, ← addLabels_nil]
  exact hwalk

theorem reachedLabels_of_operand {l : Label} (h : i.operands = [.label l]) : i.reachedLabels = l.visit [] := by
  rw [reachedLabels, h]
  rfl

theorem reachedVars_of_operand {l : Label} (h : i.operands = [.label l]) : i.reachedVars = l.vars := by
  rw [reachedVars, reachedLabels_of_operand h, vars, h]
  rfl

end Instruction

namespace Catalog

variable {c : Catalog}

/-- For what is constructed, the walk gives the labels that can be reached, each once and in pre-order, and the
variables in them. A label is not behind itself, and an instruction with a label as its only operand reaches that label
and what the label reaches. -/
theorem reached_preorder (hc : c.Constructed) {i : Instruction} (hi : ∀ l ∈ i.labels, l ∈ c.labels) {l : Label}
    (hl : l ∈ c.labels) :
    (i.reachedLabels = (i.labels.flatMap Label.preorder).eraseDups ∧
      (i.reachedLabels.map Label.handle).Nodup ∧
      ∀ m, m ∈ i.reachedLabels ↔ ∃ k ∈ i.labels, k.Leads m) ∧
    (∀ v, v ∈ i.reachedVars ↔
      v ∈ i.vars ∨ ∃ m, (∃ k ∈ i.labels, k.Leads m) ∧ ∃ j ∈ m.body, v ∈ j.vars) ∧
    l :: l.reached = l.preorder.eraseDups ∧
    (∀ k ∈ l.targets, ∀ m, k.Leads m → m.handle ≠ l.handle) ∧
    (i.operands = [.label l] → i.reachedLabels = l :: l.reached ∧ i.reachedVars = l.vars) := by
  have hU := hc.closed
  have hmem := Instruction.mem_reachedLabels_iff hU hi
  have hreached : l.visit [] = l :: l.reached := (Label.visit_nil_eq hU hl).trans (Label.cons_reached hU hl).symm
  refine ⟨⟨Instruction.reachedLabels_eq hU hi, ?_, hmem⟩, ?_, Label.cons_reached hU hl, ?_, ?_⟩
  · refine (Instruction.nodup_reachedLabels hU hi).map_on fun m hm n hn h => ?_
    obtain ⟨k, hk, hkm⟩ := (hmem m).1 hm
    obtain ⟨k', hk', hkn⟩ := (hmem n).1 hn
    exact hU.eq_of_handle m n (hU.leads (hi k hk) hkm) (hU.leads (hi k' hk') hkn) h
  · intro v
    rw [Instruction.mem_reachedVars_iff hU hi, Instruction.Uses]
    simp only [Instruction.Reaches, List.mem_singleton, exists_eq_left]
  · intro k hk m hkm h
    have hm : m ∈ c.labels := hU.leads (hU.target l hl k hk) hkm
    obtain rfl := hU.eq_of_handle m l hm hl h
    exact Label.not_leads_of_target hk hkm
  · intro h
    exact ⟨(Instruction.reachedLabels_of_operand h).trans hreached, Instruction.reachedVars_of_operand h⟩

def shared : Label := ⟨1, [⟨"nop", [], []⟩]⟩

def between : Label := ⟨2, [⟨"jmp", [.label shared], []⟩]⟩

/-- Jumps to `shared` itself, and once more by way of `between`. -/
def entry : Label := ⟨3, [⟨"jmp", [.label shared], []⟩, ⟨"jmp", [.label between], []⟩]⟩

def sharingCatalog : Catalog := ⟨⟨0, 3⟩, [], [shared, between, entry]⟩

theorem constructed_sharingCatalog : sharingCatalog.Constructed := by
  have h₁ : Catalog.Constructed ⟨⟨0, 1⟩, [], [shared]⟩ := .make (k := .label shared.body) .empty (by
    intro i hi
    obtain rfl := List.mem_singleton.1 hi
    exact ⟨nofun, nofun⟩)
  have h₂ : Catalog.Constructed ⟨⟨0, 2⟩, [], [shared, between]⟩ := .make (k := .label between.body) h₁ (by
    intro i hi
    obtain rfl := List.mem_singleton.1 hi
    exact ⟨nofun, List.forall_mem_singleton.2 (.head _)⟩)
  refine .make (k := .label entry.body) h₂
    (List.forall_mem_cons.2 ⟨⟨nofun, ?_⟩, List.forall_mem_singleton.2 ⟨nofun, ?_⟩⟩)
  · exact List.forall_mem_singleton.2 (.head _)
  · exact List.forall_mem_singleton.2 (.tail _ (.head _))

theorem reached_preorder_sharing :
    (Instruction.mk "jmp" [.label entry] []).reachedLabels = [entry, shared, between] ∧
    entry.preorder.eraseDups = [entry, shared, between] := by
  have hentry : entry ∈ sharingCatalog.labels := .tail _ (.tail _ (.head _))
  obtain ⟨-, -, hpreorder, -, hoperand⟩ := reached_preorder constructed_sharingCatalog
    (i := ⟨"jmp", [.label entry], []⟩) (List.forall_mem_singleton.2 hentry) hentry
  exact ⟨(hoperand rfl).1, hpreorder.symm⟩

end Catalog

end InlineAsm
