import InlineAsm.Proofs.Function.Compile
import InlineAsm.Proofs.Instruction.Preorder

/-! The check of the references walks from each instruction anew, and of the labels found it drops those that it has
already. As whatever an earlier walk has added it has added with all that is behind it, the outcome is that of a single
walk over the whole body. A variable that is not registered is found where the walk meets it first. -/

namespace InlineAsm

namespace Instruction

section Body

variable {r : Variable → Bool} {U : Label → Prop} (hU : Label.Closed U)
variable {body : List Instruction} (hb : ∀ i ∈ body, ∀ l ∈ i.labels, U l)
include hU hb

/-- One walk over the whole body finds the pre-orders of all instructions, without repetition. -/
theorem visitAll_nil_eq : visitAll body [] = ((body.flatMap labels).flatMap Label.preorder).eraseDups := by
  have hlabels : ∀ l ∈ body.flatMap labels, U l := by
    intro l hl
    obtain ⟨i, hi, hl⟩ := List.mem_flatMap.1 hl
    exact hb i hi l hl
  have hnil : ∀ m ∈ ([] : List Label), U m := nofun
  rw [visitAll_eq, ← addLabels_nil]
  apply Label.foldl_visit_eq hU hlabels hnil (Label.Settled.nil _)
  exact fun l hl => Label.visit_eq_addLabels hU l (hlabels l hl)

/-- What the instructions find one by one adds up to what one walk finds. -/
theorem addLabels_flatMap_reachedLabels :
    ∀ labels, addLabels labels (body.flatMap reachedLabels) =
      addLabels labels ((body.flatMap Instruction.labels).flatMap Label.preorder) := by
  induction body with
  | nil => exact fun _ => rfl
  | cons i body ih =>
    intro labels
    obtain ⟨hi, hb⟩ := List.forall_mem_cons.1 hb
    rw [List.flatMap_cons, List.flatMap_cons, List.flatMap_append, addLabels_append, addLabels_append, ih hb,
      reachedLabels_eq hU hi, addLabels_eraseDups]

theorem emittedLabels_eq_visitAll (h : ∀ v, Uses body v → r v) (index : Nat) :
    emittedLabels r index body [] = .ok (visitAll body []) := by
  rw [emittedLabels_eq_ok_iff]
  constructor
  · intro i hi v hv
    exact h v ((uses_iff hU hb v).2 ⟨i, hi, hv⟩)
  · rw [addLabels_flatMap_reachedLabels hU hb, addLabels_nil, visitAll_nil_eq hU hb]

end Body

/-- If all variables are registered, the labels emitted are those that a single walk over the body visits. Otherwise
the error has the index of the first instruction with a variable that is missing, and names the one that comes first
among its operands and then in the labels behind it. -/
theorem references_walked {c : Catalog} (hc : c.Constructed) {body : List Instruction}
    (hb : ∀ i ∈ body, ∀ l ∈ i.labels, l ∈ c.labels) (r : Variable → Bool) :
    ((∀ v, Uses body v → r v) →
      emittedLabels r 0 body [] = .ok (visitAll body []) ∧
      visitAll body [] = ((body.flatMap labels).flatMap Label.preorder).eraseDups ∧
      ((visitAll body []).map Label.handle).Nodup ∧
      ∀ m, m ∈ visitAll body [] ↔ Reaches body m) ∧
    ((∃ v, Uses body v ∧ ¬r v) →
      ∃ before i after v, body = before ++ i :: after ∧
        (∀ w, Uses before w → r w) ∧
        (∃ earlier later,
          i.vars ++ (i.labels.flatMap Label.preorder).eraseDups.flatMap Label.bodyVars = earlier ++ v :: later ∧
          (∀ w ∈ earlier, r w) ∧ ¬r v) ∧
        emittedLabels r 0 body [] = .error (.notRegistered before.length v)) := by
  have hU := hc.closed
  constructor
  · intro h
    have hok := emittedLabels_eq_visitAll hU hb h 0
    obtain ⟨hn, hmem⟩ := emitted_of_ok hU hb hok
    refine ⟨hok, visitAll_nil_eq hU hb, ?_, hmem⟩
    apply hn.map_on
    intro l hl m hm
    exact hU.eq_of_handle l m (((hmem l).1 hl).mem hU hb) (((hmem m).1 hm).mem hU hb)
  · intro h
    cases he : emittedLabels r 0 body [] with
    | ok labels =>
      obtain ⟨v, hv, hr⟩ := h
      exact absurd ((exists_emittedLabels_iff hU hb 0).1 ⟨labels, he⟩ v hv) hr
    | error e =>
      obtain ⟨before, i, after, v, rfl, hbefore, hv, rfl⟩ := emittedLabels_eq_error_iff.1 he
      obtain ⟨hbbefore, hbi, -⟩ := (List.forall_mem_append.1 hb).imp_right List.forall_mem_cons.1
      refine ⟨before, i, after, v, rfl, ?_, ?_, by rw [Nat.zero_add]⟩
      · intro w hw
        obtain ⟨j, hj, hwj⟩ := (uses_iff hU hbbefore w).1 hw
        exact hbefore j hj w hwj
      · obtain ⟨hr, earlier, later, horder, hearlier⟩ := List.find?_eq_some_iff_append.1 hv
        rw [reachedVars, reachedLabels_eq hU hbi] at horder
        refine ⟨earlier, later, horder, ?_, by simpa using hr⟩
        simpa using hearlier

/-- Two jumps that reach the same labels in different orders. -/
def crossing : List Instruction := [⟨"jmp", [.label Catalog.between], []⟩, ⟨"jmp", [.label Catalog.entry], []⟩]

/-- An instruction without operands in front of the jump. -/
def delayedJump : List Instruction := [⟨"nop", [], []⟩, ⟨"jmp", [.label Function.adding], []⟩]

theorem references_walked_crossing :
    emittedLabels (fun _ => true) 0 crossing [] = .ok [Catalog.between, Catalog.shared, Catalog.entry] ∧
    ∃ before i after, delayedJump = before ++ i :: after ∧ (∀ w, Uses before w → w == Function.total) ∧
      emittedLabels (· == Function.total) 0 delayedJump [] = .error (.notRegistered before.length Function.addend) := by
  constructor
  · have hb : ∀ i ∈ crossing, ∀ l ∈ i.labels, l ∈ Catalog.sharingCatalog.labels := by
      simp [crossing, labels, Operand.label?, Catalog.sharingCatalog]
    obtain ⟨hall, -⟩ := references_walked Catalog.constructed_sharingCatalog hb fun _ => true
    obtain ⟨hok, -⟩ := hall fun _ _ => rfl
    exact hok
  · have hb : ∀ i ∈ delayedJump, ∀ l ∈ i.labels, l ∈ Function.jumpCatalog.labels := by
      simp [delayedJump, labels, Operand.label?, Function.jumpCatalog]
    obtain ⟨-, hmissing⟩ := references_walked Function.constructed_jumpCatalog hb (· == Function.total)
    have huses : Uses delayedJump Function.addend := .inr
      ⟨Function.adding, ⟨_, .tail _ (.head _), _, .head _, .refl⟩, _, .head _, .tail _ (.head _)⟩
    obtain ⟨before, i, after, v, hbody, hbefore, -, herror⟩ := hmissing ⟨_, huses, by decide⟩
    have hrun : emittedLabels (· == Function.total) 0 delayedJump [] = .error (.notRegistered 1 Function.addend) := rfl
    have hsame := hrun.symm.trans herror
    simp only [Except.error.injEq, Error.notRegistered.injEq] at hsame
    refine ⟨before, i, after, hbody, hbefore, ?_⟩
    rw [hrun, hsame.1]

end Instruction

end InlineAsm
