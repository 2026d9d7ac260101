import InlineAsm.Function.References
import InlineAsm.Proofs.FirstOccurrence
import InlineAsm.Proofs.Instruction.Reach

/-! A body passes the check of its references if and only if all variables that it uses are registered, and the labels
emitted for it are then exactly those that it reaches, each once. -/

namespace InlineAsm.Instruction

variable {U : Label → Prop} (hU : Label.Closed U)

theorem addLabels_append (labels found later : List Label) :
    addLabels labels (found ++ later) = addLabels (addLabels labels found) later := List.foldl_append

theorem addLabels_of_subset {labels found : List Label} (h : found ⊆ labels) : addLabels labels found = labels := by
  induction found with
  | nil => rfl
  | cons l found ih =>
    obtain ⟨hl, hfound⟩ := List.cons_subset.1 h
    have hc : labels.contains l := List.contains_iff_exists_mem_beq.2 ⟨l, hl, beq_self_eq_true l.handle⟩
    rw [addLabels, List.foldl_cons, if_pos hc]
    exact ih hfound

/-- Added to nothing, the labels are left with the first occurrence of each. -/
theorem addLabels_nil (found : List Label) : addLabels [] found = found.eraseDups := keepNew_nil found

theorem addLabels_eraseDups (labels found : List Label) : addLabels labels found.eraseDups = addLabels labels found :=
  keepNew_eraseDups found labels

section AddLabels

include hU

theorem mem_addLabels_iff {found : List Label} (hf : ∀ l ∈ found, U l) :
    ∀ {labels : List Label}, (∀ l ∈ labels, U l) → ∀ m, m ∈ addLabels labels found ↔ m ∈ labels ∨ m ∈ found := by
  induction found with
  | nil => intro labels _ m; simp [addLabels]
  | cons l found ih =>
    intro labels hl m
    obtain ⟨hUl, hf⟩ := List.forall_mem_cons.1 hf
    rw [addLabels, List.foldl_cons, ← addLabels]
    split_ifs with hc
    · have hmem : l ∈ labels := (hU.contains_iff hUl hl).1 hc
      rw [ih hf hl, List.mem_cons]
      refine ⟨?_, ?_⟩
      · exact Or.imp_right .inr
      · intro hx
        rcases hx with h | rfl | h
        · exact .inl h
        · exact .inl hmem
        · exact .inr h
    · have hl' : ∀ m ∈ labels ++ [l], U m := by
        rw [List.forall_mem_append]
        exact ⟨hl, List.forall_mem_singleton.2 hUl⟩
      rw [ih hf hl', List.mem_append, List.mem_singleton, List.mem_cons, or_assoc]

theorem nodup_addLabels {found : List Label} (hf : ∀ l ∈ found, U l) :
    ∀ {labels : List Label}, (∀ l ∈ labels, U l) → labels.Nodup → (addLabels labels found).Nodup := by
  induction found with
  | nil => exact fun _ h => h
  | cons l found ih =>
    intro labels hl hn
    obtain ⟨hUl, hf⟩ := List.forall_mem_cons.1 hf
    rw [addLabels, List.foldl_cons, ← addLabels]
    split_ifs with hc
    · exact ih hf hl hn
    · have hmem : l ∉ labels := fun h => hc ((hU.contains_iff hUl hl).2 h)
      refine ih hf ?_ ?_
      · rw [List.forall_mem_append]
        exact ⟨hl, List.forall_mem_singleton.2 hUl⟩
      · rw [← List.concat_eq_append]
        exact hn.concat hmem

end AddLabels

variable {r : Variable → Bool}

theorem emittedLabels_eq_ok_iff :
    ∀ {body : List Instruction} {index : Nat} {labels result : List Label},
      emittedLabels r index body labels = .ok result ↔
        (∀ i ∈ body, ∀ v ∈ i.reachedVars, r v) ∧ result = addLabels labels (body.flatMap reachedLabels) := by
  intro body
  induction body with
  | nil =>
    intro index labels result
    rw [emittedLabels, Except.ok.injEq, eq_comm]
    exact (and_iff_right nofun).symm
  | cons i body ih =>
    intro index labels result
    rw [emittedLabels, List.forall_mem_cons, List.flatMap_cons, addLabels_append]
    cases h : i.reachedVars.find? fun v => !r v with
    | none =>
      have hi : ∀ v ∈ i.reachedVars, r v := by simpa using List.find?_eq_none.1 h
      rw [ih, and_iff_right hi]
    | some v =>
      have hv : ¬r v := by simpa using List.find?_some h
      simp only [reduceCtorEq, false_iff]
      exact fun hall => hv (hall.1.1 v (List.mem_of_find?_eq_some h))

/-- The outcome of a failed check: all is well up to one instruction, and the first variable missing there is named. -/
theorem emittedLabels_eq_error_iff :
    ∀ {body : List Instruction} {index : Nat} {labels : List Label} {e : Error},
      emittedLabels r index body labels = .error e ↔
        ∃ before i after v, body = before ++ i :: after ∧ (∀ j ∈ before, ∀ w ∈ j.reachedVars, r w) ∧
          i.reachedVars.find? (fun w => !r w) = some v ∧ e = .notRegistered (index + before.length) v := by
  intro body
  induction body with
  | nil => simp [emittedLabels]
  | cons i body ih =>
    intro index labels e
    rw [emittedLabels]
    cases hi : i.reachedVars.find? fun w => !r w with
    | some v =>
      simp only [Except.error.injEq]
      constructor
      · intro h
        exact ⟨[], i, body, v, rfl, nofun, hi, h.symm⟩
      · intro h
        obtain ⟨before, j, after, w, hbody, hbefore, hw, rfl⟩ := h
        cases before with
        | nil =>
          obtain ⟨rfl, rfl⟩ := List.cons.inj hbody
          obtain rfl := Option.some.inj (hi.symm.trans hw)
          rfl
        | cons k before =>
          obtain ⟨rfl, -⟩ := List.cons.inj hbody
          have hv := List.find?_some hi
          simp [hbefore i List.mem_cons_self v (List.mem_of_find?_eq_some hi)] at hv
    | none =>
      simp only [ih]
      constructor
      · intro h
        obtain ⟨before, j, after, w, rfl, hbefore, hw, rfl⟩ := h
        refine ⟨i :: before, j, after, w, rfl, List.forall_mem_cons.2 ⟨?_, hbefore⟩, hw, ?_⟩
        · simpa using hi
        · rw [List.length_cons]
          congr 1
          omega
      · intro h
        obtain ⟨before, j, after, w, hbody, hbefore, hw, rfl⟩ := h
        cases before with
        | nil =>
          obtain ⟨rfl, -⟩ := List.cons.inj hbody
          cases hi.symm.trans hw
        | cons k before =>
          obtain ⟨rfl, rfl⟩ := List.cons.inj hbody
          refine ⟨before, j, after, w, rfl, (List.forall_mem_cons.1 hbefore).2, hw, ?_⟩
          rw [List.length_cons]
          congr 1
          omega

theorem eq_notRegistered_of_emittedLabels {body : List Instruction} {index : Nat} {labels : List Label} {e : Error}
    (h : emittedLabels r index body labels = .error e) : ∃ k v, e = .notRegistered k v := by
  obtain ⟨_, _, _, v, -, -, -, he⟩ := emittedLabels_eq_error_iff.1 h
  exact ⟨_, v, he⟩

section Body

variable {body : List Instruction} (hb : ∀ i ∈ body, ∀ l ∈ i.labels, U l)
include hU hb

theorem uses_iff (v : Variable) : Uses body v ↔ ∃ i ∈ body, v ∈ i.reachedVars := by
  have h : ∀ i ∈ body, (v ∈ i.reachedVars ↔ Uses [i] v) := fun i hi => mem_reachedVars_iff hU (hb i hi) v
  refine ⟨?_, ?_⟩
  · intro hx
    rcases hx with ⟨i, hi, hv⟩ | ⟨m, ⟨i, hi, l, hl, hm⟩, hv⟩
    · exact ⟨i, hi, (h i hi).2 (.inl ⟨i, List.mem_singleton_self i, hv⟩)⟩
    · exact ⟨i, hi, (h i hi).2 (.inr ⟨m, ⟨i, List.mem_singleton_self i, l, hl, hm⟩, hv⟩)⟩
  · intro hx
    obtain ⟨i, hi, hr⟩ := hx
    rcases (h i hi).1 hr with ⟨j, hj, hv⟩ | ⟨m, ⟨j, hj, l, hl, hm⟩, hv⟩
    · exact .inl ⟨i, hi, List.mem_singleton.1 hj ▸ hv⟩
    · exact .inr ⟨m, ⟨i, hi, l, List.mem_singleton.1 hj ▸ hl, hm⟩, hv⟩

theorem mem_flatMap_reachedLabels_iff (m : Label) : m ∈ body.flatMap reachedLabels ↔ Reaches body m := by
  rw [List.mem_flatMap, Reaches]
  exact exists_congr fun i => and_congr_right fun hi => mem_reachedLabels_iff hU (hb i hi) m

theorem Reaches.mem {m : Label} (h : Reaches body m) : U m := by
  obtain ⟨i, hi, l, hl, hm⟩ := h
  exact hU.leads (hb i hi l hl) hm

/-- The check of the references of a body, in full. -/
theorem exists_emittedLabels_iff (index : Nat) :
    (∃ labels, emittedLabels r index body [] = .ok labels) ↔ ∀ v, Uses body v → r v := by
  simp only [emittedLabels_eq_ok_iff, uses_iff hU hb, exists_and_left, exists_eq, and_true]
  refine ⟨?_, ?_⟩
  · intro h v hx
    obtain ⟨i, hi, hv⟩ := hx
    exact h i hi v hv
  · exact fun h i hi v hv => h v ⟨i, hi, hv⟩

theorem emitted_of_ok {index : Nat} {labels : List Label} (h : emittedLabels r index body [] = .ok labels) :
    labels.Nodup ∧ ∀ m, m ∈ labels ↔ Reaches body m := by
  obtain ⟨-, rfl⟩ := emittedLabels_eq_ok_iff.1 h
  have hf : ∀ m ∈ body.flatMap reachedLabels, U m := fun m hm =>
    ((mem_flatMap_reachedLabels_iff hU hb m).1 hm).mem hU hb
  have hnil : ∀ m ∈ ([] : List Label), U m := nofun
  refine ⟨nodup_addLabels hU hf hnil List.nodup_nil, fun m => ?_⟩
  rw [mem_addLabels_iff hU hf hnil, mem_flatMap_reachedLabels_iff hU hb]
  exact or_iff_right List.not_mem_nil

end Body

end InlineAsm.Instruction
