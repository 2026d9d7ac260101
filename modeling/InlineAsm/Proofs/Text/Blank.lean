import InlineAsm.Text.Blank
import Mathlib.Data.List.TakeWhile

/-! Trimming takes blanks away at both ends and nothing else, and blanks at the end of a text hold no word. -/

namespace InlineAsm.Text

def Blanks (cs : List Char) : Prop := ∀ c ∈ cs, isBlank c

/-- No character that ASCII shows is blank. -/
theorem not_isBlank_of_visible {c : Char} (h : '!' ≤ c) (h' : c ≤ '~') : ¬isBlank c := by
  have hl : 33 ≤ c.toNat := h
  have hu : c.toNat ≤ 126 := h'
  simp only [isBlank, Bool.or_eq_true, Bool.and_eq_true, decide_eq_true_eq, beq_iff_eq]
  omega

variable {w w' cs : List Char}

theorem exists_dropBlanks (cs : List Char) : ∃ w, Blanks w ∧ cs = w ++ dropBlanks cs :=
  ⟨cs.takeWhile isBlank, fun _ hc => List.mem_takeWhile_imp hc, List.takeWhile_append_dropWhile.symm⟩

theorem exists_dropFinalBlanks (cs : List Char) : ∃ w, Blanks w ∧ cs = dropFinalBlanks cs ++ w := by
  obtain ⟨w, hw, h⟩ := exists_dropBlanks cs.reverse
  refine ⟨w.reverse, fun c hc => hw c (List.mem_reverse.1 hc), ?_⟩
  calc cs = cs.reverse.reverse := (List.reverse_reverse cs).symm
    _ = (w ++ dropBlanks cs.reverse).reverse := by rw [← h]
    _ = dropFinalBlanks cs ++ w.reverse := List.reverse_append

theorem exists_trim (cs : List Char) : ∃ w w', Blanks w ∧ Blanks w' ∧ cs = w ++ trim cs ++ w' := by
  obtain ⟨w, hw, h⟩ := exists_dropBlanks cs
  obtain ⟨w', hw', h'⟩ := exists_dropFinalBlanks (dropBlanks cs)
  refine ⟨w, w', hw, hw', ?_⟩
  rw [trim, List.append_assoc, ← h', ← h]

theorem dropBlanks_append (hw : Blanks w) (cs : List Char) : dropBlanks (w ++ cs) = dropBlanks cs :=
  List.dropWhile_append_of_pos hw

theorem dropBlanks_cons {c : Char} (hc : ¬isBlank c) (cs : List Char) : dropBlanks (c :: cs) = c :: cs :=
  List.dropWhile_cons_of_neg hc

theorem dropFinalBlanks_append (hw : Blanks w) (cs : List Char) :
    dropFinalBlanks (cs ++ w) = dropFinalBlanks cs := by
  rw [dropFinalBlanks, List.reverse_append, List.dropWhile_append_of_pos fun c hc => hw c (List.mem_reverse.1 hc)]
  rfl

theorem dropFinalBlanks_eq_self (h : ∀ c ∈ cs, ¬isBlank c) : dropFinalBlanks cs = cs := by
  rw [dropFinalBlanks, List.dropWhile_eq_self_iff.2, List.reverse_reverse]
  exact fun _ => h _ (List.mem_reverse.1 (List.getElem_mem _))

theorem trim_append (hw : Blanks w) (hw' : Blanks w') (h : ∀ c ∈ cs, ¬isBlank c) : trim (w ++ cs ++ w') = cs := by
  cases cs with
  | nil =>
    have hb : dropBlanks (w ++ [] ++ w') = [] := by
      rw [List.append_nil, dropBlanks_append hw]
      exact List.dropWhile_eq_nil_iff.2 hw'
    rw [trim, hb]
    rfl
  | cons c cs =>
    rw [trim, List.append_assoc, dropBlanks_append hw, List.cons_append,
      dropBlanks_cons (h c List.mem_cons_self), ← List.cons_append, dropFinalBlanks_append hw',
      dropFinalBlanks_eq_self h]

theorem words_blanks_append (hw : Blanks w) (cs : List Char) : words (w ++ cs) = words cs := by
  induction w with
  | nil => rfl
  | cons c w ih =>
    obtain ⟨hc, hw⟩ := List.forall_mem_cons.1 hw
    have h := ih hw
    rw [words] at h ⊢
    rw [List.cons_append, List.splitOnP_cons_eq_if_modifyHead, if_pos hc]
    exact h

theorem words_of_blanks (hw : Blanks w) : words w = [] := by
  have h := words_blanks_append hw []
  rwa [List.append_nil] at h

theorem words_append (hw : Blanks w) (cs : List Char) : words (cs ++ w) = words cs := by
  cases w with
  | nil => rw [List.append_nil]
  | cons c w =>
    obtain ⟨hc, hw⟩ := List.forall_mem_cons.1 hw
    have h := words_of_blanks hw
    rw [words] at h ⊢
    rw [List.splitOnP_append_cons _ _ hc, List.filter_append, h, List.append_nil]
    rfl

theorem words_trim (cs : List Char) : words (trim cs) = words cs := by
  obtain ⟨w, w', hw, hw', h⟩ := exists_trim cs
  calc words (trim cs) = words (w ++ trim cs ++ w') := by rw [words_append hw', words_blanks_append hw]
    _ = words cs := by rw [← h]

/-- The words hold all characters that are not blank, in order. -/
theorem flatten_words (cs : List Char) : (words cs).flatten = cs.filter fun c => !isBlank c := by
  rw [words, List.flatten_filter_not_isEmpty]
  induction cs with
  | nil => rfl
  | cons c cs ih =>
    rw [List.splitOnP_cons_eq_if_modifyHead]
    split_ifs with hc
    · rw [List.flatten_cons, List.nil_append, ih, List.filter_cons_of_neg (by simpa using hc)]
    · obtain ⟨p, ps, h⟩ := List.exists_cons_of_ne_nil (List.splitOnP_ne_nil isBlank cs)
      rw [h] at ih ⊢
      rw [List.modifyHead_cons, List.flatten_cons, List.cons_append, ← List.flatten_cons, ih,
        List.filter_cons_of_pos (by simpa using hc)]

theorem not_isBlank_of_trim_eq_cons {c : Char} {rest : List Char} (h : trim cs = c :: rest) : ¬isBlank c := by
  obtain ⟨w, -, hdrop⟩ := exists_dropFinalBlanks (dropBlanks cs)
  have hcons : cs.dropWhile isBlank = c :: (rest ++ w) := by
    rw [← List.cons_append, ← h]
    exact hdrop
  have hhead := List.head?_dropWhile_not isBlank cs
  rw [hcons] at hhead
  exact Bool.eq_false_iff.1 hhead

end InlineAsm.Text
