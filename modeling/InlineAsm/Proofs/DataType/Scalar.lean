import InlineAsm.Proofs.DataType.Name

/-! The name of a scalar type can be read on its own, or as a type's name without brackets. On its own it may have any
blanks between its words. As a type's name it may have them only around it, and between its words nothing but spaces,
so the two readings part at a tab. -/

namespace InlineAsm

open Text (isBlank)

namespace CType

variable {t : CType} {cs : List Char}

/-- If the words of a text spell a type, then it has only small letters besides its blanks. -/
theorem isSmall_of_words (h : String.ofList ([' '].intercalate (Text.words cs)) ∈ t.spellings) {c : Char}
    (hc : c ∈ cs) (hblank : ¬isBlank c) : IsSmall c := by
  have hflat : c ∈ (Text.words cs).flatten := by
    rw [Text.flatten_words, List.mem_filter]
    exact ⟨hc, by simpa using hblank⟩
  obtain ⟨w, hw, hcw⟩ := List.mem_flatten.1 hflat
  have hmem : c ∈ (String.ofList ([' '].intercalate (Text.words cs))).toList := by
    rw [String.toList_ofList]
    exact Text.mem_intercalate_of_mem hcw hw
  by_contra hsmall
  refine DataType.not_mem_spelling h hsmall (fun he => hblank ?_) hmem
  rw [he]
  decide

/-- A trimmed text spells a type if and only if its words do and only spaces separate them. -/
theorem spelledBy_trim_iff :
    t.SpelledBy (Text.trim cs) ↔
      String.ofList ([' '].intercalate (Text.words cs)) ∈ t.spellings ∧
        ∀ c ∈ Text.trim cs, isBlank c → c = ' ' := by
  rw [← Text.words_trim cs]
  refine ⟨?_, ?_⟩
  · intro h
    have hblank := DataType.blank_iff_of_letters h.letters
    rw [Text.words_eq_spacedWords hblank]
    exact ⟨h.spelling, fun c hc => (hblank c hc).1⟩
  · intro h
    obtain ⟨hspelling, hspaces⟩ := h
    have hletters : ∃ c rest, Text.trim cs = c :: rest ∧ IsSmall c ∧ ∀ d ∈ rest, IsSmall d ∨ d = ' ' := by
      cases htrim : Text.trim cs with
      | nil =>
        rw [htrim] at hspelling
        exact absurd (DataType.isScalarName_of_mem_spellings hspelling) (by decide)
      | cons c rest =>
        rw [htrim] at hspelling hspaces
        have hsmall := isSmall_of_words hspelling List.mem_cons_self (Text.not_isBlank_of_trim_eq_cons htrim)
        refine ⟨c, rest, rfl, hsmall, ?_⟩
        intro d hd
        by_cases hb : isBlank d
        · exact .inr (hspaces d (.tail _ hd) hb)
        · exact .inl (isSmall_of_words hspelling (.tail _ hd) hb)
    rw [Text.words_eq_spacedWords (DataType.blank_iff_of_letters hletters)] at hspelling
    exact ⟨hletters, hspelling⟩

end CType

namespace DataType

variable {t : CType} {cs : List Char}

/-- A name without brackets is a spelling of the scalar type between blanks. -/
theorem namedBy_scalar_iff : (scalar t).NamedBy cs ↔ t.SpelledBy (Text.trim cs) := by
  refine ⟨?_, ?_⟩
  · intro h
    obtain ⟨before, scalarName, after, brackets, rfl, hbefore, hscalar, hafter, hbrackets⟩ := h
    cases hbrackets
    obtain ⟨trimmed, htrim, hname, ht⟩ := exists_trimmed hbefore hscalar hafter
    have hletters := isScalarName_iff.1 hname
    have hspelling := scalarOfName_eq_ok_iff.1 ht
    rw [Text.words_eq_spacedWords (blank_iff_of_letters hletters)] at hspelling
    rw [List.append_nil, htrim]
    exact ⟨hletters, hspelling⟩
  · intro h
    obtain ⟨before, after, hbefore, hafter, htext⟩ := Text.exists_trim cs
    refine ⟨before, Text.trim cs, after, [], ?_, hbefore, h, hafter, .nil⟩
    rw [List.append_nil]
    exact htext

/-- As a type's name, a text is read as a scalar type if and only if it is read so on its own and has no other blanks
than spaces between its words. -/
theorem ofName_eq_scalar_iff (s : String) (t : CType) :
    ofName s = .ok (.scalar t) ↔ scalarOfName s = .ok t ∧ ∀ c ∈ Text.trim s.toList, isBlank c → c = ' ' := by
  have hname : ofName s = .ok (.scalar t) ↔ (scalar t).NamedBy s.toList := ⟨namedBy_of_ofName, ofName_of_namedBy⟩
  have hscalar : scalarOfName s = .ok t ↔ String.ofList ([' '].intercalate (Text.words s.toList)) ∈ t.spellings := by
    rw [← scalarOfName_eq_ok_iff, String.ofList_toList]
  rw [hname, namedBy_scalar_iff, CType.spelledBy_trim_iff, hscalar]

/-- Two words with a tab between them name a type on their own only. -/
theorem not_scalar_readings_agree :
    ¬∀ (s : String) (t : CType), '[' ∉ s.toList → ']' ∉ s.toList →
      (ofName s = .ok (.scalar t) ↔ scalarOfName s = .ok t) := by
  intro h
  have halone : scalarOfName "long\tlong" = .ok .longLong := rfl
  have hrefused : ofName "long\tlong" = .error (.malformedTypeName "long\tlong") := rfl
  have hread := (h "long\tlong" .longLong (by decide) (by decide)).2 halone
  rw [hrefused] at hread
  cases hread

end DataType

end InlineAsm
