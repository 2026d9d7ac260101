import InlineAsm.Proofs.Storage.Slot

/-! Storing a value and reading it back is the conversion of C on each leaf, and the warnings that storing gives tell
exactly which integers the conversion changes. -/

namespace InlineAsm.Slot

/-- What is read back has the lists of the value that was stored, with each leaf converted. There is one warning for
each integer that became another one, in the order of the leaves. -/
theorem load_store {s s' : Slot} {v : Value} {ws : List RangeWarning} (hs : s.type.Solid)
    (h : s.store v = (s', .ok ws)) :
    s'.load = .ok (v.mapLeaves s.type.element.convert) ∧
    (∀ x ∈ v.leaves, s.type.element.Conversion x (s.type.element.convert x)) ∧
    ws = v.leaves.filterMap (fun x => s.type.element.changeWarning x (s.type.element.convert x)) ∧
    (s.type.element.isInteger → (ws = [] ↔ s'.load = .ok v)) := by
  obtain ⟨hcheck, htype, hbytes⟩ := of_store_eq_ok hs h
  obtain ⟨hv, hws⟩ := (check_eq_ok_iff hs).1 hcheck
  have hleaf : ∀ x, s.type.element.Accepts x → x.IsLeaf := fun _ hx => hx.isLeaf
  have haccepts := hv.of_mem_leaves hleaf
  have hload : s'.load = .ok (v.mapLeaves s.type.element.convert) := by
    rw [← htype] at hs hv hbytes ⊢
    exact load_image hs hv hbytes
  have hchange : ws = v.leaves.filterMap fun x => s.type.element.changeWarning x (s.type.element.convert x) := by
    rw [hws]
    exact List.filterMap_congr fun x hx => CType.warning_eq_change (haccepts x hx)
  refine ⟨hload, fun x hx => CType.conversion_convert (haccepts x hx), hchange, fun ht => ?_⟩
  rw [hload, Except.ok.injEq, hv.mapLeaves_eq_self_iff hleaf, hchange, List.filterMap_eq_nil_iff]
  exact forall₂_congr fun x hx => CType.changeWarning_eq_none_iff ht (haccepts x hx)

/-- Four shorts behind a pointer, with bytes that were there before. -/
def usedShorts : Slot := ⟨.pointer (.array .short [2, 2]), [1, 2, 3, 4, 5, 6, 7, 8], rfl⟩

/-- Integers around the ends of the range of `short`. -/
def edgeOfShort : Value := .list [.list [.int 65537, .int (-32769)], .list [.int 32767, .int (-1)]]

theorem load_store_edges :
    usedShorts.type.Solid ∧
    ∃ s', usedShorts.store edgeOfShort =
        (s', .ok [⟨.short, 65537, -32768, 32767⟩, ⟨.short, -32769, -32768, 32767⟩]) ∧
      s'.load = .ok (.list [.list [.int 1, .int 32767], .list [.int 32767, .int (-1)]]) := by
  have hs : usedShorts.type.Solid := ⟨by decide, by decide, by decide⟩
  have h : usedShorts.store edgeOfShort = ((usedShorts.store edgeOfShort).1,
    .ok [⟨.short, 65537, -32768, 32767⟩, ⟨.short, -32769, -32768, 32767⟩]) := rfl
  exact ⟨hs, _, h, (load_store hs h).1⟩

end InlineAsm.Slot
