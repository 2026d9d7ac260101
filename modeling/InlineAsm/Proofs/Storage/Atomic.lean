import InlineAsm.Proofs.DataType.Name
import InlineAsm.Proofs.Storage.Slot

/-! Storing is all or nothing. The leaves are written one behind the other, but a value comes so far only if the check
has accepted every leaf, and no leaf that it accepts is without an encoding. What can still end the writing is a storage
that is too small, and then no error is returned. -/

namespace InlineAsm.Slot

variable {s : Slot} {v : Value}

theorem element_of_shape : ∀ {t : NativeType} {d : DataType}, shape t = .ok d → d.element = t.element := by
  intro t
  induction t with
  | scalar t =>
    intro d h
    cases h
    rfl
  | array t dims =>
    intro d h
    cases dims with
    | nil => exact (DataType.ofDims_eq_ok_iff.1 h).1
    | cons n dims =>
      rw [shape_array (List.cons_ne_nil n dims)] at h
      exact (DataType.ofDims_eq_ok_iff.1 h).1
  | pointer inner ih => exact ih

/-- Whatever the axes of a slot are, its check looks at every leaf. -/
theorem accepts_of_check {ws : List RangeWarning} (h : s.check v = .ok ws) :
    ∀ x ∈ v.leaves, s.type.element.Accepts x := by
  obtain ⟨d, hd, hcheck⟩ := bind_eq_ok.1 h
  obtain ⟨⟨d', warnings⟩, hr, -⟩ := bind_eq_ok.1 hcheck
  obtain ⟨dims, -, hfits, -, -⟩ := DataType.check_eq_ok_iff.1 (mapError_eq_ok.1 hr)
  rw [element_of_shape hd] at hfits
  exact Value.Shaped.of_mem_leaves (fun _ hx => hx.isLeaf) hfits

theorem kind_of_shape : ∀ {t : NativeType} {e : Error}, shape t = .error e → e.kind = .argumentValue := by
  intro t
  induction t with
  | scalar t => exact nofun
  | array t dims =>
    intro e h
    cases dims with
    | nil => cases h
    | cons n dims =>
      rw [shape_array (List.cons_ne_nil n dims)] at h
      exact DataType.kind_of_ofDims h
  | pointer inner ih => exact ih

theorem kind_of_check {e : Error} (h : s.check v = .error e) : e.kind = .argumentValue ∨ e.kind = .argumentType := by
  rcases bind_eq_error.1 h with h | ⟨d, -, h⟩
  · exact .inl (kind_of_shape h)
  · rcases bind_eq_error.1 h with h | ⟨r, -, h⟩
    · obtain ⟨m, -, rfl⟩ := mapError_eq_error.1 h
      exact .inr rfl
    · cases h

/-- What the check answers is never a fault of the storage. -/
theorem check_ne_storage {f : StorageFault} : s.check v ≠ .error (.storage f) :=
  fun h => (kind_of_check h).elim nofun nofun

/-- What storing has done if it fails: nothing if it was the check that failed, and else as much as the storage can
take. -/
theorem of_store_eq_error {s' : Slot} {e : Error} (h : s.store v = (s', .error e)) :
    s.check v = .error e ∧ s' = s ∨
      e = .storage .outOfBounds ∧ (∃ ws, s.check v = .ok ws) ∧
        s.bytes.length < (image s.type.element v).length ∧ s' = s.overwrite (image s.type.element v) := by
  unfold store at h
  cases hc : s.check v with
  | error e' =>
    simp only [hc, Prod.mk.injEq, Except.error.injEq] at h
    exact .inl ⟨congrArg _ h.2, h.1.symm⟩
  | ok ws =>
    simp only [hc, encodeAll_eq_image (accepts_of_check hc)] at h
    split_ifs at h with hlt
    · simp only [Prod.mk.injEq, Except.error.injEq] at h
      exact .inr ⟨h.2.symm, ⟨ws, rfl⟩, hlt, h.1.symm⟩
    · cases h

/-- A store that answers with an error leaves the slot with the bytes that it had, whatever its type is, and the error
is that of the check. Leaves are no reason: the check accepts all of them, and what a type accepts it can encode. Where
an accepted value ends in a fault instead, the storage holds as many bytes of the value as it can. -/
theorem store_atomic (s : Slot) (v : Value) :
    (∀ s' e, s.store v = (s', .error e) → e.kind ≠ .storage →
      s'.type = s.type ∧ s'.bytes = s.bytes ∧ s'.load = s.load ∧ s.check v = .error e) ∧
    (∀ s' f, s.store v = (s', .error (.storage f)) →
      f = .outOfBounds ∧ s'.type = s.type ∧ s'.bytes = (image s.type.element v).take s.bytes.length) ∧
    (∀ ws, s.check v = .ok ws → ∀ x ∈ v.leaves, ∃ w, s.type.element.check x = .ok w) ∧
    ∀ x w, s.type.element.check x = .ok w →
      ∃ bytes, s.type.element.encode x = .ok bytes ∧ bytes.length = s.type.element.size := by
  refine ⟨?_, ?_, fun ws h => accepts_of_check h, ?_⟩
  · intro s' e h he
    rcases of_store_eq_error h with ⟨hcheck, rfl⟩ | ⟨rfl, -⟩
    · exact ⟨rfl, rfl, rfl, hcheck⟩
    · exact absurd rfl he
  · intro s' f h
    rcases of_store_eq_error h with ⟨hcheck, -⟩ | ⟨hf, -, hlt, rfl⟩
    · exact absurd hcheck check_ne_storage
    · cases hf
      exact ⟨rfl, rfl, overwrite_bytes_of_le hlt.le⟩
  · intro x w h
    obtain ⟨bytes, hbytes, hlength, -⟩ := CType.encode_of_check h
    exact ⟨bytes, hbytes, hlength⟩

/-- Two rows of two shorts behind a pointer, with bytes that were there before. -/
def filledShorts : Slot := ⟨.pointer (.array .short [2, 2]), [8, 7, 6, 5, 4, 3, 2, 1], rfl⟩

/-- Three integers, and a text where the last one should be. -/
def endingInText : Value := .list [.list [.int 1, .int 70000], .list [.int 3, .text "x"]]

theorem store_atomic_endingInText :
    (filledShorts.store endingInText).2 = .error (.mismatch (.notInteger .short .text)) ∧
    (filledShorts.store endingInText).1.bytes = [8, 7, 6, 5, 4, 3, 2, 1] ∧
    (filledShorts.store endingInText).1.load = filledShorts.load := by
  have h : filledShorts.store endingInText =
      ((filledShorts.store endingInText).1, .error (.mismatch (.notInteger .short .text))) := rfl
  obtain ⟨hfailed, -⟩ := store_atomic filledShorts endingInText
  obtain ⟨-, hbytes, hload, -⟩ := hfailed _ _ h nofun
  exact ⟨congrArg Prod.snd h, hbytes, hload⟩

end InlineAsm.Slot
