import Mathlib.Data.List.Nodup

/-! Lists that are collected without repetition: each element stands where it was found first. -/

namespace InlineAsm

variable {α β : Type}

/-- The elements of `kept`, then those of `found` that are not there yet, each once. -/
def keepNew [BEq α] (kept found : List α) : List α :=
  found.foldl (fun kept x => if kept.contains x then kept else kept ++ [x]) kept

section BEq

variable [BEq α]

theorem keepNew_cons (kept found : List α) (x : α) :
    keepNew kept (x :: found) = keepNew (if kept.contains x then kept else kept ++ [x]) found := rfl

theorem keepNew_eq_append {found : List α} :
    ∀ {kept : List α}, keepNew kept found = kept ++ (found.filter fun x => !kept.contains x).eraseDups := by
  induction found with
  | nil => simp [keepNew]
  | cons x found ih =>
    intro kept
    rw [keepNew_cons]
    split_ifs with hc
    · rw [ih, List.filter_cons_of_neg (by simpa using hc)]
    · have hlater : (found.filter fun y => !(kept ++ [x]).contains y) =
          (found.filter fun y => !kept.contains y).filter fun y => !y == x := by
        rw [List.filter_filter]
        apply List.filter_congr
        intro y _
        rw [List.contains_append, Bool.not_or, Bool.and_comm]
        simp
      rw [ih, List.filter_cons_of_pos (by simpa using hc), List.eraseDups_cons, hlater, List.append_assoc]
      rfl

theorem keepNew_nil (found : List α) : keepNew [] found = found.eraseDups := by
  rw [keepNew_eq_append, List.nil_append]
  congr 1
  exact List.filter_eq_self.2 fun _ _ => rfl

/-- Induction along the removal of repetitions: behind an element stands the rest without it. -/
theorem induction_eraseDups {P : List α → Prop} (nil : P [])
    (cons : ∀ x xs, P (xs.filter fun y => !y == x) → P (x :: xs)) : ∀ xs, P xs := by
  intro xs
  induction hn : xs.length using Nat.strongRecOn generalizing xs with
  | ind n ih =>
    cases xs with
    | nil => exact nil
    | cons x xs =>
      apply cons
      apply ih _ _ _ rfl
      have := List.length_filter_le (fun y => !y == x) xs
      simp only [List.length_cons] at hn
      omega

variable [EquivBEq α]

/-- What repeats an element that was kept can be left out. -/
theorem keepNew_filter {x : α} {found : List α} :
    ∀ {kept : List α}, kept.contains x → keepNew kept (found.filter fun y => !y == x) = keepNew kept found := by
  induction found with
  | nil => intro kept _; rfl
  | cons y found ih =>
    intro kept hx
    by_cases hyx : y == x
    · have hy : kept.contains y := by
        rw [List.contains_iff_exists_mem_beq] at hx ⊢
        obtain ⟨z, hz, hxz⟩ := hx
        exact ⟨z, hz, BEq.trans hyx hxz⟩
      rw [List.filter_cons_of_neg (by simpa using hyx), keepNew_cons, if_pos hy]
      exact ih hx
    · rw [List.filter_cons_of_pos (by simpa using hyx), keepNew_cons, keepNew_cons]
      apply ih
      split_ifs
      · exact hx
      · rw [List.contains_append, hx, Bool.true_or]

theorem keepNew_eraseDups (found : List α) : ∀ kept, keepNew kept found.eraseDups = keepNew kept found := by
  induction found using induction_eraseDups with
  | nil => exact fun _ => rfl
  | cons x found ih =>
    intro kept
    have hx : (if kept.contains x then kept else kept ++ [x]).contains x := by
      split_ifs with hc
      · exact hc
      · simp [List.contains_append]
    rw [List.eraseDups_cons, keepNew_cons, ih, keepNew_filter hx]
    rfl

end BEq

variable [DecidableEq α] [DecidableEq β]

theorem nodup_eraseDups (xs : List α) : xs.eraseDups.Nodup := by
  induction xs using induction_eraseDups with
  | nil => simp
  | cons x xs ih =>
    rw [List.eraseDups_cons, List.nodup_cons]
    refine ⟨?_, ih⟩
    simp

theorem map_eraseDups {f : α → β} (hf : f.Injective) (xs : List α) : (xs.map f).eraseDups = xs.eraseDups.map f := by
  induction xs using induction_eraseDups with
  | nil => rfl
  | cons x xs ih =>
    have hfilter : ((xs.map f).filter fun y => !y == f x) = (xs.filter fun y => !y == x).map f := by
      rw [List.filter_map]
      congr 1
      apply List.filter_congr
      intro y _
      simp [hf.eq_iff]
    rw [List.map_cons, List.eraseDups_cons, List.eraseDups_cons, hfilter, ih, List.map_cons]

end InlineAsm
