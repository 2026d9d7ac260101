import Mathlib.Data.List.Basic
import Mathlib.Data.List.Forall2

/-! Lists that are put together with delimiters. A delimiter that does not stand in the parts lets the parts be told
from the whole, whether it ends each of them or stands between them. -/

namespace InlineAsm.Text

variable {α : Type}

/-- What stands before the first delimiter, and what behind it. -/
theorem append_cons_inj {c : α} {a b r s : List α} (ha : c ∉ a) (hb : c ∉ b) :
    a ++ c :: r = b ++ c :: s ↔ a = b ∧ r = s := by
  refine ⟨?_, ?_⟩
  · induction a generalizing b with
    | nil =>
      intro h
      cases b with
      | nil => exact ⟨rfl, (List.cons.inj h).2⟩
      | cons x b => exact absurd ((List.cons.inj h).1 ▸ List.mem_cons_self) hb
    | cons x a ih =>
      intro h
      cases b with
      | nil => exact absurd ((List.cons.inj h).1 ▸ List.mem_cons_self) ha
      | cons y b =>
        rw [List.cons_append, List.cons_append, List.cons.injEq] at h
        obtain ⟨rfl, h⟩ := h
        obtain ⟨rfl, rfl⟩ := ih (fun hm => ha (.tail _ hm)) (fun hm => hb (.tail _ hm)) h
        exact ⟨rfl, rfl⟩
  · rintro ⟨rfl, rfl⟩
    rfl

/-- The parts, each with the delimiter behind it. -/
def terminated (c : α) (parts : List (List α)) : List α := parts.flatMap (· ++ [c])

theorem terminated_cons (c : α) (p : List α) (ps : List (List α)) :
    terminated c (p :: ps) = p ++ c :: terminated c ps := by
  rw [terminated, List.flatMap_cons, List.append_assoc]
  rfl

theorem terminated_inj {c : α} {ps qs : List (List α)} (hp : ∀ p ∈ ps, c ∉ p) (hq : ∀ q ∈ qs, c ∉ q) :
    terminated c ps = terminated c qs ↔ ps = qs := by
  refine ⟨?_, congrArg _⟩
  induction ps generalizing qs with
  | nil =>
    intro h
    cases qs with
    | nil => rfl
    | cons q qs => simp [terminated] at h
  | cons p ps ih =>
    intro h
    cases qs with
    | nil => simp [terminated] at h
    | cons q qs =>
      obtain ⟨hp, hps⟩ := List.forall_mem_cons.1 hp
      obtain ⟨hq, hqs⟩ := List.forall_mem_cons.1 hq
      rw [terminated_cons, terminated_cons, append_cons_inj hp hq] at h
      rw [h.1, ih hps hqs h.2]

section Split

variable [BEq α] [LawfulBEq α] {c : α}

theorem splitOn_append_cons {piece : List α} (h : c ∉ piece) (rest : List α) :
    (piece ++ c :: rest).splitOn c = piece :: rest.splitOn c := by
  have hpiece : ∀ d ∈ piece, (d == c) = false := fun d hd => beq_eq_false_iff_ne.2 fun he => h (he ▸ hd)
  rw [List.splitOn_eq_splitOnP, List.splitOn_eq_splitOnP]
  exact List.splitOnP_append_cons_of_forall_mem (p := (· == c)) hpiece c (beq_self_eq_true c) rest

theorem splitOn_terminated_append {ps : List (List α)} (h : ∀ p ∈ ps, c ∉ p) (rest : List α) :
    (terminated c ps ++ rest).splitOn c = ps ++ rest.splitOn c := by
  induction ps with
  | nil => rfl
  | cons p ps ih =>
    obtain ⟨hp, hps⟩ := List.forall_mem_cons.1 h
    rw [terminated_cons, List.append_assoc, List.cons_append, splitOn_append_cons hp, ih hps, List.cons_append]

/-- The first part begins with all that stands in front of the first delimiter. -/
theorem exists_splitOn_append {front : List α} (h : c ∉ front) (rest : List α) :
    ∃ p ps, (front ++ rest).splitOn c = (front ++ p) :: ps := by
  induction front with
  | nil => exact List.exists_cons_of_ne_nil (List.splitOnP_ne_nil _ _)
  | cons d front ih =>
    rw [List.mem_cons, not_or] at h
    obtain ⟨p, ps, hsplit⟩ := ih h.2
    have hd : (d == c) = false := beq_eq_false_iff_ne.2 (Ne.symm h.1)
    rw [List.splitOn_eq_splitOnP] at hsplit ⊢
    rw [List.cons_append, List.splitOnP_cons_eq_if_modifyHead, hd, hsplit]
    exact ⟨p, ps, rfl⟩

end Split

/-- A delimiter that stands between parts, with more behind it, belongs to the part before it. -/
theorem intercalate_append {c : α} {sep : List α} (p : List α) (ps : List (List α)) :
    (c :: sep).intercalate (p :: ps) ++ [c] = terminated c (p :: ps.map (sep ++ ·)) := by
  induction ps generalizing p with
  | nil => simp [terminated]
  | cons q ps ih =>
    have hrest : terminated c ((sep ++ q) :: ps.map (sep ++ ·)) = sep ++ terminated c (q :: ps.map (sep ++ ·)) := by
      rw [terminated_cons, terminated_cons, List.append_assoc]
    rw [List.map_cons, terminated_cons, hrest, ← ih q, List.intercalate_cons_cons]
    simp

theorem intercalate_inj {c : α} {sep : List α} (hsep : c ∉ sep) {ps qs : List (List α)} (hp : ∀ p ∈ ps, c ∉ p)
    (hq : ∀ q ∈ qs, c ∉ q) (hps : ps ≠ []) (hqs : qs ≠ []) :
    (c :: sep).intercalate ps = (c :: sep).intercalate qs ↔ ps = qs := by
  refine ⟨fun h => ?_, congrArg _⟩
  obtain ⟨p, ps, rfl⟩ := List.exists_cons_of_ne_nil hps
  obtain ⟨q, qs, rfl⟩ := List.exists_cons_of_ne_nil hqs
  have hparts : ∀ (p : List α) (ps : List (List α)), (∀ p' ∈ p :: ps, c ∉ p') →
      ∀ p' ∈ p :: ps.map (sep ++ ·), c ∉ p' := by
    intro p ps h
    rw [List.forall_mem_cons, List.forall_mem_map]
    obtain ⟨hp, hps⟩ := List.forall_mem_cons.1 h
    exact ⟨hp, fun p' hp' hc => (List.mem_append.1 hc).elim hsep (hps p' hp')⟩
  have hends := congrArg (· ++ [c]) h
  simp only [intercalate_append] at hends
  rw [terminated_inj (hparts p ps hp) (hparts q qs hq), List.cons.injEq] at hends
  rw [hends.1, List.map_injective_iff.2 (List.append_right_injective sep) hends.2]

theorem not_mem_intercalate {c : α} {sep : List α} (hc : c ∉ sep) :
    ∀ {ps : List (List α)}, (∀ p ∈ ps, c ∉ p) → c ∉ sep.intercalate ps := by
  intro ps
  induction ps with
  | nil => simp
  | cons p ps ih =>
    intro h
    obtain ⟨hp, hps⟩ := List.forall_mem_cons.1 h
    cases ps with
    | nil => simpa using hp
    | cons q ps => simp [List.intercalate_cons_cons, hp, hc, ih hps]

theorem mem_intercalate_of_mem {sep p : List α} {c : α} (hc : c ∈ p) :
    ∀ {ps : List (List α)}, p ∈ ps → c ∈ sep.intercalate ps := by
  intro ps
  induction ps with
  | nil => exact nofun
  | cons q ps ih =>
    intro hp
    cases ps with
    | nil =>
      obtain rfl := List.mem_singleton.1 hp
      rwa [List.intercalate_singleton]
    | cons r ps =>
      rw [List.intercalate_cons_cons, List.mem_append]
      rcases List.mem_cons.1 hp with rfl | hp
      · exact .inl (List.mem_append_left _ hc)
      · exact .inr (ih hp)

/-- The first element of the other kind is where a list is cut. -/
theorem append_inj_of_head {P : α → Prop} {xs xs' ys ys' : List α} (hx : ∀ x ∈ xs, ¬P x) (hx' : ∀ x ∈ xs', ¬P x)
    (hy : ∀ y ∈ ys.head?, P y) (hy' : ∀ y ∈ ys'.head?, P y) : xs ++ ys = xs' ++ ys' ↔ xs = xs' ∧ ys = ys' := by
  refine ⟨?_, ?_⟩
  · induction xs generalizing xs' with
    | nil =>
      intro h
      cases xs' with
      | nil => exact ⟨rfl, h⟩
      | cons x xs' =>
        have hhead : x ∈ ys.head? := congrArg List.head? h
        exact absurd (hy x hhead) (hx' x List.mem_cons_self)
    | cons x xs ih =>
      intro h
      cases xs' with
      | nil =>
        have hhead : x ∈ ys'.head? := congrArg List.head? h.symm
        exact absurd (hy' x hhead) (hx x List.mem_cons_self)
      | cons x' xs' =>
        rw [List.cons_append, List.cons_append, List.cons.injEq] at h
        obtain ⟨rfl, h⟩ := h
        obtain ⟨rfl, rfl⟩ := ih (List.forall_mem_cons.1 hx).2 (List.forall_mem_cons.1 hx').2 h
        exact ⟨rfl, rfl⟩
  · rintro ⟨rfl, rfl⟩
    rfl

/-- A block begins with an element of a kind that no other element of it is of. -/
def Headed (P : α → Prop) (block : List α) : Prop := ∃ x xs, block = x :: xs ∧ P x ∧ ∀ y ∈ xs, ¬P y

theorem head?_flatten_of_headed {P : α → Prop} {bs : List (List α)} (hb : ∀ b ∈ bs, Headed P b) :
    ∀ y ∈ bs.flatten.head?, P y := by
  cases bs with
  | nil => exact nofun
  | cons b bs =>
    obtain ⟨x, xs, rfl, hx, -⟩ := hb b List.mem_cons_self
    rintro y ⟨⟩
    exact hx

theorem flatten_inj {P : α → Prop} {bs bs' : List (List α)} (hb : ∀ b ∈ bs, Headed P b)
    (hb' : ∀ b ∈ bs', Headed P b) : bs.flatten = bs'.flatten ↔ bs = bs' := by
  refine ⟨?_, congrArg _⟩
  induction bs generalizing bs' with
  | nil =>
    intro h
    cases bs' with
    | nil => rfl
    | cons b' bs' =>
      obtain ⟨x, xs, rfl, -⟩ := hb' b' List.mem_cons_self
      cases h
  | cons b bs ih =>
    intro h
    obtain ⟨⟨x, xs, rfl, -, hxs⟩, hbs⟩ := List.forall_mem_cons.1 hb
    cases bs' with
    | nil => cases h
    | cons b' bs' =>
      obtain ⟨⟨x', xs', rfl, -, hxs'⟩, hbs'⟩ := List.forall_mem_cons.1 hb'
      rw [List.flatten_cons, List.flatten_cons, List.cons_append, List.cons_append, List.cons.injEq,
        append_inj_of_head hxs hxs' (head?_flatten_of_headed hbs) (head?_flatten_of_headed hbs')] at h
      obtain ⟨rfl, rfl, h⟩ := h
      rw [ih hbs hbs' h]

end InlineAsm.Text
