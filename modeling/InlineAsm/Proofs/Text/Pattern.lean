import InlineAsm.Text.Pattern
import Mathlib.Data.List.Basic
import Mathlib.Data.Nat.Basic
import Mathlib.Order.Basic

/-! What a pattern can match, in any of the ways that it allows. The search finds one of these ways if there is one. A
pattern whose repetitions take at least one character each time is searched to the end. -/

namespace InlineAsm.Text.Pattern

/-- The pattern can match the text between `cs` and the rest of it, in a text of `size` characters. The groups are those
before and after. -/
inductive Matches (size : Nat) : Pattern → List Char → Groups → List Char → Groups → Prop
  | start {cs : List Char} {g : Groups} : cs.length = size → Matches size start cs g cs g
  | finish {g : Groups} : Matches size finish [] g [] g
  | one {c : CharClass} {d : Char} {rest : List Char} {g : Groups} :
      c.contains d → Matches size (one c) (d :: rest) g rest g
  | seq {p q : Pattern} {cs mid rest : List Char} {g g' g'' : Groups} :
      Matches size p cs g mid g' → Matches size q mid g' rest g'' → Matches size (seq p q) cs g rest g''
  | stop {greedy : Bool} {p : Pattern} {cs : List Char} {g : Groups} : Matches size (many greedy p) cs g cs g
  | again {greedy : Bool} {p : Pattern} {cs mid rest : List Char} {g g' g'' : Groups} :
      Matches size p cs g mid g' → Matches size (many greedy p) mid g' rest g'' →
      Matches size (many greedy p) cs g rest g''
  | group {index : Nat} {p : Pattern} {cs rest : List Char} {g g' : Groups} :
      Matches size p cs g rest g' →
      Matches size (group index p) cs g rest ((index, cs.take (cs.length - rest.length)) :: g')

/-- The pattern matches no empty text. -/
def takesSome : Pattern → Bool
  | start | finish | many _ _ => false
  | one _ => true
  | seq p q => p.takesSome || q.takesSome
  | group _ p => p.takesSome

/-- All that is repeated matches no empty text. -/
def proper : Pattern → Bool
  | start | finish | one _ => true
  | seq p q => p.proper && q.proper
  | many _ p => p.takesSome && p.proper
  | group _ p => p.proper

variable {α : Type} {size : Nat} {p q : Pattern} {cs rest : List Char} {g g' : Groups} {k : Follow α} {a : α}

theorem Matches.length_le (h : Matches size p cs g rest g') : rest.length ≤ cs.length := by
  induction h with
  | start | finish | stop => exact le_rfl
  | one => exact Nat.le_succ _
  | seq _ _ ih₁ ih₂ => exact ih₂.trans ih₁
  | again _ _ ih₁ ih₂ => exact ih₂.trans ih₁
  | group _ ih => exact ih

theorem Matches.length_lt (h : Matches size p cs g rest g') (hp : p.takesSome) : rest.length < cs.length := by
  induction h with
  | start | finish | stop => cases hp
  | again => cases hp
  | one => exact Nat.lt_succ_self _
  | group _ ih => exact ih hp
  | seq h₁ h₂ ih₁ ih₂ =>
    rcases Bool.or_eq_true_iff.1 hp with hp | hp
    · exact h₂.length_le.trans_lt (ih₁ hp)
    · exact (ih₂ hp).trans_le h₁.length_le

theorem orElse_eq_some {x y : Option α} (h : (x <|> y) = some a) : x = some a ∨ y = some a := by
  cases x with
  | none => exact .inr h
  | some x => exact .inl h

/-- What a repetition finds is found by steps that can be made. -/
theorem exists_of_repeated {greedy : Bool}
    (ih : ∀ {cs g} {k : Follow α}, run size p cs g k = some a →
      ∃ rest g', Matches size p cs g rest g' ∧ k rest g' = some a)
    (n : Nat) : ∀ {cs g}, repeated (run size p) greedy k n cs g = some a →
      ∃ rest g', Matches size (many greedy p) cs g rest g' ∧ k rest g' = some a := by
  induction n with
  | zero => exact fun h => ⟨_, _, .stop, h⟩
  | succ n ihn =>
    intro cs g h
    have hcases : k cs g = some a ∨ run size p cs g (repeated (run size p) greedy k n) = some a := by
      rw [repeated] at h
      split_ifs at h
      · exact (orElse_eq_some h).symm
      · exact orElse_eq_some h
    rcases hcases with h | h
    · exact ⟨_, _, .stop, h⟩
    · obtain ⟨mid, g₁, hmid, h⟩ := ih h
      obtain ⟨rest, g', hrest, h⟩ := ihn h
      exact ⟨rest, g', .again hmid hrest, h⟩

/-- What is found is a match that is not refused. -/
theorem exists_of_run : ∀ {cs g} {k : Follow α}, run size p cs g k = some a →
    ∃ rest g', Matches size p cs g rest g' ∧ k rest g' = some a := by
  induction p with
  | start =>
    intro cs g k h
    rw [run] at h
    split_ifs at h with hsize
    exact ⟨_, _, .start hsize, h⟩
  | finish =>
    intro cs g k h
    rw [run] at h
    split_ifs at h with hcs
    obtain rfl := List.isEmpty_iff.1 hcs
    exact ⟨_, _, .finish, h⟩
  | one c =>
    intro cs g k h
    cases cs with
    | nil => cases h
    | cons d rest =>
      simp only [run] at h
      split_ifs at h with hd
      exact ⟨_, _, .one hd, h⟩
  | seq p q ihp ihq =>
    intro cs g k h
    obtain ⟨mid, g₁, hp, h⟩ := ihp h
    obtain ⟨rest, g₂, hq, h⟩ := ihq h
    exact ⟨_, _, .seq hp hq, h⟩
  | many greedy p ih =>
    intro cs g k h
    exact exists_of_repeated ih _ h
  | group index p ih =>
    intro cs g k h
    obtain ⟨rest, g₁, hp, h⟩ := ih h
    exact ⟨_, _, .group hp, h⟩

/-- As long as each step takes a character, `cs.length` steps are enough. -/
theorem isSome_repeated {greedy : Bool} (hp : p.takesSome)
    (ih : ∀ {cs g rest g'} {k : Follow α}, Matches size p cs g rest g' → (k rest g').isSome →
      (run size p cs g k).isSome)
    (h : Matches size (many greedy p) cs g rest g') (hk : (k rest g').isSome) :
    ∀ n, cs.length ≤ n → (repeated (run size p) greedy k n cs g).isSome := by
  generalize hq : many greedy p = q at h
  induction h with
  | start | finish | one | seq | group => cases hq
  | stop =>
    intro n _
    cases n with
    | zero => exact hk
    | succ n => rw [repeated]; split_ifs <;> simp [hk]
  | again hmid hrest _ ihr =>
    obtain ⟨rfl, rfl⟩ := Pattern.many.inj hq
    intro n hn
    have hlt := hmid.length_lt hp
    obtain ⟨m, rfl⟩ : ∃ m, n = m + 1 := ⟨n - 1, by omega⟩
    have hstep := ih hmid (ihr hk rfl m (by omega))
    rw [repeated]
    split_ifs <;> simp [hstep]

/-- A match that is not refused keeps the search from failing. -/
theorem isSome_run (hp : p.proper) : ∀ {cs g rest g'} {k : Follow α},
    Matches size p cs g rest g' → (k rest g').isSome → (run size p cs g k).isSome := by
  induction p with
  | start =>
    intro cs g rest g' k h hk
    cases h with
    | start hsize => rwa [run, if_pos hsize]
  | finish =>
    intro cs g rest g' k h hk
    cases h with
    | finish => exact hk
  | one c =>
    intro cs g rest g' k h hk
    cases h with
    | one hd => simpa only [run, if_pos hd] using hk
  | seq p q ihp ihq =>
    intro cs g rest g' k h hk
    obtain ⟨hp, hq⟩ := Bool.and_eq_true_iff.1 hp
    cases h with
    | seq hmid hrest => exact ihp hp hmid (ihq hq hrest hk)
  | many greedy p ih =>
    intro cs g rest g' k h hk
    obtain ⟨hsome, hp⟩ := Bool.and_eq_true_iff.1 hp
    exact isSome_repeated hsome (ih hp) h hk _ le_rfl
  | group index p ih =>
    intro cs g rest g' k h hk
    cases h with
    | group h => exact ih hp h hk

section Forms

theorem matches_start : Matches size start cs g rest g' ↔ cs.length = size ∧ rest = cs ∧ g' = g := by
  refine ⟨?_, ?_⟩
  · intro h
    cases h with
    | start h => exact ⟨h, rfl, rfl⟩
  · rintro ⟨h, rfl, rfl⟩
    exact .start h

theorem matches_finish : Matches size finish cs g rest g' ↔ cs = [] ∧ rest = [] ∧ g' = g := by
  refine ⟨?_, ?_⟩
  · intro h
    cases h
    exact ⟨rfl, rfl, rfl⟩
  · rintro ⟨rfl, rfl, rfl⟩
    exact .finish

theorem matches_one {c : CharClass} :
    Matches size (one c) cs g rest g' ↔ ∃ d, cs = d :: rest ∧ c.contains d ∧ g' = g := by
  refine ⟨?_, ?_⟩
  · intro h
    cases h with
    | one h => exact ⟨_, rfl, h, rfl⟩
  · rintro ⟨d, rfl, h, rfl⟩
    exact .one h

theorem matches_seq {g'' : Groups} :
    Matches size (seq p q) cs g rest g'' ↔ ∃ mid g', Matches size p cs g mid g' ∧ Matches size q mid g' rest g'' := by
  refine ⟨?_, ?_⟩
  · intro h
    cases h with
    | seq hp hq => exact ⟨_, _, hp, hq⟩
  · rintro ⟨mid, g', hp, hq⟩
    exact .seq hp hq

/-- The pattern takes the texts with a property, and no groups are in it. -/
def Takes (size : Nat) (p : Pattern) (P : List Char → Prop) : Prop :=
  ∀ {cs : List Char} {g : Groups} {rest : List Char} {g' : Groups},
    Matches size p cs g rest g' ↔ (∃ w, cs = w ++ rest ∧ P w) ∧ g' = g

/-- A repeated class takes any number of its characters. -/
theorem takes_many_one (size : Nat) (greedy : Bool) (c : CharClass) :
    Takes size (many greedy (one c)) fun w => ∀ d ∈ w, c.contains d := by
  intro cs g rest g'
  refine ⟨?_, ?_⟩
  · intro h
    generalize hq : many greedy (one c) = q at h
    induction h with
    | start | finish | one | seq | group => cases hq
    | stop => exact ⟨⟨[], rfl, nofun⟩, rfl⟩
    | again hd _ _ ih =>
      cases hq
      obtain ⟨d, rfl, hcontains, rfl⟩ := matches_one.1 hd
      obtain ⟨⟨w, rfl, hw⟩, rfl⟩ := ih rfl
      exact ⟨⟨d :: w, rfl, List.forall_mem_cons.2 ⟨hcontains, hw⟩⟩, rfl⟩
  · rintro ⟨⟨w, rfl, hw⟩, rfl⟩
    induction w with
    | nil => exact .stop
    | cons d w ih =>
      obtain ⟨hd, hw⟩ := List.forall_mem_cons.1 hw
      exact .again (.one hd) (ih hw)

/-- A group keeps what the pattern in it takes. -/
theorem matches_group {P : List Char → Prop} (hp : Takes size p P) {index : Nat} :
    Matches size (group index p) cs g rest g' ↔ ∃ w, cs = w ++ rest ∧ P w ∧ g' = (index, w) :: g := by
  have htake : ∀ w : List Char, (w ++ rest).take ((w ++ rest).length - rest.length) = w := by
    intro w
    rw [List.length_append, Nat.add_sub_cancel, List.take_left' rfl]
  refine ⟨?_, ?_⟩
  · intro h
    cases h with
    | group h =>
      obtain ⟨⟨w, rfl, hw⟩, rfl⟩ := hp.1 h
      exact ⟨w, rfl, hw, by rw [htake]⟩
  · rintro ⟨w, rfl, hw, rfl⟩
    have hgroup : Matches size (group index p) (w ++ rest) g rest _ := .group (hp.2 ⟨⟨w, rfl, hw⟩, rfl⟩)
    rwa [htake] at hgroup

end Forms

section Search

theorem matches_of_front (h : p.front size cs = some (g, rest)) : Matches size p cs [] rest g := by
  obtain ⟨_, _, hm, ⟨⟩⟩ := exists_of_run h
  exact hm

theorem exists_front (hp : p.proper) (h : Matches size p cs [] rest g) : ∃ found, p.front size cs = some found :=
  Option.isSome_iff_exists.1 (isSome_run hp h rfl)

/-- What the search finds stands somewhere in the text. -/
theorem exists_of_search : ∀ {cs : List Char}, p.search size cs = some (g, rest) →
    ∃ w cs', cs = w ++ cs' ∧ Matches size p cs' [] rest g := by
  intro cs
  induction cs with
  | nil => exact fun h => ⟨[], [], rfl, matches_of_front h⟩
  | cons d cs ih =>
    intro h
    rcases orElse_eq_some h with h | h
    · exact ⟨[], d :: cs, rfl, matches_of_front h⟩
    · obtain ⟨w, cs', rfl, hm⟩ := ih h
      exact ⟨d :: w, cs', rfl, hm⟩

/-- A match at the front comes before all others. -/
theorem search_of_matches (hp : p.proper) (h : Matches size p cs [] rest g) :
    ∃ g' rest', p.search size cs = some (g', rest') ∧ Matches size p cs [] rest' g' := by
  obtain ⟨⟨g', rest'⟩, hfront⟩ := exists_front hp h
  refine ⟨g', rest', ?_, matches_of_front hfront⟩
  cases cs with
  | nil => exact hfront
  | cons d cs => rw [search, hfront]; rfl

theorem front_eq_none (h : ∀ rest g, ¬Matches size p cs [] rest g) : p.front size cs = none := by
  rw [Option.eq_none_iff_forall_ne_some]
  rintro ⟨g, rest⟩ hfront
  exact h rest g (matches_of_front hfront)

theorem search_cons_of_not_matches {d : Char} (h : ∀ rest g, ¬Matches size p (d :: cs) [] rest g) :
    p.search size (d :: cs) = p.search size cs := by
  rw [search, front_eq_none h]
  rfl

end Search

end InlineAsm.Text.Pattern
