import InlineAsm.Proofs.Function.Compile
import Mathlib.Data.Nat.Find

/-! The places where variables are listed, in the order of the parameters. If none of them offends, each variable gets
the role of its list and the position of its place. Otherwise the first place that offends is reported, with its list
and the index there. -/

namespace InlineAsm

/-- A variable in the list of a role, with the index in that list. -/
structure Place where
  role : Role
  index : Nat
  var : Variable

namespace Place

/-- The places of a list whose indices begin with `first`. -/
def ofList (role : Role) (first : Nat) (vs : List Variable) : List Place :=
  (vs.zipIdx first).map fun p => ⟨role, p.2, p.1⟩

def all (inputs locals outputs : List Variable) : List Place :=
  ofList .output 0 outputs ++ ofList .input 0 inputs ++ ofList .scratch 0 locals

def binding (p : Place) : Binding := ⟨p.var, p.role⟩

/-- How a message names the place. -/
def heading (p : Place) : String :=
  p.role.listName ++ "[" ++ Text.Numeral.ofNat p.index ++ "]: variable " ++ p.var.description

/-- `q` lists the variable too, and stands in front of position `k`. -/
def Earlier (places : List Place) (k : Nat) (v : Variable) (q : Place) : Prop :=
  ∃ j < k, places[j]? = some q ∧ q.var == v

/-- The variable at position `k` was listed before, or it is an input with a literal. -/
def Offends (places : List Place) (k : Nat) : Prop :=
  ∃ p, places[k]? = some p ∧ ((∃ q, Earlier places k p.var q) ∨ (p.role = .input ∧ p.var.literal.isSome))

structure FirstOffence (places : List Place) (k : Nat) (p : Place) : Prop where
  stands : places[k]? = some p
  offends : Offends places k
  first : ∀ j < k, ¬Offends places j

def register (r : Roles) (p : Place) : Except Error Roles := r.register p.role p.index p.var

/-- The roles at the places in front of a position. -/
def before (places : List Place) (k : Nat) : Roles := .ofBindings ((places.take k).map binding)

theorem map_var_all (inputs locals outputs : List Variable) :
    (all inputs locals outputs).map var = outputs ++ inputs ++ locals := by
  have h : ∀ role vs, (ofList role 0 vs).map var = vs := by
    intro role vs
    rw [ofList, List.map_map]
    exact List.zipIdx_map_fst 0 vs
  simp only [all, List.map_append, h]

theorem registerAll_eq {role : Role} {vs : List Variable} :
    ∀ (first : Nat) (r : Roles), Roles.registerAll role first vs r = (ofList role first vs).foldlM register r := by
  induction vs with
  | nil => intro first r; rfl
  | cons v vs ih =>
    intro first r
    simp only [Roles.registerAll, ofList, List.zipIdx_cons, List.map_cons, List.foldlM_cons, register]
    congr 1
    funext later
    exact ih (first + 1) later

/-- The three lists are gone through as one. -/
theorem resolve_eq (inputs locals outputs : List Variable) :
    Roles.resolve inputs locals outputs = (all inputs locals outputs).foldlM register .empty := by
  simp only [Roles.resolve, registerAll_eq, all, List.foldlM_append, bind_assoc]

variable {places : List Place} {k : Nat} {p q : Place} {v : Variable}

theorem mem_handles_iff :
    v.handle ∈ ((places.take k).map binding).map Binding.handle ↔ ∃ q, Earlier places k v q := by
  simp only [List.map_map, List.mem_map, List.mem_take_iff_getElem, Earlier]
  constructor
  · rintro ⟨q, ⟨j, hj, rfl⟩, hv⟩
    exact ⟨_, j, by omega, List.getElem?_eq_getElem (by omega), Variable.beq_iff.2 hv⟩
  · rintro ⟨q, j, hj, hq, hv⟩
    obtain ⟨hlt, rfl⟩ := List.getElem?_eq_some_iff.1 hq
    exact ⟨_, ⟨j, by omega, rfl⟩, Variable.beq_iff.1 hv⟩

theorem bindings_before (places : List Place) (k : Nat) :
    (before places k).bindings = (places.take k).map binding := Roles.bindings_ofBindings _

theorem before_succ (hp : places[k]? = some p) : before places (k + 1) = (before places k).add p.binding := by
  rw [before, List.take_add_one, hp, Option.toList_some, List.map_append]
  exact Roles.ofBindings_concat _ _

/-- As long as no place offends, the map and the list stay inverse to each other. -/
theorem inverse_before (h : ∀ j < k, ¬Offends places j) : (before places k).Inverse := by
  induction k with
  | zero => exact Roles.inverse_empty
  | succ k ih =>
    have hr := ih fun j hj => h j (by omega)
    cases hp : places[k]? with
    | none =>
      rw [before, List.take_add_one, hp, Option.toList_none, List.append_nil]
      exact hr
    | some p =>
      rw [before_succ hp]
      refine hr.add ?_
      rw [bindings_before]
      exact fun hm => h k (by omega) ⟨p, hp, .inl (mem_handles_iff.1 hm)⟩

/-- One step binds the variable of a place, if the place does not offend. -/
theorem register_of_not_offends (hr : (before places k).Inverse) (hp : places[k]? = some p) (h : ¬Offends places k) :
    register (before places k) p = .ok (before places (k + 1)) := by
  rw [register, Roles.register_eq_ok_iff hr, bindings_before, mem_handles_iff]
  refine ⟨fun hq => h ⟨p, hp, .inl hq⟩, fun hrole => ?_, before_succ hp⟩
  by_contra hl
  exact h ⟨p, hp, .inr ⟨hrole, Option.isSome_iff_ne_none.2 hl⟩⟩

/-- As long as no place offends, all are bound. -/
theorem foldlM_register (h : ∀ j < k, ¬Offends places j) :
    (places.take k).foldlM register .empty = .ok (before places k) := by
  induction k with
  | zero => rfl
  | succ k ih =>
    have hearlier : ∀ j < k, ¬Offends places j := fun j hj => h j (by omega)
    have ih := ih hearlier
    cases hp : places[k]? with
    | none =>
      have htake : places.take (k + 1) = places.take k := by simp [List.take_add_one, hp]
      rw [before, htake]
      exact ih
    | some p =>
      have htake : places.take (k + 1) = places.take k ++ [p] := by simp [List.take_add_one, hp]
      calc (places.take (k + 1)).foldlM register .empty
          = (places.take k).foldlM register .empty >>= fun r => register r p := by
            rw [htake, List.foldlM_append]
            simp
        _ = register (before places k) p := by rw [ih]; rfl
        _ = .ok (before places (k + 1)) := register_of_not_offends (inverse_before hearlier) hp (h k (by omega))

theorem resolve_of_not_offends {inputs locals outputs : List Variable}
    (h : ∀ k, ¬Offends (all inputs locals outputs) k) :
    ∃ r, Roles.resolve inputs locals outputs = .ok r ∧ r.bindings = (all inputs locals outputs).map binding ∧
      r.Inverse := by
  have hrun := foldlM_register fun j (_ : j < (all inputs locals outputs).length) => h j
  rw [List.take_length, ← resolve_eq] at hrun
  refine ⟨_, hrun, ?_, inverse_before fun j _ => h j⟩
  rw [bindings_before, List.take_length]

/-- Where no place has offended yet, a variable was listed once at most. -/
theorem Earlier.unique (h : ∀ j < k, ¬Offends places j) {q q' : Place} (hq : Earlier places k v q)
    (hq' : Earlier places k v q') : q = q' := by
  obtain ⟨i, hi, hqi, hv⟩ := hq
  obtain ⟨j, hj, hqj, hv'⟩ := hq'
  rw [Variable.beq_iff] at hv hv'
  rcases Nat.lt_trichotomy i j with hlt | rfl | hlt
  · exact absurd ⟨q', hqj, .inl ⟨q, i, hlt, hqi, Variable.beq_iff.2 (hv.trans hv'.symm)⟩⟩ (h j hj)
  · exact Option.some.inj (hqi.symm.trans hqj)
  · exact absurd ⟨q, hqi, .inl ⟨q', j, hlt, hqj, Variable.beq_iff.2 (hv'.trans hv.symm)⟩⟩ (h i hi)

theorem exists_earlier_of_position? (hr : (before places k).Inverse) {i : Fin (before places k).bindings.length}
    (h : (before places k).position? v = some i) :
    ∃ q, Earlier places k v q ∧ (before places k).bindings[i] = q.binding := by
  have hv := hr.position?_eq_some_iff.1 h
  obtain ⟨j, hj⟩ := i
  have hi : (before places k).bindings[j]? = some (before places k).bindings[j] := List.getElem?_eq_getElem hj
  change v == (before places k).bindings[j].var at hv
  change ∃ q, Earlier places k v q ∧ (before places k).bindings[j] = q.binding
  generalize (before places k).bindings[j] = b at hi hv ⊢
  rw [bindings_before, List.getElem?_map, Option.map_eq_some_iff] at hi
  obtain ⟨q, hq, rfl⟩ := hi
  rw [List.getElem?_take] at hq
  split_ifs at hq with hlt
  exact ⟨q, ⟨j, hlt, hq, Variable.beq_iff.2 (Variable.beq_iff.1 hv).symm⟩, rfl⟩

theorem not_earlier_of_position? (hr : (before places k).Inverse) (h : (before places k).position? v = none) :
    ¬∃ q, Earlier places k v q := by
  rwa [← mem_handles_iff, ← bindings_before, ← hr.position?_eq_none_iff]

/-- The error that the place at position `k` gives rise to. -/
structure Reports (places : List Place) (k : Nat) (p : Place) (e : Error) : Prop where
  kind : e.kind = .argumentValue
  twice : ∀ q, Earlier places k p.var q →
    e.detail = p.heading ++ " is registered as " ++ q.role.name ++ " and " ++ p.role.name
  literal : (¬∃ q, Earlier places k p.var q) →
    p.role = .input ∧ e.detail = p.heading ++ " has a value and can not be an input"

theorem FirstOffence.exists_error (h : FirstOffence places k p) :
    ∃ e, register (before places k) p = .error e ∧ Reports places k p e := by
  have hr := inverse_before h.first
  cases hf : (before places k).position? p.var with
  | some i =>
    obtain ⟨q, hq, hb⟩ := exists_earlier_of_position? hr hf
    refine ⟨.registeredTwice p.index p.var q.role p.role, ?_, rfl, fun q' hq' => ?_, fun hn => absurd ⟨q, hq⟩ hn⟩
    · simp only [register, Roles.register, hf, hb, binding]
    · rw [hq'.unique h.first hq]
      rfl
  | none =>
    have hn := not_earlier_of_position? hr hf
    obtain ⟨p', hp', hoffends⟩ := h.offends
    obtain rfl := Option.some.inj (h.stands.symm.trans hp')
    have hinput := hoffends.resolve_left hn
    refine ⟨.inputWithLiteral p.index p.var, ?_, rfl, fun q hq => absurd ⟨q, hq⟩ hn, fun _ => ⟨hinput.1, ?_⟩⟩
    · simp only [register, Roles.register, hf, if_pos hinput]
    · rw [heading, hinput.1]
      rfl

theorem FirstOffence.foldlM_eq (h : FirstOffence places k p) {e : Error}
    (he : register (before places k) p = .error e) : places.foldlM register .empty = .error e := by
  obtain ⟨hlt, rfl⟩ := List.getElem?_eq_some_iff.1 h.stands
  calc places.foldlM register .empty
      = (places.take k).foldlM register .empty >>= fun r => (places.drop k).foldlM register r := by
        rw [← List.foldlM_append, List.take_append_drop]
    _ = (places.drop k).foldlM register (before places k) := by rw [foldlM_register h.first]; rfl
    _ = register (before places k) places[k] >>= (places.drop (k + 1)).foldlM register := by
        rw [List.drop_eq_getElem_cons hlt, List.foldlM_cons]
    _ = .error e := by rw [he]; rfl

theorem exists_firstOffence (h : ∃ k, Offends places k) : ∃ k p, FirstOffence places k p := by
  classical
  obtain ⟨p, hp, -⟩ := Nat.find_spec h
  exact ⟨Nat.find h, p, hp, Nat.find_spec h, fun j hj => Nat.find_min h hj⟩

end Place

namespace Function

open Place

variable {σ : Type} {bridge : Bridge (StateM σ)} {f f' : Function} {inputs locals outputs : List Variable} {s s' : σ}

/-- Only lists in which no place offends can be compiled. -/
theorem not_offends_of_resolve {r : Roles} (h : Roles.resolve inputs locals outputs = .ok r) :
    ∀ k, ¬Offends (all inputs locals outputs) k := by
  by_contra hk
  rw [not_forall_not] at hk
  obtain ⟨k, q, hfirst⟩ := exists_firstOffence hk
  obtain ⟨e, he, -⟩ := hfirst.exists_error
  rw [resolve_eq, hfirst.foldlM_eq he] at h
  cases h

/-- A variable with a literal. -/
def preset : Variable := ⟨3, .scalar .int, some (.int 7), []⟩

end Function

end InlineAsm
