import InlineAsm.Function.Roles
import InlineAsm.Proofs.DataType.Native
import Mathlib.Data.List.Induction
import Mathlib.Data.List.Nodup

/-! Three lists of variables can take their roles if and only if no handle stands twice in them and no input has a
literal. The bindings are then the outputs, the inputs and the locals in this order, the map of the positions is inverse
to them, and all that is refused here is the value of an argument. -/

namespace InlineAsm

theorem Variable.beq_iff {v w : Variable} : v == w ↔ v.handle = w.handle :=
  (beq_iff_eq : (v.handle == w.handle) = true ↔ v.handle = w.handle)

namespace Binding

def handle (b : Binding) : Nat := b.var.handle

def bind (role : Role) (v : Variable) : Binding := ⟨v, role⟩

/-- The bindings in the order of the parameters. -/
def parameters (inputs locals outputs : List Variable) : List Binding :=
  outputs.map (bind .output) ++ inputs.map (bind .input) ++ locals.map (bind .scratch)

theorem map_var_bind (role : Role) (vs : List Variable) : (vs.map (bind role)).map Binding.var = vs := by
  rw [List.map_map]
  exact List.map_id vs

theorem map_var_parameters (inputs locals outputs : List Variable) :
    (parameters inputs locals outputs).map Binding.var = outputs ++ inputs ++ locals := by
  simp only [parameters, List.map_append, map_var_bind]

theorem map_handle (bs : List Binding) : bs.map handle = (bs.map Binding.var).map Variable.handle := by
  rw [List.map_map]
  rfl

end Binding

namespace Roles

/-- The map and the list are inverse to each other. -/
def Inverse (r : Roles) : Prop := ∀ v i, r.positions.lookup v = some i ↔ ∃ b, r.bindings[i]? = some b ∧ v == b.var

/-- The roles of bindings that are added one after the other. -/
def ofBindings (bs : List Binding) : Roles := bs.foldl add empty

theorem getElem?_concat_eq_some_iff {α : Type} {l : List α} {a x : α} {i : Nat} :
    (l ++ [a])[i]? = some x ↔ l[i]? = some x ∨ i = l.length ∧ a = x := by
  rcases Nat.lt_trichotomy i l.length with h | rfl | h
  · rw [List.getElem?_append_left h]
    exact (or_iff_left fun hx => h.ne hx.1).symm
  · simp
  · have hlen : (l ++ [a]).length ≤ i := by
      rw [List.length_append, List.length_singleton]
      omega
    have hout : (l ++ [a])[i]? = none := List.getElem?_eq_none hlen
    simp [hout, h.ne', List.getElem?_eq_none h.le]

theorem inverse_empty : empty.Inverse := fun _ _ => iff_of_false nofun nofun

theorem bindings_foldl_add (bs : List Binding) (r : Roles) : (bs.foldl add r).bindings = r.bindings ++ bs := by
  induction bs generalizing r with
  | nil => exact (List.append_nil _).symm
  | cons b bs ih =>
    rw [List.foldl_cons, ih]
    exact List.append_assoc r.bindings [b] bs

theorem bindings_ofBindings (bs : List Binding) : (ofBindings bs).bindings = bs := bindings_foldl_add bs empty

theorem ofBindings_concat (bs : List Binding) (b : Binding) : ofBindings (bs ++ [b]) = (ofBindings bs).add b :=
  List.foldl_concat ..

section

variable {r : Roles} {v : Variable}

theorem map_position? (r : Roles) (v : Variable) : (r.position? v).map Fin.val = r.positions.lookup v := by
  unfold position?
  split
  · rename_i i h
    exact h.symm
  · rename_i h
    exact h.symm

theorem position?_eq_none_iff : r.position? v = none ↔ r.positions.lookup v = none := by
  rw [← map_position?, Option.map_eq_none_iff]

theorem position?_eq_some_iff {i : Fin r.bindings.length} :
    r.position? v = some i ↔ r.positions.lookup v = some i.val := by
  rw [← map_position?, Option.map_eq_some_iff]
  constructor
  · exact fun h => ⟨i, h, rfl⟩
  · rintro ⟨j, hj, hij⟩
    rw [hj, Fin.ext hij]

variable (hr : r.Inverse)
include hr

theorem Inverse.lookup_eq_none_iff : r.positions.lookup v = none ↔ v.handle ∉ r.bindings.map Binding.handle := by
  rw [Option.eq_none_iff_forall_ne_some]
  constructor
  · intro h hv
    obtain ⟨b, hb, he⟩ := List.mem_map.1 hv
    obtain ⟨i, hi⟩ := List.getElem?_of_mem hb
    exact h i ((hr v i).2 ⟨b, hi, Variable.beq_iff.2 he.symm⟩)
  · intro h i hi
    obtain ⟨b, hb, he⟩ := (hr v i).1 hi
    exact h (List.mem_map.2 ⟨b, List.mem_of_getElem? hb, (Variable.beq_iff.1 he).symm⟩)

theorem Inverse.position?_eq_none_iff : r.position? v = none ↔ v.handle ∉ r.bindings.map Binding.handle :=
  Roles.position?_eq_none_iff.trans hr.lookup_eq_none_iff

/-- The position of a variable is the one at which it is bound. -/
theorem Inverse.position?_eq_some_iff {i : Fin r.bindings.length} :
    r.position? v = some i ↔ v == (r.bindings.get i).var := by
  rw [Roles.position?_eq_some_iff, hr]
  constructor
  · rintro ⟨b, hb, he⟩
    obtain ⟨_, rfl⟩ := List.getElem?_eq_some_iff.1 hb
    exact he
  · exact fun h => ⟨_, List.getElem?_eq_getElem i.isLt, h⟩

theorem Inverse.registers_iff : r.registers v ↔ v.handle ∈ r.bindings.map Binding.handle := by
  rw [registers, ← not_iff_not, Bool.not_eq_true, Option.isSome_eq_false_iff, Option.isNone_iff_eq_none,
    hr.position?_eq_none_iff]

theorem Inverse.roleOf?_eq_some_iff {role : Role} {i : Nat} :
    r.roleOf? v = some (role, i) ↔ ∃ b, r.bindings[i]? = some b ∧ v == b.var ∧ b.role = role := by
  rw [roleOf?, Option.map_eq_some_iff]
  constructor
  · rintro ⟨j, hj, ⟨⟩⟩
    exact ⟨_, List.getElem?_eq_getElem j.isLt, hr.position?_eq_some_iff.1 hj, rfl⟩
  · rintro ⟨b, hb, hv, rfl⟩
    obtain ⟨hi, rfl⟩ := List.getElem?_eq_some_iff.1 hb
    exact ⟨⟨i, hi⟩, hr.position?_eq_some_iff.2 hv, rfl⟩

theorem Inverse.roleOf?_eq_none_iff : r.roleOf? v = none ↔ v.handle ∉ r.bindings.map Binding.handle := by
  rw [roleOf?, Option.map_eq_none_iff, hr.position?_eq_none_iff]

/-- A list of bindings has an inverse only if no handle stands twice in it. -/
theorem Inverse.nodup : (r.bindings.map Binding.handle).Nodup := by
  rw [List.nodup_iff_getElem?_ne_getElem?]
  intro i j hij hj he
  rw [List.length_map] at hj
  rw [List.getElem?_map, List.getElem?_map, List.getElem?_eq_getElem hj, List.getElem?_eq_getElem (hij.trans hj)] at he
  have hsame := Variable.beq_iff.2 (Option.some.inj he)
  have hi := (hr r.bindings[i].var i).2 ⟨_, List.getElem?_eq_getElem (hij.trans hj), Variable.beq_iff.2 rfl⟩
  have hj := (hr r.bindings[i].var j).2 ⟨_, List.getElem?_eq_getElem hj, hsame⟩
  exact hij.ne (Option.some.inj (hi.symm.trans hj))

/-- A variable that is added is mapped to the position behind all others. -/
theorem Inverse.add {b : Binding} (hb : b.handle ∉ r.bindings.map Binding.handle) : (r.add b).Inverse := by
  intro v i
  have hbehind : (∃ c, (r.bindings ++ [b])[i]? = some c ∧ v == c.var) ↔
      r.positions.lookup v = some i ∨ (i = r.bindings.length ∧ v == b.var) := by
    simp only [getElem?_concat_eq_some_iff, hr v i, or_and_right, exists_or, and_assoc, exists_and_left,
      exists_eq_left']
  refine Iff.trans ?_ hbehind.symm
  change ((b.var, r.bindings.length) :: r.positions).lookup v = some i ↔ _
  rw [List.lookup_cons]
  by_cases hv : v == b.var
  · have hnone : r.positions.lookup v = none := by
      rwa [hr.lookup_eq_none_iff, Variable.beq_iff.1 hv]
    simp [hv, hnone, eq_comm]
  · simp [hv]

end

theorem register_eq_ok_iff {r r' : Roles} (hr : r.Inverse) {role : Role} {index : Nat} {v : Variable} :
    r.register role index v = .ok r' ↔
      v.handle ∉ r.bindings.map Binding.handle ∧ (role = .input → v.literal = none) ∧
        r' = r.add (Binding.bind role v) := by
  unfold register
  cases h : r.position? v with
  | some i =>
    have hmem : ¬v.handle ∉ r.bindings.map Binding.handle := by
      rw [← hr.position?_eq_none_iff, h]
      exact nofun
    exact iff_of_false nofun fun hall => hmem hall.1
  | none =>
    rw [hr.position?_eq_none_iff] at h
    dsimp only
    split_ifs with hl
    · simp [hl.1, Option.isSome_iff_ne_none.1 hl.2]
    · have hn : role = .input → v.literal = none := fun hr => by
        simpa [hr] using hl
      rw [Except.ok.injEq, and_iff_right h, and_iff_right hn, eq_comm]
      rfl

theorem kind_of_register {r : Roles} {role : Role} {index : Nat} {v : Variable} {e : Error}
    (h : r.register role index v = .error e) : e.kind = .argumentValue := by
  unfold register at h
  split at h
  · cases h
    rfl
  · split_ifs at h
    cases h
    rfl

theorem registerAll_eq_ok_iff {role : Role} :
    ∀ {vs : List Variable} {index : Nat} {r r' : Roles}, r.Inverse →
      (registerAll role index vs r = .ok r' ↔
        r' = (vs.map (Binding.bind role)).foldl add r ∧ r'.Inverse ∧
          (role = .input → ∀ v ∈ vs, v.literal = none)) := by
  intro vs
  induction vs with
  | nil =>
    intro index r r' hr
    rw [registerAll, Except.ok.injEq, List.map_nil, List.foldl_nil, eq_comm]
    exact (and_iff_left_of_imp fun h => ⟨h ▸ hr, fun _ => nofun⟩).symm
  | cons v vs ih =>
    intro index r r' hr
    rw [registerAll, bind_eq_ok, List.map_cons, List.foldl_cons]
    constructor
    · rintro ⟨_, h₁, h₂⟩
      obtain ⟨hv, hl, rfl⟩ := (register_eq_ok_iff hr).1 h₁
      obtain ⟨hbs, hvs, hls⟩ := (ih (hr.add (b := Binding.bind role v) hv)).1 h₂
      exact ⟨hbs, hvs, fun hr => List.forall_mem_cons.2 ⟨hl hr, hls hr⟩⟩
    · rintro ⟨rfl, hr', hl⟩
      have hv : v.handle ∉ r.bindings.map Binding.handle := by
        have hn := hr'.nodup
        have hn' : ((r.bindings ++ [Binding.bind role v]).map Binding.handle).Nodup := by
          rw [bindings_foldl_add, List.map_append] at hn
          exact hn.of_append_left
        rw [List.map_append, List.nodup_append] at hn'
        exact fun hm => hn'.2.2 _ hm _ List.mem_cons_self rfl
      exact ⟨_, (register_eq_ok_iff hr).2 ⟨hv, fun h => hl h v List.mem_cons_self, rfl⟩,
        (ih (hr.add (b := Binding.bind role v) hv)).2 ⟨rfl, hr', fun h w hw => hl h w (List.mem_cons_of_mem v hw)⟩⟩

theorem kind_of_registerAll {role : Role} :
    ∀ {vs : List Variable} {index : Nat} {r : Roles} {e : Error},
      registerAll role index vs r = .error e → e.kind = .argumentValue := by
  intro vs
  induction vs with
  | nil => intro index r e h; cases h
  | cons v vs ih =>
    intro index r e h
    rw [registerAll, bind_eq_error] at h
    rcases h with h | ⟨_, -, h⟩
    · exact kind_of_register h
    · exact ih h

variable {inputs locals outputs : List Variable}

theorem inverse_ofBindings_iff {bs : List Binding} : (ofBindings bs).Inverse ↔ (bs.map Binding.handle).Nodup := by
  refine ⟨fun h => bindings_ofBindings bs ▸ h.nodup, ?_⟩
  induction bs using List.reverseRecOn with
  | nil => exact fun _ => inverse_empty
  | append_singleton bs b ih =>
    intro h
    rw [List.map_append, List.nodup_append] at h
    rw [ofBindings_concat]
    refine (ih h.1).add ?_
    rw [bindings_ofBindings]
    exact fun hm => h.2.2 _ hm _ List.mem_cons_self rfl

theorem resolve_eq_ok_iff {r : Roles} :
    resolve inputs locals outputs = .ok r ↔
      r = ofBindings (Binding.parameters inputs locals outputs) ∧ r.Inverse ∧ ∀ v ∈ inputs, v.literal = none := by
  have hfold : ∀ bs cs, (List.foldl add (ofBindings bs) cs) = ofBindings (bs ++ cs) := fun bs cs =>
    List.foldl_append.symm
  simp only [resolve, bind_eq_ok]
  constructor
  · rintro ⟨r₁, h₁, r₂, h₂, h₃⟩
    obtain ⟨rfl, hr₁, -⟩ := (registerAll_eq_ok_iff inverse_empty).1 h₁
    obtain ⟨rfl, hr₂, hl⟩ := (registerAll_eq_ok_iff hr₁).1 h₂
    obtain ⟨rfl, hr₃, -⟩ := (registerAll_eq_ok_iff hr₂).1 h₃
    refine ⟨?_, hr₃, hl rfl⟩
    rw [Binding.parameters, ← hfold, ← hfold]
    rfl
  · rintro ⟨rfl, hr₃, hl⟩
    have hn₃ := inverse_ofBindings_iff.1 hr₃
    have hn₂ : ((outputs.map (Binding.bind .output) ++ inputs.map (Binding.bind .input)).map Binding.handle).Nodup := by
      rw [Binding.parameters, List.map_append] at hn₃
      exact hn₃.of_append_left
    have hn₁ : ((outputs.map (Binding.bind .output)).map Binding.handle).Nodup := by
      rw [List.map_append] at hn₂
      exact hn₂.of_append_left
    have hr₁ := inverse_ofBindings_iff.2 hn₁
    have hr₂ := inverse_ofBindings_iff.2 hn₂
    refine ⟨_, (registerAll_eq_ok_iff inverse_empty).2 ⟨rfl, hr₁, nofun⟩, _,
      (registerAll_eq_ok_iff hr₁).2 ⟨(hfold _ _).symm, hr₂, fun _ => hl⟩, ?_⟩
    exact (registerAll_eq_ok_iff hr₂).2 ⟨(hfold _ _).symm, hr₃, nofun⟩

theorem of_resolve {r : Roles} (h : resolve inputs locals outputs = .ok r) :
    r.bindings = Binding.parameters inputs locals outputs ∧ r.Inverse ∧ ∀ v ∈ inputs, v.literal = none := by
  obtain ⟨rfl, hr, hl⟩ := resolve_eq_ok_iff.1 h
  exact ⟨bindings_ofBindings _, hr, hl⟩

theorem kind_of_resolve {e : Error} (h : resolve inputs locals outputs = .error e) : e.kind = .argumentValue := by
  simp only [resolve, bind_eq_error] at h
  rcases h with h | ⟨_, -, h | ⟨_, -, h⟩⟩
  · exact kind_of_registerAll h
  · exact kind_of_registerAll h
  · exact kind_of_registerAll h

end Roles

namespace Binding

theorem native_eq_ok_iff {b : Binding} {t : NativeType} :
    b.native = .ok t ↔
      ∃ inner, b.var.type.native? = some inner ∧ t = if b.role = .output then .pointer inner else inner := by
  unfold native
  cases b.var.type.native? with
  | none => simp
  | some inner => simp [eq_comm]

theorem exists_native_iff {b : Binding} : (∃ t, b.native = .ok t) ↔ b.var.type.isResolved := by
  simp only [native_eq_ok_iff, ← DataType.exists_native?_iff]
  refine ⟨?_, ?_⟩
  · intro hx
    obtain ⟨_, inner, h, -⟩ := hx
    exact ⟨inner, h⟩
  · intro hx
    obtain ⟨inner, h⟩ := hx
    exact ⟨_, inner, h, rfl⟩

theorem kind_of_native {b : Binding} {e : Error} (h : b.native = .error e) : e.kind = .argumentValue := by
  unfold native at h
  split at h
  · cases h
  · cases h
    rfl

end Binding

end InlineAsm
