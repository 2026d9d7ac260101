import InlineAsm.Proofs.Function.Compile
import InlineAsm.Proofs.Storage.Initial

/-! The slots of a call. As long as there is room for the parameters, marshalling goes wrong only at an argument that
its variable does not take, and names the first of these; the slots that it makes hold the arguments of the inputs and
the initial bytes of all others. -/

namespace InlineAsm

theorem exists_getElem?_of_forall₂ {α β : Type} {R : α → β → Prop} {xs : List α} {ys : List β}
    (h : List.Forall₂ R xs ys) : ∀ {i : Nat} {x : α}, xs[i]? = some x → ∃ y, ys[i]? = some y ∧ R x y := by
  induction h with
  | nil => intro i x hx; cases hx
  | cons hab _ ih =>
    intro i x hx
    cases i with
    | zero =>
      cases hx
      exact ⟨_, rfl, hab⟩
    | succ i => exact ih hx

/-- The memory for a parameter can be asked for: that of its slot, and that of its default value if it starts with
that. -/
structure Binding.HasRoom (b : Binding) (t : NativeType) : Prop where
  counted : t.element.size * t.axes.prod < NativeType.wordLimit
  slot : t.allocated ≤ NativeType.allocationLimit
  lists : b.role ≠ .input → b.var.literal = none → ∀ n ∈ t.axes, DataType.Listable n

namespace Function

/-- The variables that take the arguments, in order. -/
def takers (bs : List Binding) : List Variable := (bs.filter fun b => b.role = .input).map Binding.var

def Accepted (p : Variable × Value) : Prop := ∃ r, p.1.type.check p.2 = .ok r

/-- The bytes of the slots at the start of a call. -/
def contents : List Binding → List Value → List (List UInt8)
  | [], _ => []
  | ⟨v, .input⟩ :: bs, a :: args => Slot.image v.type.element a :: contents bs args
  | b :: bs, args => b.var.initialBytes :: contents bs args

/-- A parameter whose slot can be filled. -/
structure Ready (p : Binding × NativeType) : Prop where
  solid : p.2.Solid
  shape : Slot.shape p.2 = .ok p.1.var.type
  typed : p.1.var.Typed
  room : p.1.HasRoom p.2

theorem marshal_cons_other {b : Binding} (hb : b.role ≠ .input) (t : NativeType) (ps : List (Binding × NativeType))
    (index : Nat) (args : List Value) :
    marshal index ((b, t) :: ps) args = do
      let slot ← Slot.ofValue t (← b.var.initialValue)
      return slot :: (← marshal index ps args) := by
  obtain ⟨v, role⟩ := b
  cases role with
  | input => exact absurd rfl hb
  | output => rfl
  | scratch => rfl

theorem contents_cons_other {b : Binding} (hb : b.role ≠ .input) (bs : List Binding) (args : List Value) :
    contents (b :: bs) args = b.var.initialBytes :: contents bs args := by
  obtain ⟨v, role⟩ := b
  cases role with
  | input => exact absurd rfl hb
  | output => rfl
  | scratch => rfl

theorem takers_cons_other {b : Binding} (hb : b.role ≠ .input) (bs : List Binding) : takers (b :: bs) = takers bs := by
  rw [takers, List.filter_cons_of_neg (by simpa using hb)]
  rfl

theorem marshal_of_accepted :
    ∀ {ps : List (Binding × NativeType)} (index : Nat) {args : List Value}, (∀ p ∈ ps, Ready p) →
      args.length = (takers (ps.map Prod.fst)).length → (∀ q ∈ (takers (ps.map Prod.fst)).zip args, Accepted q) →
      ∃ slots, marshal index ps args = .ok slots ∧ slots.map Slot.type = ps.map Prod.snd ∧
        slots.map Slot.bytes = contents (ps.map Prod.fst) args := by
  intro ps
  induction ps with
  | nil => intro index args _ _ _; exact ⟨[], rfl, rfl, rfl⟩
  | cons p ps ih =>
    intro index args hready hlen hacc
    obtain ⟨⟨hsolid, hshape, htyped, hroom⟩, hrest⟩ := List.forall_mem_cons.1 hready
    obtain ⟨⟨v, role⟩, t⟩ := p
    by_cases hrole : role = .input
    · subst hrole
      cases args with
      | nil => cases hlen
      | cons a args =>
        obtain ⟨⟨r, hr⟩, hacc⟩ := List.forall_mem_cons.1 hacc
        obtain ⟨slot, hslot, htype, hbytes⟩ := Slot.exists_ofValue hsolid hroom.slot hshape hr
        obtain ⟨slots, hslots, htypes, hall⟩ := ih (index + 1) hrest (Nat.succ.inj hlen) hacc
        refine ⟨slot :: slots, ?_, congrArg₂ List.cons htype htypes, congrArg₂ List.cons hbytes hall⟩
        rw [marshal, hslot, hslots]
        rfl
    · have ht := takers_cons_other (b := ⟨v, role⟩) hrole (ps.map Prod.fst)
      rw [List.map_cons, ht] at hlen hacc
      obtain ⟨x, slot, hx, hslot, htype, hbytes⟩ :=
        Slot.exists_initial hsolid hroom.slot hshape htyped rfl (hroom.lists hrole)
      obtain ⟨slots, hslots, htypes, hall⟩ := ih index hrest hlen hacc
      refine ⟨slot :: slots, ?_, congrArg₂ List.cons htype htypes, ?_⟩
      · rw [marshal_cons_other hrole, hx]
        change (Slot.ofValue t x >>= _) = _
        rw [hslot, hslots]
        rfl
      · rw [List.map_cons, List.map_cons, contents_cons_other hrole, hbytes, hall]

theorem marshal_of_rejected :
    ∀ {ps : List (Binding × NativeType)} (index : Nat) {args : List Value} {i : Nat} {v : Variable} {a : Value}
      {m : Mismatch}, (∀ p ∈ ps, Ready p) → ((takers (ps.map Prod.fst)).zip args)[i]? = some (v, a) →
      v.type.check a = .error m → (∀ q ∈ ((takers (ps.map Prod.fst)).zip args).take i, Accepted q) →
      marshal index ps args = .error (.argument (index + i) m) := by
  intro ps
  induction ps with
  | nil => intro index args i v a m _ hi; cases hi
  | cons p ps ih =>
    intro index args i v a m hready hi hm hacc
    obtain ⟨⟨hsolid, hshape, htyped, hroom⟩, hrest⟩ := List.forall_mem_cons.1 hready
    obtain ⟨⟨w, role⟩, t⟩ := p
    by_cases hrole : role = .input
    · subst hrole
      cases args with
      | nil =>
        rw [List.zip_nil_right] at hi
        cases hi
      | cons b args =>
        rw [marshal]
        cases i with
        | zero =>
          cases hi
          rw [Slot.ofValue_of_check_eq_error hroom.slot hshape hm]
          rfl
        | succ i =>
          obtain ⟨⟨r, hr⟩, hacc⟩ := List.forall_mem_cons.1 hacc
          obtain ⟨slot, hslot, -⟩ := Slot.exists_ofValue hsolid hroom.slot hshape hr
          rw [hslot, ih (index + 1) hrest hi hm hacc, Nat.add_right_comm]
          rfl
    · have ht := takers_cons_other (b := ⟨w, role⟩) hrole (ps.map Prod.fst)
      rw [List.map_cons, ht] at hi hacc
      obtain ⟨x, slot, hx, hslot, -⟩ := Slot.exists_initial hsolid hroom.slot hshape htyped rfl (hroom.lists hrole)
      rw [marshal_cons_other hrole, hx]
      change (Slot.ofValue t x >>= _) = _
      rw [hslot, ih index hrest hi hm hacc]
      rfl

theorem kind_argumentError (index : Nat) (e : Error) : (argumentError index e).kind = e.kind := by
  cases e <;> rfl

/-- With an argument for each input marshalling does not run out of arguments. -/
theorem kind_of_marshal : ∀ {ps : List (Binding × NativeType)} {index : Nat} {args : List Value} {e : Error},
    args.length = (takers (ps.map Prod.fst)).length → marshal index ps args = .error e → e.kind ≠ .argumentsNumber := by
  intro ps
  induction ps with
  | nil => intro index args e _ h; cases h
  | cons p ps ih =>
    intro index args e hlen h
    obtain ⟨⟨v, role⟩, t⟩ := p
    by_cases hrole : role = .input
    · subst hrole
      cases args with
      | nil => cases hlen
      | cons a args =>
        rcases bind_eq_error.1 h with h | ⟨s, -, h⟩
        · obtain ⟨e', he, rfl⟩ := mapError_eq_error.1 h
          rw [kind_argumentError]
          exact Slot.kind_of_ofValue he
        · rcases bind_eq_error.1 h with h | ⟨rest, -, h⟩
          · exact ih (Nat.succ.inj hlen) h
          · cases h
    · rw [List.map_cons, takers_cons_other hrole] at hlen
      rw [marshal_cons_other hrole] at h
      rcases bind_eq_error.1 h with h | ⟨x, -, h⟩
      · exact Variable.kind_of_initialValue h
      · rcases bind_eq_error.1 h with h | ⟨s, -, h⟩
        · exact Slot.kind_of_ofValue h
        · rcases bind_eq_error.1 h with h | ⟨rest, -, h⟩
          · exact ih hlen h
          · cases h

/-- The slot of a parameter, made for an argument or else for the initial value of the variable. -/
def Filled (b : Binding) (t : NativeType) (s : Slot) : Prop :=
  ∃ x, Slot.ofValue t x = .ok s ∧ (b.role ≠ .input → b.var.initialValue = .ok x)

theorem forall₂_of_marshal : ∀ {ps : List (Binding × NativeType)} {index : Nat} {args : List Value} {slots : List Slot},
    marshal index ps args = .ok slots → List.Forall₂ (fun p s => Filled p.1 p.2 s) ps slots := by
  intro ps
  induction ps with
  | nil =>
    intro index args slots h
    cases h
    exact .nil
  | cons p ps ih =>
    intro index args slots h
    obtain ⟨⟨v, role⟩, t⟩ := p
    by_cases hrole : role = .input
    · subst hrole
      cases args with
      | nil => cases h
      | cons a args =>
        obtain ⟨s, hs, h⟩ := bind_eq_ok.1 h
        obtain ⟨rest, hrest, h⟩ := bind_eq_ok.1 h
        cases h
        exact .cons ⟨a, mapError_eq_ok.1 hs, fun h => absurd rfl h⟩ (ih hrest)
    · rw [marshal_cons_other hrole] at h
      obtain ⟨x, hx, h⟩ := bind_eq_ok.1 h
      obtain ⟨s, hs, h⟩ := bind_eq_ok.1 h
      obtain ⟨rest, hrest, h⟩ := bind_eq_ok.1 h
      cases h
      exact .cons ⟨x, hs, fun _ => hx⟩ (ih hrest)

theorem forall₂_of_prepare {k : Compiled} {args : List Value} {slots : List Slot} (h : prepare k args = .ok slots) :
    List.Forall₂ (fun p s => Filled p.1 p.2 s) (k.bindings.zip k.signature) slots := by
  simp only [prepare] at h
  split_ifs at h
  · cases h
  · exact forall₂_of_marshal h

/-- The type of a parameter has the axes of the declared type, behind a pointer if the parameter is an output. -/
theorem exists_axes_of_native {b : Binding} {t : NativeType} (h : b.native = .ok t) :
    ∃ dims : List Size, b.var.type = .ofSizes t.element dims ∧ t.axes = dims.map Subtype.val ∧
      Slot.shape t = .ok b.var.type ∧
      t = if b.role = .output then .pointer (.ofAxes t.element t.axes) else .ofAxes t.element t.axes := by
  obtain ⟨inner, hinner, rfl⟩ := Binding.native_eq_ok_iff.1 h
  obtain ⟨dims, hd, rfl⟩ := DataType.native?_eq_some_iff.1 hinner
  have hshape := Slot.shape_ofAxes b.var.type.element dims
  have helement := NativeType.element_ofAxes b.var.type.element (dims.map Subtype.val)
  have haxes := NativeType.axes_ofAxes b.var.type.element (dims.map Subtype.val)
  rw [← hd] at hshape
  refine ⟨dims, ?_⟩
  split_ifs with hrole
  · rw [NativeType.element, NativeType.axes, helement, haxes]
    exact ⟨hd, rfl, hshape, rfl⟩
  · rw [helement, haxes]
    exact ⟨hd, rfl, hshape, rfl⟩

/-- A slot that could be made has had its room, and is as large as the declared type says. -/
theorem of_filled {b : Binding} {t : NativeType} {s : Slot} (hb : b.native = .ok t) (h : Filled b t s) :
    b.HasRoom t ∧ s.type = t ∧ s.bytes.length = b.var.type.element.size * t.axes.prod := by
  obtain ⟨x, hx, hinitial⟩ := h
  obtain ⟨dims, hd, haxes, hshape, -⟩ := exists_axes_of_native hb
  obtain ⟨htype, hlength⟩ := Slot.length_of_ofValue haxes.symm (hd ▸ hshape) hx
  have hsize : s.bytes.length < NativeType.wordLimit := by
    rw [s.size_eq]
    exact Nat.mod_lt _ (by decide)
  refine ⟨⟨hlength ▸ hsize, (Slot.ofValue_eq_ok_iff.1 hx).1, fun hrole hnone n hn => ?_⟩, htype, ?_⟩
  · have hdefault : (DataType.ofSizes t.element dims).defaultValue = .ok x := by
      have hstart := hinitial hrole
      rw [Variable.initialValue, hnone] at hstart
      exact hd ▸ hstart
    rw [haxes] at hn
    obtain ⟨m, hm, rfl⟩ := List.mem_map.1 hn
    exact (DataType.defaultValue_ofSizes hdefault).1 m hm
  · rw [hlength, hd, DataType.element_ofSizes]

theorem contents_append_others (role : Role) (hr : role ≠ .input) (vs : List Variable) (rest : List Binding)
    (args : List Value) :
    contents (vs.map (Binding.bind role) ++ rest) args = vs.map Variable.initialBytes ++ contents rest args := by
  induction vs with
  | nil => rfl
  | cons v vs ih =>
    rw [List.map_cons, List.cons_append, contents_cons_other (b := Binding.bind role v) hr, ih]
    rfl

theorem contents_append_inputs (rest : List Binding) :
    ∀ {vs : List Variable} {args : List Value}, args.length = vs.length →
      contents (vs.map (Binding.bind .input) ++ rest) args =
        vs.zipWith (fun v a => Slot.image v.type.element a) args ++ contents rest [] := by
  intro vs
  induction vs with
  | nil =>
    intro args h
    rw [List.length_eq_zero_iff.1 h]
    rfl
  | cons v vs ih =>
    intro args h
    cases args with
    | nil => cases h
    | cons a args => exact congrArg (_ :: ·) (ih (Nat.succ.inj h))

section Parameters

variable (inputs locals outputs : List Variable)

theorem takers_parameters : takers (Binding.parameters inputs locals outputs) = inputs := by
  have ho : (outputs.map (Binding.bind .output)).filter (fun b => b.role = .input) = [] := by
    simp [Binding.bind]
  have hi : (inputs.map (Binding.bind .input)).filter (fun b => b.role = .input) =
      inputs.map (Binding.bind .input) := by
    simp [Binding.bind]
  have hl : (locals.map (Binding.bind .scratch)).filter (fun b => b.role = .input) = [] := by
    simp [Binding.bind]
  rw [takers, Binding.parameters, List.filter_append, List.filter_append, ho, hi, hl, List.nil_append, List.append_nil,
    Binding.map_var_bind]

theorem length_filter_parameters :
    ((Binding.parameters inputs locals outputs).filter fun b => b.role = .input).length = inputs.length := by
  rw [← congrArg List.length (takers_parameters inputs locals outputs), takers, List.length_map]

theorem contents_parameters {args : List Value} (h : args.length = inputs.length) :
    contents (Binding.parameters inputs locals outputs) args =
      outputs.map Variable.initialBytes ++ inputs.zipWith (fun v a => Slot.image v.type.element a) args ++
        locals.map Variable.initialBytes := by
  have hlocals := contents_append_others .scratch (by decide) locals [] []
  rw [List.append_nil, contents, List.append_nil] at hlocals
  rw [Binding.parameters, List.append_assoc, contents_append_others .output (by decide), contents_append_inputs _ h,
    hlocals, List.append_assoc]

end Parameters

/-- After a run that keeps their lengths the slots hold what the run left. -/
theorem map_receive :
    ∀ {slots : List Slot} {bytes : List (List UInt8)},
      bytes.map List.length = slots.map (fun s => s.bytes.length) →
      (receive slots bytes).map Slot.type = slots.map Slot.type ∧ (receive slots bytes).map Slot.bytes = bytes := by
  intro slots
  induction slots with
  | nil =>
    intro bytes h
    rw [List.map_nil, List.map_eq_nil_iff] at h
    exact h ▸ ⟨rfl, rfl⟩
  | cons s slots ih =>
    intro bytes h
    cases bytes with
    | nil => cases h
    | cons b bytes =>
      obtain ⟨hb, hbs⟩ := List.cons.inj h
      obtain ⟨htypes, hbytes⟩ := ih hbs
      exact ⟨congrArg (s.type :: ·) htypes, congrArg₂ List.cons (Slot.overwrite_bytes hb) hbytes⟩

theorem filter_zip_outputs {rest : List Binding} (hr : ∀ b ∈ rest, ¬isOutput b) :
    ∀ {vs : List Variable} {slots : List Slot}, vs.length ≤ slots.length →
      (((vs.map (Binding.bind .output) ++ rest).zip slots).filter fun p => isOutput p.1).map Prod.snd =
        slots.take vs.length := by
  intro vs
  induction vs with
  | nil =>
    intro slots _
    have hnil : (rest.zip slots).filter (fun p => isOutput p.1) = [] :=
      List.filter_eq_nil_iff.2 fun p hp => hr p.1 (List.of_mem_zip hp).1
    rw [List.map_nil, List.nil_append, hnil]
    rfl
  | cons v vs ih =>
    intro slots h
    cases slots with
    | nil => cases h
    | cons s slots => exact congrArg (s :: ·) (ih (Nat.le_of_succ_le_succ h))

/-- The outputs are read from the slots in front. -/
theorem outputs_parameters (inputs locals : List Variable) {outs : List Variable} {slots : List Slot}
    (h : outs.length ≤ slots.length) :
    outputs (Binding.parameters inputs locals outs) slots = (slots.take outs.length).mapM Slot.load := by
  have hrest : ∀ b ∈ inputs.map (Binding.bind .input) ++ locals.map (Binding.bind .scratch), ¬isOutput b := by
    intro b hb
    rcases List.mem_append.1 hb with hb | hb
    · obtain ⟨v, -, rfl⟩ := List.mem_map.1 hb
      exact nofun
    · obtain ⟨v, -, rfl⟩ := List.mem_map.1 hb
      exact nofun
  rw [← filter_zip_outputs hrest h, List.mapM_map, ← List.append_assoc]
  rfl

end Function

end InlineAsm
