import InlineAsm.Proofs.Function.Marshal

/-! Calls of a compiled function. With room for all parameters a call fails only at the number of the arguments or at
the first that is refused, and the compiled code does not run then; in all other cases it runs once, on the slots as
marshalled, and the outputs are read from what it leaves. Without that room no call succeeds. -/

namespace InlineAsm

/-- Runs compiled code and keeps a record of the memory that it was given. -/
def Entry.recorded (entry : Entry) (bytes : List (List UInt8)) :
    StateM (List (List (List UInt8))) (List (List UInt8)) :=
  modifyGet fun log => (entry bytes, log ++ [bytes])

namespace Function

/-- The first pair that is refused, and why. -/
def FirstRejected (pairs : List (Variable × Value)) (i : Nat) (m : Mismatch) : Prop :=
  ∃ v a, pairs[i]? = some (v, a) ∧ v.type.check a = .error m ∧ ∀ q ∈ pairs.take i, Accepted q

theorem exists_firstRejected {pairs : List (Variable × Value)} (h : ∃ q ∈ pairs, ¬Accepted q) :
    ∃ i m, FirstRejected pairs i m := by
  induction pairs with
  | nil =>
    obtain ⟨_, hq, -⟩ := h
    cases hq
  | cons p pairs ih =>
    cases hp : p.1.type.check p.2 with
    | error m => exact ⟨0, m, p.1, p.2, rfl, hp, nofun⟩
    | ok r =>
      have hrest : ∃ q ∈ pairs, ¬Accepted q := by
        obtain ⟨q, hq, hn⟩ := h
        rcases List.mem_cons.1 hq with rfl | hq
        · exact absurd ⟨r, hp⟩ hn
        · exact ⟨q, hq, hn⟩
      obtain ⟨i, m, v, a, hi, hm, hacc⟩ := ih hrest
      exact ⟨i + 1, m, v, a, hi, hm, List.forall_mem_cons.2 ⟨⟨r, hp⟩, hacc⟩⟩

/-- A parameter is ready as soon as there is room for it. -/
theorem ready_of_native {b : Binding} {t : NativeType} (h : b.native = .ok t) (hroom : b.HasRoom t)
    (hb : b.var.Typed) : Ready (b, t) := by
  have hfit := hroom.counted
  obtain ⟨inner, hinner, rfl⟩ := Binding.native_eq_ok_iff.1 h
  obtain ⟨dims, hd, rfl⟩ := DataType.native?_eq_some_iff.1 hinner
  have hshape := Slot.shape_ofAxes b.var.type.element dims
  rw [← hd] at hshape
  generalize b.var.type.element = e at hroom hfit hshape ⊢
  have hcount : (NativeType.ofAxes e (dims.map Subtype.val)).element.size *
      (NativeType.ofAxes e (dims.map Subtype.val)).axes.prod < NativeType.wordLimit := by
    split_ifs at hfit <;> exact hfit
  rw [NativeType.element_ofAxes, NativeType.axes_ofAxes] at hcount
  have hsolid := NativeType.solid_ofAxes hcount
  refine ⟨?_, ?_, hb, hroom⟩
  · split_ifs <;> exact hsolid
  · split_ifs <;> exact hshape

variable {f : Function} {k : Compiled} {args : List Value}

theorem run_recorded_of_error (hk : f.compiled = some k) {e : Error} (h : prepare k args = .error e)
    (log : List (List (List UInt8))) : (f.invokeWith Entry.recorded args).run log = (.error e, log) := by
  unfold invokeWith
  rw [hk]
  simp only [h]
  rfl

theorem run_recorded_of_ok (hk : f.compiled = some k) {before : List Slot} (h : prepare k args = .ok before)
    (log : List (List (List UInt8))) :
    (f.invokeWith Entry.recorded args).run log =
      let after := receive before (k.entry (before.map Slot.bytes))
      ((outputs k.bindings after).map fun results => { before, after, result := gather results },
        log ++ [before.map Slot.bytes]) := by
  unfold invokeWith
  rw [hk]
  simp only [h]
  rfl

/-- The record does not change what a call returns. -/
theorem call_eq_recorded (hk : f.compiled = some k) (args : List Value) (log : List (List (List UInt8))) :
    f.call args = ((f.invokeWith Entry.recorded args).run log).1.map Invocation.result := by
  cases h : prepare k args with
  | error e =>
    rw [run_recorded_of_error hk h, call, invoke, invokeWith, hk]
    simp only [h]
    rfl
  | ok before =>
    rw [run_recorded_of_ok hk h, call, invoke, invokeWith, hk]
    simp only [h]
    rfl

/-- The result of a call, by the number of its outputs. -/
theorem gather_cases (results : List Value) :
    (results.length = 0 → gather results = .unit) ∧ (results.length = 1 → results = [gather results]) ∧
      (1 < results.length → gather results = .tuple results) := by
  match results with
  | [] => exact ⟨fun _ => rfl, nofun, nofun⟩
  | [v] => exact ⟨nofun, fun _ => rfl, fun h => absurd h (lt_irrefl 1)⟩
  | v :: w :: rest => exact ⟨nofun, nofun, fun _ => rfl⟩

section Prepare

variable {inputs locals outs : List Variable} (hb : k.bindings = Binding.parameters inputs locals outs)
  (hs : k.bindings.mapM Binding.native = .ok k.signature)
include hb hs

/-- Without room for all parameters no call gets its slots, but it does not miss an argument either. -/
theorem prepare_without_room (hargs : args.length = inputs.length)
    (h : ¬∀ p ∈ k.bindings.zip k.signature, p.1.HasRoom p.2) :
    ∃ e, prepare k args = .error e ∧ e.kind ≠ .argumentsNumber := by
  have hlen := (mapM_eq_ok.1 hs).length_eq
  have htakers : args.length = (takers ((k.bindings.zip k.signature).map Prod.fst)).length := by
    rw [List.map_fst_zip hlen.le, hb, takers_parameters, hargs]
  cases hp : prepare k args with
  | error e =>
    refine ⟨e, rfl, ?_⟩
    rw [prepare, hb, length_filter_parameters, ← hb] at hp
    simp only [if_neg (not_not_intro hargs)] at hp
    exact kind_of_marshal htakers hp
  | ok slots =>
    refine absurd (fun p hm => ?_) h
    obtain ⟨i, hi⟩ := List.getElem?_of_mem hm
    obtain ⟨s, -, hfilled⟩ := exists_getElem?_of_forall₂ (forall₂_of_prepare hp) hi
    exact (of_filled ((List.forall₂_iff_zip.1 (mapM_eq_ok.1 hs)).2 hm) hfilled).1

variable (hready : (∀ p ∈ k.bindings.zip k.signature, p.1.HasRoom p.2) → ∀ p ∈ k.bindings.zip k.signature, Ready p)
include hready

/-- What a call starts with. -/
theorem prepare_cases (args : List Value) :
    (args.length ≠ inputs.length ∧ prepare k args = .error (.argumentCount inputs.length args.length)) ∨
    (args.length = inputs.length ∧ (¬∀ p ∈ k.bindings.zip k.signature, p.1.HasRoom p.2) ∧
      ∃ e, prepare k args = .error e ∧ e.kind ≠ .argumentsNumber) ∨
    (args.length = inputs.length ∧ (∀ p ∈ k.bindings.zip k.signature, p.1.HasRoom p.2) ∧
      ∃ i m, FirstRejected (inputs.zip args) i m ∧ prepare k args = .error (.argument i m)) ∨
    (args.length = inputs.length ∧ (∀ p ∈ k.bindings.zip k.signature, p.1.HasRoom p.2) ∧
      (∀ q ∈ inputs.zip args, Accepted q) ∧
      ∃ before, prepare k args = .ok before ∧ before.map Slot.type = k.signature ∧
        before.map Slot.bytes = outs.map Variable.initialBytes ++
          inputs.zipWith (fun v a => Slot.image v.type.element a) args ++ locals.map Variable.initialBytes) := by
  have hlen := (mapM_eq_ok.1 hs).length_eq
  have hfst : (k.bindings.zip k.signature).map Prod.fst = k.bindings := List.map_fst_zip hlen.le
  have hsnd : (k.bindings.zip k.signature).map Prod.snd = k.signature := List.map_snd_zip hlen.ge
  have htakers : takers ((k.bindings.zip k.signature).map Prod.fst) = inputs := by
    rw [hfst, hb, takers_parameters]
  have hprepare : prepare k args =
      if args.length ≠ inputs.length then .error (.argumentCount inputs.length args.length)
      else marshal 0 (k.bindings.zip k.signature) args := by
    rw [prepare, hb, length_filter_parameters, ← hb]
    split_ifs <;> rfl
  by_cases hargs : args.length = inputs.length
  · right
    by_cases hroom : ∀ p ∈ k.bindings.zip k.signature, p.1.HasRoom p.2
    · right
      have hready := hready hroom
      rw [hprepare, if_neg (not_not_intro hargs)]
      by_cases hacc : ∀ q ∈ inputs.zip args, Accepted q
      · right
        obtain ⟨before, hm, htypes, hbytes⟩ := marshal_of_accepted 0 hready (by rw [htakers, hargs]) (by rwa [htakers])
        refine ⟨hargs, hroom, hacc, before, hm, htypes.trans hsnd, ?_⟩
        rw [hbytes, hfst, hb, contents_parameters inputs locals outs hargs]
      · left
        obtain ⟨i, m, v, a, hi, hm, hbefore⟩ := exists_firstRejected (by simpa using hacc)
        have hmarshal := marshal_of_rejected 0 hready (htakers.symm ▸ hi) hm (htakers.symm ▸ hbefore)
        rw [Nat.zero_add] at hmarshal
        exact ⟨hargs, hroom, i, m, ⟨v, a, hi, hm, hbefore⟩, hmarshal⟩
    · exact .inl ⟨hargs, hroom, prepare_without_room hb hs hargs hroom⟩
  · left
    rw [hprepare, if_pos hargs]
    exact ⟨hargs, rfl⟩

end Prepare

section Run

variable {inputs locals outs : List Variable} (hb : k.bindings = Binding.parameters inputs locals outs)
  (hs : k.bindings.mapM Binding.native = .ok k.signature) (hready : ∀ p ∈ k.bindings.zip k.signature, Ready p)
include hb hs hready

/-- All outputs can be read from slots of the types of the parameters. -/
theorem exists_outputs {slots : List Slot} (htypes : slots.map Slot.type = k.signature) :
    ∃ results, outputs k.bindings slots = .ok results ∧ results.length = outs.length ∧
      List.Forall₂ (fun s v => s.load = .ok v) (slots.take outs.length) results := by
  have hlen := (mapM_eq_ok.1 hs).length_eq
  have hsolid : ∀ s ∈ slots, s.type.Solid := by
    intro s hm
    have ht : s.type ∈ k.signature := htypes ▸ List.mem_map_of_mem hm
    rw [← List.map_snd_zip hlen.ge] at ht
    obtain ⟨p, hp, he⟩ := List.mem_map.1 ht
    exact he ▸ (hready p hp).solid
  have hslots : slots.length = k.bindings.length := by
    rw [← List.length_map (f := Slot.type), htypes, hlen]
  have houts : outs.length ≤ slots.length := by
    rw [hslots, hb, Binding.parameters]
    simp only [List.length_append, List.length_map]
    omega
  obtain ⟨results, hresults⟩ := exists_mapM_eq_ok_iff.2 fun s (hm : s ∈ slots.take outs.length) =>
    Slot.exists_load (hsolid s (List.mem_of_mem_take hm))
  have hall := mapM_eq_ok.1 hresults
  refine ⟨results, ?_, ?_, hall⟩
  · rw [hb, outputs_parameters inputs locals houts, hresults]
  · rw [← hall.length_eq, List.length_take, Nat.min_eq_left houts]

/-- A call that could be prepared runs the code once and succeeds. -/
theorem exists_invocation (hk : f.compiled = some k)
    (hentry : ∀ bytes, (k.entry bytes).map List.length = bytes.map List.length) {before : List Slot}
    (hprep : prepare k args = .ok before) (htypes : before.map Slot.type = k.signature)
    (log : List (List (List UInt8))) :
    ∃ inv results, (f.invokeWith Entry.recorded args).run log = (.ok inv, log ++ [before.map Slot.bytes]) ∧
      inv.before = before ∧ inv.after.map Slot.type = k.signature ∧
      inv.after.map Slot.bytes = k.entry (before.map Slot.bytes) ∧
      List.Forall₂ (fun s v => s.load = .ok v) (inv.after.take outs.length) results ∧
      results.length = outs.length ∧ (outs.length = 0 → inv.result = .unit) ∧
      (outs.length = 1 → results = [inv.result]) ∧ (1 < outs.length → inv.result = .tuple results) := by
  have hlengths : (k.entry (before.map Slot.bytes)).map List.length = before.map fun s => s.bytes.length := by
    rw [hentry, List.map_map]
    rfl
  obtain ⟨haftertypes, hafter⟩ := map_receive hlengths
  rw [htypes] at haftertypes
  obtain ⟨results, houts, hcount, hloads⟩ := exists_outputs hb hs hready haftertypes
  have hgather := gather_cases results
  rw [hcount] at hgather
  refine ⟨⟨before, _, gather results⟩, results, ?_, rfl, haftertypes, hafter, hloads, hcount, hgather⟩
  rw [run_recorded_of_ok hk hprep]
  simp only [houts]
  rfl

end Run

variable {c : Catalog} {f' : Function} {inputs locals outs : List Variable} {σ : Type} {bridge : Bridge (StateM σ)}
  {s s' : σ}

theorem ready_of_compile (hc : c.Constructed) (hl : outs ++ inputs ++ locals ⊆ c.vars)
    (hb : k.bindings = Binding.parameters inputs locals outs)
    (hs : k.bindings.mapM Binding.native = .ok k.signature)
    (hroom : ∀ p ∈ k.bindings.zip k.signature, p.1.HasRoom p.2) :
    ∀ p ∈ k.bindings.zip k.signature, Ready p := by
  intro p hp
  obtain ⟨b, t⟩ := p
  obtain ⟨hbm, htm⟩ := List.of_mem_zip hp
  have hvar : b.var ∈ outs ++ inputs ++ locals := by
    rw [← Binding.map_var_parameters, ← hb]
    exact List.mem_map_of_mem hbm
  have hnative : b.native = .ok t := (List.forall₂_iff_zip.1 (mapM_eq_ok.1 hs)).2 hp
  exact ready_of_native hnative (hroom _ hp) (hc.sound.typed _ (hl hvar))

theorem hasRoom_jump : ∀ p ∈ [(Binding.mk total .output, NativeType.pointer (.scalar .int)),
    (Binding.mk addend .input, .scalar .int)], p.1.HasRoom p.2 := by
  intro p hp
  rcases List.mem_pair.1 hp with rfl | rfl <;> exact ⟨by decide, by decide, nofun⟩

/-- An output with more elements than a list of values may have. Its bytes can be asked for. -/
def manyTotals : Variable := ⟨2, .array (.scalar .int) (some ⟨576460752303423488, by decide⟩), none, []⟩

def idle : Function := { body := [] }

def compiledIdle : Function := ((idle.compile idleBridge [addend] [] [manyTotals]).run []).1.1

end Function

end InlineAsm
