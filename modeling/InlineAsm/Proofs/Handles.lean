import InlineAsm.Handles
import InlineAsm.Proofs.Instruction.Reach

/-! Everything that is ever constructed, as a run of constructions. A variable or a label refers only to what was there
before it, so the handles count the constructions and no two variables, and no two labels, have one in common. -/

namespace InlineAsm

/-- The type belongs to the literal, as the construction settled it. -/
def Variable.Typed (v : Variable) : Prop := ∃ declared, Handles.typing declared v.literal = .ok (v.type, v.warnings)

inductive Construction where
  | ofType (type : DataType) (literal : Option Value)
  | ofName (typeName : String) (literal : Option Value)
  | label (body : List Instruction)

/-- The variables and labels constructed so far, in order. -/
structure Catalog where
  handles : Handles := {}
  vars : List Variable := []
  labels : List Label := []

namespace Catalog

def keepVariable (c : Catalog) : Handles × Except Error Variable → Catalog
  | (h, .ok v) => { c with handles := h, vars := c.vars ++ [v] }
  | (h, .error _) => { c with handles := h }

def keepLabel (c : Catalog) : Handles × Except Error Label → Catalog
  | (h, .ok l) => { c with handles := h, labels := c.labels ++ [l] }
  | (h, .error _) => { c with handles := h }

def make (c : Catalog) : Construction → Catalog
  | .ofType type literal => c.keepVariable (c.handles.variableOfType type literal)
  | .ofName typeName literal => c.keepVariable (c.handles.declare typeName literal)
  | .label body => c.keepLabel (c.handles.label body)

/-- The operands of the body are in the catalog. -/
def Knows (c : Catalog) (body : List Instruction) : Prop :=
  ∀ i ∈ body, (∀ v ∈ i.vars, v ∈ c.vars) ∧ ∀ l ∈ i.labels, l ∈ c.labels

def Allows (c : Catalog) : Construction → Prop
  | .label body => c.Knows body
  | _ => True

/-- What a run of constructions makes. -/
inductive Constructed : Catalog → Prop
  | empty : Constructed {}
  | make {c : Catalog} {k : Construction} : Constructed c → c.Allows k → Constructed (c.make k)

variable {c : Catalog}

theorem keep_variableOfType (type : DataType) (literal : Option Value) :
    c.keepVariable (c.handles.variableOfType type literal) = c ∨
    ∃ v : Variable, v.Typed ∧ v.handle = c.handles.vars + 1 ∧
      c.keepVariable (c.handles.variableOfType type literal) =
        { c with handles := { c.handles with vars := c.handles.vars + 1 }, vars := c.vars ++ [v] } := by
  unfold Handles.variableOfType
  cases h : Handles.typing type literal with
  | error e => exact .inl rfl
  | ok typed => exact .inr ⟨_, ⟨type, h⟩, rfl, rfl⟩

/-- A construction either fails and leaves the catalog as it was, or adds one variable or one label under the next
handle. -/
theorem make_cases {k : Construction} (hk : c.Allows k) :
    c.make k = c ∨
    (∃ v : Variable, v.Typed ∧ v.handle = c.handles.vars + 1 ∧
      c.make k = { c with handles := { c.handles with vars := c.handles.vars + 1 }, vars := c.vars ++ [v] }) ∨
    ∃ l : Label, c.Knows l.body ∧ l.handle = c.handles.labels + 1 ∧
      c.make k =
        { c with handles := { c.handles with labels := c.handles.labels + 1 }, labels := c.labels ++ [l] } := by
  cases k with
  | ofType type literal => exact (keep_variableOfType type literal).imp_right .inl
  | ofName typeName literal =>
    rw [make, Handles.declare]
    cases DataType.ofName typeName with
    | error e => exact .inl rfl
    | ok type => exact (keep_variableOfType type literal).imp_right .inl
  | label body =>
    rw [make, Handles.label]
    split_ifs with h
    · exact .inl rfl
    · exact .inr (.inr ⟨⟨_, body⟩, hk, rfl, rfl⟩)

theorem Knows.make {body : List Instruction} (h : c.Knows body) {k : Construction} (hk : c.Allows k) :
    (c.make k).Knows body := by
  intro i hi
  obtain ⟨hv, hl⟩ := h i hi
  rcases make_cases hk with he | ⟨v, -, -, he⟩ | ⟨l, -, -, he⟩
  · exact he.symm ▸ ⟨hv, hl⟩
  · exact he.symm ▸ ⟨fun w hw => List.mem_append_left _ (hv w hw), hl⟩
  · exact he.symm ▸ ⟨hv, fun m hm => List.mem_append_left _ (hl m hm)⟩

/-- What every run of constructions keeps. -/
structure Sound (c : Catalog) : Prop where
  vars : c.vars.map Variable.handle = List.range' 1 c.handles.vars
  labels : c.labels.map Label.handle = List.range' 1 c.handles.labels
  typed : ∀ v ∈ c.vars, v.Typed
  bodies : ∀ l ∈ c.labels, c.Knows l.body

theorem Sound.make (hc : c.Sound) {k : Construction} (hk : c.Allows k) : (c.make k).Sound := by
  have hbodies : ∀ l ∈ c.labels, (c.make k).Knows l.body := fun l hl => (hc.bodies l hl).make hk
  rcases make_cases hk with h | ⟨v, hv, hn, h⟩ | ⟨l, hl, hn, h⟩
  · exact h.symm ▸ hc
  · rw [h] at hbodies ⊢
    refine ⟨?_, hc.labels, ?_, hbodies⟩
    · rw [List.map_append, hc.vars, List.map_singleton, hn, List.range'_1_concat, Nat.add_comm]
    · intro w hw
      rcases List.mem_append.1 hw with hw | hw
      · exact hc.typed w hw
      · exact List.mem_singleton.1 hw ▸ hv
  · have hbody := hl.make hk
    rw [h] at hbodies hbody ⊢
    refine ⟨hc.vars, ?_, hc.typed, ?_⟩
    · rw [List.map_append, hc.labels, List.map_singleton, hn, List.range'_1_concat, Nat.add_comm]
    · intro m hm
      rcases List.mem_append.1 hm with hm | hm
      · exact hbodies m hm
      · exact List.mem_singleton.1 hm ▸ hbody

theorem Constructed.sound (hc : c.Constructed) : c.Sound := by
  induction hc with
  | empty => exact ⟨rfl, rfl, nofun, nofun⟩
  | make _ hk ih => exact ih.make hk

theorem Constructed.eq_of_handle (hc : c.Constructed) {v w : Variable} (hv : v ∈ c.vars) (hw : w ∈ c.vars)
    (h : v.handle = w.handle) : v = w := by
  have hn : (c.vars.map Variable.handle).Nodup := hc.sound.vars ▸ List.nodup_range'
  exact List.inj_on_of_nodup_map hn hv hw h

theorem Constructed.closed (hc : c.Constructed) : Label.Closed (· ∈ c.labels) where
  target l hl m hm := by
    obtain ⟨i, hi, hm⟩ := List.mem_flatMap.1 hm
    exact (hc.sound.bodies l hl i hi).2 m hm
  eq_of_handle l m hl hm h := by
    have hn : (c.labels.map Label.handle).Nodup := hc.sound.labels ▸ List.nodup_range'
    exact List.inj_on_of_nodup_map hn hl hm h

end Catalog

end InlineAsm
