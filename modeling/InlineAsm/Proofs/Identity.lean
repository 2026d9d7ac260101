import InlineAsm.Proofs.Function.Emitted

/-! What a handle tells. Over any run of constructions, those that fail included, the handles of each kind count the
successes, so a handle and each name made from it stand for one object. A label is constructed after the labels in its
body, so handles fall from each label to those inside it, and no label is inside itself. -/

namespace InlineAsm

theorem Variable.symbol_inj {v w : Variable} : v.symbol = w.symbol ↔ v.handle = w.handle :=
  ⟨fun h => Text.Numeral.ofNat_injective ((String.append_right_inj "v").1 h), fun h => by rw [symbol, symbol, h]⟩

theorem Variable.token_inj {v w : Variable} : v.token = w.token ↔ v.handle = w.handle :=
  token_injective.eq_iff (a := v.handle) (b := w.handle)

theorem Variable.head?_symbol (v : Variable) : v.symbol.toList.head? = some 'v' := by
  simp [symbol, String.toList_append]

theorem Variable.head?_token (v : Variable) : v.token.toList.head? = some '%' := by
  simp [token, String.toList_append]

/-- Names with other first characters are other names. -/
theorem ne_of_head? {s t : String} {c d : Char} (hs : s.toList.head? = some c) (ht : t.toList.head? = some d)
    (h : c ≠ d) : s ≠ t := by
  rintro rfl
  exact h (Option.some.inj (hs.symm.trans ht))

namespace Label

theorem beq_iff {l m : Label} : l == m ↔ l.handle = m.handle :=
  (beq_iff_eq : (l.handle == m.handle) = true ↔ l.handle = m.handle)

theorem name_inj {l m : Label} : l.name = m.name ↔ l.handle = m.handle :=
  name_injective.eq_iff (a := l.handle) (b := m.handle)

theorem head?_name (l : Label) : l.name.toList.head? = some 'l' := by
  simp [name, String.toList_append]

/-- `m` occurs inside `l`, at any depth. -/
def Encloses : Label → Label → Prop := Relation.TransGen fun l m => m ∈ l.targets

end Label

namespace Catalog

variable {c : Catalog}

/-- The construction answers with an error. -/
def Refuses (c : Catalog) : Construction → Prop
  | .ofType type literal => ∃ e, (c.handles.variableOfType type literal).2 = .error e
  | .ofName typeName literal => ∃ e, (c.handles.declare typeName literal).2 = .error e
  | .label body => ∃ e, (c.handles.label body).2 = .error e

theorem keepVariable_eq_self_iff (type : DataType) (literal : Option Value) :
    c.keepVariable (c.handles.variableOfType type literal) = c ↔
      ∃ e, (c.handles.variableOfType type literal).2 = .error e := by
  unfold Handles.variableOfType
  cases Handles.typing type literal with
  | error e => exact iff_of_true rfl ⟨e, rfl⟩
  | ok typed =>
    refine iff_of_false (fun h => ?_) nofun
    have hcount : c.handles.vars + 1 = c.handles.vars := congrArg (fun c : Catalog => c.handles.vars) h
    omega

/-- Exactly the constructions that fail leave everything as it was, both counters included. -/
theorem make_eq_self_iff (k : Construction) : c.make k = c ↔ c.Refuses k := by
  cases k with
  | ofType type literal => exact keepVariable_eq_self_iff type literal
  | ofName typeName literal =>
    rw [make, Refuses, Handles.declare]
    cases DataType.ofName typeName with
    | error e => exact iff_of_true rfl ⟨e, rfl⟩
    | ok type => exact keepVariable_eq_self_iff type literal
  | label body =>
    rw [make, Refuses, Handles.label]
    split_ifs with hempty
    · exact iff_of_true rfl ⟨_, rfl⟩
    · refine iff_of_false (fun h => ?_) (fun h => ?_)
      · have hcount : c.handles.labels + 1 = c.handles.labels := congrArg (fun c : Catalog => c.handles.labels) h
        omega
      · obtain ⟨e, he⟩ := h
        cases he

theorem Sound.handle_le (hc : c.Sound) {l : Label} (hl : l ∈ c.labels) : l.handle ≤ c.handles.labels := by
  have hmem : l.handle ∈ List.range' 1 c.handles.labels := hc.labels ▸ List.mem_map_of_mem hl
  rw [List.mem_range'_1] at hmem
  omega

/-- The labels in the body of a label were there before it. -/
theorem Constructed.handle_lt_of_target (hc : c.Constructed) :
    ∀ l ∈ c.labels, ∀ m ∈ l.targets, m.handle < l.handle := by
  induction hc with
  | empty => exact nofun
  | make hc hk ih =>
    rcases make_cases hk with h | ⟨v, -, -, h⟩ | ⟨l, hl, hn, h⟩ <;> rw [h]
    · exact ih
    · exact ih
    · refine List.forall_mem_append.2 ⟨ih, List.forall_mem_singleton.2 fun m hm => ?_⟩
      obtain ⟨i, hi, hm⟩ := List.mem_flatMap.1 hm
      have hle := hc.sound.handle_le ((hl i hi).2 m hm)
      omega

theorem Constructed.of_encloses (hc : c.Constructed) {l m : Label} (hl : l ∈ c.labels) (h : l.Encloses m) :
    m ∈ c.labels ∧ m.handle < l.handle := by
  induction h with
  | single hm => exact ⟨hc.closed.target l hl _ hm, hc.handle_lt_of_target l hl _ hm⟩
  | tail _ hm ih =>
    obtain ⟨hk, hlt⟩ := ih
    exact ⟨hc.closed.target _ hk _ hm, (hc.handle_lt_of_target _ hk _ hm).trans hlt⟩

theorem Constructed.handle_eq_iff (hc : c.Constructed) {v w : Variable} (hv : v ∈ c.vars) (hw : w ∈ c.vars) :
    v.handle = w.handle ↔ v = w :=
  ⟨hc.eq_of_handle hv hw, congrArg Variable.handle⟩

theorem Constructed.label_handle_eq_iff (hc : c.Constructed) {l m : Label} (hl : l ∈ c.labels) (hm : m ∈ c.labels) :
    l.handle = m.handle ↔ l = m :=
  ⟨hc.closed.eq_of_handle l m hl hm, congrArg Label.handle⟩

/-- After any run of constructions the variables have the handles from one upwards, in the order of their construction,
and so have the labels. A construction that fails changes nothing. Objects with one handle, or with one name made from
it, are the same object, with its type, literal and warnings or with its body; the names of different kinds differ; and
all labels inside a label have smaller handles, so it is not inside itself. -/
theorem handles_identify (hc : c.Constructed) :
    (c.vars.map Variable.handle = List.range' 1 c.handles.vars ∧
      c.labels.map Label.handle = List.range' 1 c.handles.labels) ∧
    (∀ k, c.Allows k → (c.make k).Constructed ∧ (c.make k = c ↔ c.Refuses k)) ∧
    (∀ v ∈ c.vars, ∀ w ∈ c.vars,
      (v == w ↔ v = w) ∧ (v.symbol = w.symbol ↔ v = w) ∧ (v.token = w.token ↔ v = w) ∧ v.symbol ≠ w.token) ∧
    (∀ l ∈ c.labels, ∀ m ∈ c.labels, (l == m ↔ l = m) ∧ (l.name = m.name ↔ l = m)) ∧
    (∀ v ∈ c.vars, ∀ l ∈ c.labels, v.symbol ≠ l.name ∧ v.token ≠ l.name) ∧
    ∀ l ∈ c.labels, (∀ m, l.Encloses m → m ∈ c.labels ∧ m.handle < l.handle) ∧ ¬l.Encloses l := by
  refine ⟨⟨hc.sound.vars, hc.sound.labels⟩, ?_, ?_, ?_, ?_, ?_⟩
  · exact fun k hk => ⟨hc.make hk, make_eq_self_iff k⟩
  · intro v hv w hw
    rw [← hc.handle_eq_iff hv hw]
    exact ⟨Variable.beq_iff, Variable.symbol_inj, Variable.token_inj,
      ne_of_head? v.head?_symbol w.head?_token (by decide)⟩
  · intro l hl m hm
    rw [← hc.label_handle_eq_iff hl hm]
    exact ⟨Label.beq_iff, Label.name_inj⟩
  · intro v _ l _
    exact ⟨ne_of_head? v.head?_symbol l.head?_name (by decide), ne_of_head? v.head?_token l.head?_name (by decide)⟩
  · intro l hl
    refine ⟨fun m h => hc.of_encloses hl h, fun h => ?_⟩
    exact absurd (hc.of_encloses hl h).2 (Nat.lt_irrefl _)

def resting : Label := ⟨1, [⟨"nop", [], []⟩]⟩

def returning : Label := ⟨2, [⟨"jmp", [.label resting], []⟩]⟩

/-- Two variables and two labels, with a failure of each kind between them. -/
def interrupted : Catalog :=
  let c : Catalog := Catalog.make {} (.ofName "int" none)
  let c := c.make (.ofName "int[" none)
  let c := c.make (.label resting.body)
  let c := c.make (.ofType (.scalar .char) (some (.int 7)))
  let c := c.make (.label [])
  let c := c.make (.ofType (.scalar .char) (some (.ofChar 'x')))
  c.make (.label returning.body)

theorem constructed_interrupted : interrupted.Constructed := by
  have hresting : ∀ c : Catalog, c.Knows resting.body :=
    fun _ => List.forall_mem_singleton.2 ⟨nofun, nofun⟩
  have h₁ := Constructed.empty.make (k := .ofName "int" none) trivial
  have h₂ := h₁.make (k := .ofName "int[" none) trivial
  have h₃ := h₂.make (k := .label resting.body) (hresting _)
  have h₄ := h₃.make (k := .ofType (.scalar .char) (some (.int 7))) trivial
  have h₅ := h₄.make (k := .label []) (List.forall_mem_nil _)
  have h₆ := h₅.make (k := .ofType (.scalar .char) (some (.ofChar 'x'))) trivial
  refine h₆.make (k := .label returning.body) ?_
  exact List.forall_mem_singleton.2 ⟨nofun, List.forall_mem_singleton.2 (.head _)⟩

theorem handles_identify_interrupted :
    interrupted.vars.map Variable.handle = [1, 2] ∧ interrupted.labels.map Label.handle = [1, 2] ∧
    interrupted.make (.label []) = interrupted ∧ ¬returning.Encloses returning := by
  obtain ⟨⟨hvars, hlabels⟩, hmake, -, -, -, hinside⟩ := handles_identify constructed_interrupted
  have hrefused : interrupted.Refuses (.label []) := ⟨.emptyLabel, rfl⟩
  have hempty : interrupted.Allows (.label []) := List.forall_mem_nil _
  exact ⟨hvars, hlabels, (hmake _ hempty).2.2 hrefused, (hinside returning (.tail _ (.head _))).2⟩

end Catalog

end InlineAsm
