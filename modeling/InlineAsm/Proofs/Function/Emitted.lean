import InlineAsm.Proofs.Function.Compile
import InlineAsm.Proofs.Source.Reading

/-! The assembly in the source of a compiled function is closed: the token of each variable in it has one entry among
the output operands, and each label that it jumps to is defined in it, once. All of this is said about the text that
the function keeps, as it is read back. -/

namespace InlineAsm

/-- The token that stands for an entry of the output clause: the name that the entry begins with, in brackets, behind a
percent sign. -/
def Source.entryToken (entry : String) : String := "%" ++ String.ofList (upTo ']' entry.toList).1 ++ "]"

/-- The label that a line of assembly defines: what stands in front of the first colon. -/
def Source.definedName (line : String) : String := String.ofList (upTo ':' line.toList).1

/-- The lines of assembly for a body and the labels that it reaches. Without any there is one line, which is empty. -/
def emittedLines (body : List Instruction) (labels : List Label) : List String :=
  if body.isEmpty && labels.isEmpty then [""] else body.map Instruction.text ++ labels.map Label.text

/-- The instructions that are emitted: those of the body, then those of the labels. -/
def Plan.instructions (p : Plan) : List Instruction := p.body ++ p.labels.flatMap Label.body

theorem Plan.lines_unit (p : Plan) : p.unit.lines = emittedLines p.body p.labels :=
  SourceUnit.lines_synthesize p.body p.labels p.bindings p.signature

theorem entryToken_text (v : Variable) (lvalue : String) :
    Source.entryToken (Source.OutputOperand.text ⟨v.symbol, lvalue⟩) = v.token := by
  have hsymbol : ']' ∉ v.symbol.toList := v.not_mem_symbol (by decide) (by decide)
  have hfront : ']' ∉ ("[" ++ v.symbol).toList := by simp [String.toList_append, hsymbol]
  have hentry : (Source.OutputOperand.text ⟨v.symbol, lvalue⟩).toList =
      ("[" ++ v.symbol).toList ++ ']' :: (" \"=r\" (" ++ lvalue ++ ")").toList := by
    simp [Source.OutputOperand.text, String.toList_append]
  have hpercent : "%[" = "%" ++ "[" := rfl
  rw [Source.entryToken, hentry, Source.upTo_append hfront, String.ofList_toList, Variable.token, hpercent]
  simp only [String.append_assoc]

theorem Plan.map_entryToken_outputs (p : Plan) : p.unit.reading.outputs.map Source.entryToken =
    (p.bindings.map Binding.handle).map fun n => "%[" ++ ("v" ++ Text.Numeral.ofNat n) ++ "]" := by
  simp only [SourceUnit.reading, unit, SourceUnit.synthesize, List.map_map]
  exact List.map_congr_left fun b _ => entryToken_text b.var _

theorem token_injective : (fun n : Nat => "%[" ++ ("v" ++ Text.Numeral.ofNat n) ++ "]").Injective := by
  intro m n h
  have h := (String.append_left_inj "]").1 h
  exact Text.Numeral.ofNat_injective ((String.append_right_inj "v").1 ((String.append_right_inj "%[").1 h))

theorem Label.name_injective : (fun n : Nat => "label" ++ Text.Numeral.ofNat n).Injective :=
  fun _ _ h => Text.Numeral.ofNat_injective ((String.append_right_inj "label").1 h)

namespace Instruction

variable {body : List Instruction}

theorem Reaches.of_mem {i : Instruction} (hi : i ∈ body) {l : Label} (hl : l ∈ i.labels) : Reaches body l :=
  ⟨i, hi, l, hl, .refl⟩

theorem Reaches.step {l m : Label} (h : Reaches body l) (hm : m ∈ l.targets) : Reaches body m := by
  obtain ⟨i, hi, k, hk, hkl⟩ := h
  exact ⟨i, hi, k, hk, hkl.tail hm⟩

end Instruction

namespace Plan

variable {p : Plan} (hlabels : ∀ m, m ∈ p.labels ↔ Instruction.Reaches p.body m)
include hlabels

theorem uses_of_instruction {i : Instruction} (hi : i ∈ p.instructions) {v : Variable} (hv : v ∈ i.vars) :
    Instruction.Uses p.body v := by
  rcases List.mem_append.1 hi with hi | hi
  · exact .inl ⟨i, hi, hv⟩
  · obtain ⟨l, hl, hi⟩ := List.mem_flatMap.1 hi
    exact .inr ⟨l, (hlabels l).1 hl, i, hi, hv⟩

theorem mem_labels_of_instruction {i : Instruction} (hi : i ∈ p.instructions) {l : Label} (hl : l ∈ i.labels) :
    l ∈ p.labels := by
  rw [hlabels]
  rcases List.mem_append.1 hi with hi | hi
  · exact .of_mem hi hl
  · obtain ⟨m, hm, hi⟩ := List.mem_flatMap.1 hi
    exact ((hlabels m).1 hm).step (List.mem_flatMap.2 ⟨i, hi, hl⟩)

end Plan

theorem existsUnique_position {α : Type} {l : List α} (hn : l.Nodup) {a : α} (ha : a ∈ l) :
    ∃! n : Nat, l[n]? = some a := by
  obtain ⟨n, hlt, hn'⟩ := List.mem_iff_getElem.1 ha
  have hget : l[n]? = some a := List.getElem?_eq_some_iff.2 ⟨hlt, hn'⟩
  refine ⟨n, hget, fun m hm => ?_⟩
  exact ((List.getElem?_inj hlt hn).1 (hget.trans hm.symm)).symm

namespace Function

variable {c : Catalog} {f f' : Function} {inputs locals outputs : List Variable} {σ : Type}
  {bridge : Bridge (StateM σ)} {s s' : σ}

/-- The source that a function keeps after a successful compilation says what was planned. -/
theorem exists_reading_of_compile (h : (f.compile bridge inputs locals outputs).run s = ((f', .ok ()), s')) :
    ∃ p k, f.plan inputs locals outputs = .ok p ∧ f' = { f with compiled := some k } ∧ k.toPlan = p ∧
      f'.source?.bind Source.read? = some p.unit.reading := by
  obtain ⟨p, k, hp, rfl, hk, hsource⟩ := exists_plan_of_compile h
  refine ⟨p, k, hp, rfl, hk, ?_⟩
  change Source.read? k.source = _
  rw [hsource]
  exact SourceUnit.read?_synthesize p.body p.labels p.bindings p.signature

theorem count_token_outputs {p : Plan} (hn : (p.bindings.map Binding.handle).Nodup) {v : Variable}
    (hv : v.handle ∈ p.bindings.map Binding.handle) :
    (p.unit.reading.outputs.map Source.entryToken).count v.token = 1 := by
  rw [p.map_entryToken_outputs]
  exact List.count_eq_one_of_mem (hn.map token_injective) (List.mem_map_of_mem hv)

theorem nodup_map_name {U : Label → Prop} (hU : Label.Closed U) {labels : List Label} (hn : labels.Nodup)
    (hl : ∀ l ∈ labels, U l) : (labels.map Label.name).Nodup := by
  have hh : (labels.map Label.handle).Nodup :=
    hn.map_on fun l hl₁ m hm h => hU.eq_of_handle l m (hl l hl₁) (hl m hm) h
  have hnames := hh.map Label.name_injective
  rwa [List.map_map] at hnames

theorem definedName_text (l : Label) : Source.definedName l.text = l.name := by
  have hname : ':' ∉ l.name.toList := by
    have hindex := Text.Numeral.not_mem_ofNat (c := ':') (by decide) l.handle
    simp [Label.name, String.toList_append, hindex]
  have htext : l.text.toList = l.name.toList ++ ':' :: (" " ++ String.join (l.body.map Instruction.text)).toList := by
    simp [Label.text, String.toList_append]
  rw [Source.definedName, htext, Source.upTo_append hname, String.ofList_toList]

/-- Behind the lines of the body there is one that defines the label, and only one. -/
theorem count_definedName {body : List Instruction} {labels : List Label} (hn : (labels.map Label.name).Nodup)
    {l : Label} (hl : l ∈ labels) :
    (((emittedLines body labels).drop body.length).map Source.definedName).count l.name = 1 := by
  have hne : ¬(body.isEmpty && labels.isEmpty) = true := by
    simp [List.ne_nil_of_mem hl]
  have hdrop : (emittedLines body labels).drop body.length = labels.map Label.text := by
    rw [emittedLines, if_neg hne, List.drop_left' (List.length_map _)]
  have hnames : (labels.map Label.text).map Source.definedName = labels.map Label.name := by
    rw [List.map_map]
    exact List.map_congr_left fun l _ => definedName_text l
  rw [hdrop, hnames]
  exact List.count_eq_one_of_mem hn (List.mem_map_of_mem hl)

/-- What a successful compilation emits has no operand without its binding and no jump without its target, and defines
each label that the body reaches once and no other. -/
theorem emitted_closed (hc : c.Constructed) (hf : c.Knows f.body) (hl : outputs ++ inputs ++ locals ⊆ c.vars)
    (h : (f.compile bridge inputs locals outputs).run s = ((f', .ok ()), s')) :
    ∃ k r, f'.compiled = some k ∧ f'.source?.bind Source.read? = some r ∧ r.lines = emittedLines f.body k.labels ∧
      (∀ i ∈ f.body ++ k.labels.flatMap Label.body, ∀ v ∈ i.vars,
        (∃! n : Nat, (k.bindings.map Binding.var)[n]? = some v) ∧
          (r.outputs.map Source.entryToken).count v.token = 1) ∧
      (∀ i ∈ f.body ++ k.labels.flatMap Label.body, ∀ l ∈ i.labels, l ∈ k.labels) ∧
      (k.labels.map Label.name).Nodup ∧
      (∀ l ∈ k.labels, ((r.lines.drop f.body.length).map Source.definedName).count l.name = 1) ∧
      ∀ l ∈ k.labels, Instruction.Reaches f.body l := by
  obtain ⟨p, k, hp, rfl, rfl, hread⟩ := exists_reading_of_compile h
  obtain ⟨hr, he, -, hbody⟩ := plan_eq_ok_iff.1 hp
  obtain ⟨hb, hinverse, -⟩ := Roles.of_resolve hr
  have hn := hinverse.nodup
  have hbl : ∀ i ∈ f.body, ∀ l ∈ i.labels, l ∈ c.labels := fun i hi => (hf i hi).2
  obtain ⟨hnl, hmem⟩ := Instruction.emitted_of_ok hc.closed hbl he
  have hlabels : ∀ m, m ∈ k.labels ↔ Instruction.Reaches k.body m := by rwa [hbody]
  have hregistered := (Instruction.exists_emittedLabels_iff hc.closed hbl 0).1 ⟨_, he⟩
  have hcovered := (hc.covered_iff hl hf hinverse hb).1 hregistered
  have hlines : k.unit.reading.lines = emittedLines f.body k.labels := hbody ▸ k.lines_unit
  have hnames : (k.labels.map Label.name).Nodup :=
    nodup_map_name hc.closed hnl fun l hl => ((hmem l).1 hl).mem hc.closed hbl
  rw [← hbody]
  refine ⟨k, _, rfl, hread, hbody ▸ hlines, ?_, fun i hi l => Plan.mem_labels_of_instruction hlabels hi, hnames, ?_,
    fun l => (hlabels l).1⟩
  · intro i hi v hv
    have huses : Instruction.Uses f.body v := hbody ▸ Plan.uses_of_instruction hlabels hi hv
    have hlisted := hcovered v huses
    rw [← Binding.map_var_parameters, ← hb] at hlisted
    have hhandle := List.mem_map_of_mem (f := Variable.handle) hlisted
    rw [← Binding.map_handle] at hhandle
    refine ⟨existsUnique_position ?_ hlisted, count_token_outputs hn hhandle⟩
    rw [Binding.map_handle] at hn
    exact hn.of_map _
  · intro l hl
    rw [hlines, hbody]
    exact count_definedName hnames hl

theorem emitted_closed_jump :
    ∃ k r, compiledJump.compiled = some k ∧ compiledJump.source?.bind Source.read? = some r ∧
      r.lines = ["jmp label1;", "label1: add %[v2], %[v1];"] ∧ adding ∈ k.labels ∧
      (∃! n : Nat, (k.bindings.map Binding.var)[n]? = some addend) ∧
      (r.outputs.map Source.entryToken).count "%[v1]" = 1 ∧
      ((r.lines.drop 1).map Source.definedName).count "label1" = 1 := by
  obtain ⟨log, hrun⟩ := run_compile_jump
  obtain ⟨k, r, hk, hr, hlines, hvars, htargets, -, hdefined, -⟩ :=
    emitted_closed constructed_jumpCatalog knows_jump listed_jump hrun
  have hadding : adding ∈ k.labels := htargets ⟨"jmp", [.label adding], []⟩ (.head _) adding (.head _)
  have hlabels : k.labels = [adding] := by
    cases hk
    rfl
  have hemitted : ⟨"add", [.var total, .var addend], []⟩ ∈ jump.body ++ k.labels.flatMap Label.body := by
    rw [hlabels]
    exact .tail _ (.head _)
  have hadd := hvars _ hemitted addend (.tail _ (.head _))
  have htoken : addend.token = "%[v1]" := by decide +kernel
  have hname : adding.name = "label1" := by decide +kernel
  refine ⟨k, r, hk, hr, ?_, hadding, hadd.1, htoken ▸ hadd.2, hname ▸ hdefined adding hadding⟩
  rw [hlines, hlabels]
  decide +kernel

end Function

end InlineAsm
