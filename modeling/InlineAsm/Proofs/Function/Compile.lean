import InlineAsm.Proofs.Function.Plan

/-! A body is compiled if and only if four conditions hold, and a bridge is asked only then: once for the artifact of
the source that the function keeps, and once to load that artifact. -/

namespace InlineAsm

namespace Bridge

inductive Call where
  | compile (source : String)
  | load (artifact : String) (signature : List NativeType)

/-- A bridge that never fails and keeps a record of what it is asked. Its answers may depend on the record. -/
def recording (artifact : List Call → String → String) (entry : List Call → String → List NativeType → Entry) :
    Bridge (StateM (List Call)) where
  compile source := modifyGet fun log => (.ok (artifact log source), log ++ [.compile source])
  load path signature := modifyGet fun log => (.ok (entry log path signature), log ++ [.load path signature])

end Bridge

namespace Function

variable {σ : Type} {bridge : Bridge (StateM σ)} {f : Function} {inputs locals outputs : List Variable}

theorem run_compile_of_plan_error {e : Error} (h : f.plan inputs locals outputs = .error e) (s : σ) :
    (f.compile bridge inputs locals outputs).run s = ((f, .error e), s) := by
  unfold compile
  rw [h]
  rfl

theorem run_compile_of_plan {p : Plan} (h : f.plan inputs locals outputs = .ok p) (s : σ) :
    (f.compile bridge inputs locals outputs).run s =
      match (build bridge p).run s with
      | (.error e, s') => ((f, .error e), s')
      | (.ok k, s') => (({ f with compiled := some k }, .ok ()), s') := by
  unfold compile
  rw [h]
  -- The bind can be opened only after the match on the plan is reduced.
  change StateT.run (build bridge p >>= _) s = _
  rw [StateT.run_bind]
  rcases (build bridge p).run s with ⟨e | k, s'⟩
  · rfl
  · rfl

theorem of_build {p : Plan} {c : Compiled} {s s' : σ} (h : (build bridge p).run s = (.ok c, s')) :
    c.toPlan = p ∧ c.source = p.text := by
  unfold build at h
  rw [StateT.run_bind] at h
  rcases hpath : (bridge.compile p.text).run s with ⟨path | path, s₁⟩
  · rw [hpath] at h
    cases h
  · rw [hpath] at h
    change StateT.run (bridge.load path p.signature >>= _) s₁ = _ at h
    rw [StateT.run_bind] at h
    rcases hentry : (bridge.load path p.signature).run s₁ with ⟨entry | entry, s₂⟩
    · rw [hentry] at h
      cases h
    · rw [hentry] at h
      cases h
      exact ⟨rfl, rfl⟩

/-- A successful compilation replaces what the function kept by what was planned and the text of that. -/
theorem exists_plan_of_compile {f' : Function} {s s' : σ}
    (h : (f.compile bridge inputs locals outputs).run s = ((f', .ok ()), s')) :
    ∃ p c, f.plan inputs locals outputs = .ok p ∧ f' = { f with compiled := some c } ∧ c.toPlan = p ∧
      c.source = p.text := by
  cases hp : f.plan inputs locals outputs with
  | error e =>
    rw [run_compile_of_plan_error hp] at h
    cases h
  | ok p =>
    rw [run_compile_of_plan hp] at h
    rcases hb : (build bridge p).run s with ⟨e | k, s₁⟩
    · rw [hb] at h
      cases h
    · rw [hb] at h
      cases h
      exact ⟨p, k, rfl, rfl, of_build hb⟩

open Bridge (Call)

variable {artifact : List Call → String → String} {entry : List Call → String → List NativeType → Entry}

theorem run_compile_recording {p : Plan} (h : f.plan inputs locals outputs = .ok p) (log : List Call) :
    ∃ path loaded, (f.compile (.recording artifact entry) inputs locals outputs).run log =
      (({ f with compiled := some { p with source := p.text, entry := loaded } }, .ok ()),
        log ++ [.compile p.text, .load path p.signature]) := by
  refine ⟨artifact log p.text,
    entry (log ++ [.compile p.text]) (artifact log p.text) p.signature, ?_⟩
  have happ : log ++ [.compile p.text, .load (artifact log p.text) p.signature] =
      log ++ [.compile p.text] ++ [.load (artifact log p.text) p.signature] := List.append_cons ..
  unfold compile
  rw [h, happ]
  rfl

variable (artifact entry) in
/-- A compilation with a bridge that never fails, in full. -/
theorem compile_recording {c : Catalog} (hc : c.Constructed) (hf : c.Knows f.body)
    (hl : outputs ++ inputs ++ locals ⊆ c.vars) (log : List Call) :
    ∃ f' result log',
      (f.compile (.recording artifact entry) inputs locals outputs).run log = ((f', result), log') ∧
      (result = .ok () ↔
        Distinct inputs locals outputs ∧ Unbound inputs ∧ Covered f.body inputs locals outputs ∧
          Resolved inputs locals outputs) ∧
      (¬(Distinct inputs locals outputs ∧ Unbound inputs) →
        ∃ e, result = .error e ∧ e.kind = .argumentValue) ∧
      (Distinct inputs locals outputs ∧ Unbound inputs ∧ ¬Covered f.body inputs locals outputs →
        ∃ e, result = .error e ∧ e.kind = .variableDoesNotExist) ∧
      (Distinct inputs locals outputs ∧ Unbound inputs ∧ Covered f.body inputs locals outputs ∧
          ¬Resolved inputs locals outputs →
        ∃ e, result = .error e ∧ e.kind = .argumentValue) ∧
      (result ≠ .ok () → f' = f ∧ log' = log) ∧
      (result = .ok () →
        ∃ source path signature, f'.source? = some source ∧ f'.signature? = some signature ∧
          log' = log ++ [.compile source, .load path signature]) := by
  rcases hc.plan_cases hl hf with ⟨h, e, hp, hk⟩ | ⟨hd, hu, h, e, hp, hk⟩ | ⟨hd, hu, hcov, h, e, hp, hk⟩ |
    ⟨hd, hu, hcov, hres, p, hp⟩
  · refine ⟨f, _, log, run_compile_of_plan_error hp log, ?_, fun _ => ⟨e, rfl, hk⟩, ?_, ?_, fun _ => ⟨rfl, rfl⟩, nofun⟩
    · exact ⟨nofun, fun hall => absurd ⟨hall.1, hall.2.1⟩ h⟩
    · exact fun hall => absurd ⟨hall.1, hall.2.1⟩ h
    · exact fun hall => absurd ⟨hall.1, hall.2.1⟩ h
  · refine ⟨f, _, log, run_compile_of_plan_error hp log, ?_, ?_, fun _ => ⟨e, rfl, hk⟩, ?_, fun _ => ⟨rfl, rfl⟩, nofun⟩
    · exact ⟨nofun, fun hall => absurd hall.2.2.1 h⟩
    · exact fun hn => absurd ⟨hd, hu⟩ hn
    · exact fun hall => absurd hall.2.2.1 h
  · refine ⟨f, _, log, run_compile_of_plan_error hp log, ?_, ?_, ?_, fun _ => ⟨e, rfl, hk⟩, fun _ => ⟨rfl, rfl⟩, nofun⟩
    · exact ⟨nofun, fun hall => absurd hall.2.2.2 h⟩
    · exact fun hn => absurd ⟨hd, hu⟩ hn
    · exact fun hall => absurd hcov hall.2.2
  · obtain ⟨path, loaded, hrun⟩ := run_compile_recording hp log
    refine ⟨_, _, _, hrun, ⟨fun _ => ⟨hd, hu, hcov, hres⟩, fun _ => rfl⟩, ?_, ?_, ?_, fun hne => absurd rfl hne, ?_⟩
    · exact fun hn => absurd ⟨hd, hu⟩ hn
    · exact fun hall => absurd hcov hall.2.2
    · exact fun hall => absurd hres hall.2.2.2
    · exact fun _ => ⟨p.text, path, p.signature, rfl, rfl, rfl⟩

def addend : Variable := ⟨1, .scalar .int, none, []⟩

def total : Variable := ⟨2, .scalar .int, none, []⟩

def adding : Label := ⟨1, [⟨"add", [.var total, .var addend], []⟩]⟩

/-- A function whose only variables stand behind a label. -/
def jump : Function := { body := [⟨"jmp", [.label adding], []⟩] }

/-- All that `jump` is made of. -/
def jumpCatalog : Catalog := ⟨⟨2, 1⟩, [addend, total], [adding]⟩

theorem constructed_jumpCatalog : jumpCatalog.Constructed := by
  have h₁ : Catalog.Constructed ⟨⟨1, 0⟩, [addend], []⟩ := .make (k := .ofType (.scalar .int) none) .empty trivial
  have h₂ : Catalog.Constructed ⟨⟨2, 0⟩, [addend, total], []⟩ := .make (k := .ofName "int" none) h₁ trivial
  have hk : Catalog.Knows ⟨⟨2, 0⟩, [addend, total], []⟩ adding.body := by
    intro i hi
    obtain rfl := List.mem_singleton.1 hi
    exact ⟨List.forall_mem_cons.2 ⟨.tail _ (.head _), List.forall_mem_singleton.2 (.head _)⟩, nofun⟩
  exact .make (k := .label adding.body) h₂ hk

theorem knows_jump : jumpCatalog.Knows jump.body := by
  intro i hi
  obtain rfl := List.mem_singleton.1 hi
  exact ⟨nofun, List.forall_mem_singleton.2 (.head _)⟩

theorem listed_jump : [total] ++ [addend] ++ [] ⊆ jumpCatalog.vars := by simp [jumpCatalog]

/-- A bridge whose compiled code does nothing. -/
def idleBridge : Bridge (StateM (List Call)) := .recording (fun _ _ => "") fun _ _ _ bytes => bytes

def compiledJump : Function := ((jump.compile idleBridge [addend] [] [total]).run []).1.1

theorem run_compile_jump :
    ∃ log, (jump.compile idleBridge [addend] [] [total]).run [] = ((compiledJump, .ok ()), log) := ⟨_, rfl⟩

theorem compile_recording_jump :
    jumpCatalog.Constructed ∧ jumpCatalog.Knows jump.body ∧ [total] ++ [addend] ++ [] ⊆ jumpCatalog.vars ∧
      Covered jump.body [addend] [] [total] := by
  obtain ⟨f', result, log', hrun, hok, -⟩ := compile_recording (fun _ _ => "") (fun _ _ _ bytes => bytes)
    constructed_jumpCatalog knows_jump listed_jump []
  have hresult : result = .ok () := congrArg (fun r => r.1.2) hrun.symm
  exact ⟨constructed_jumpCatalog, knows_jump, listed_jump, (hok.1 hresult).2.2.1⟩

end Function

end InlineAsm
