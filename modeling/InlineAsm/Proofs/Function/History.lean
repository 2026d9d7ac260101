import InlineAsm.Proofs.Function.Compile

/-! Any sequence of compilations and calls leaves a function as its last successful compilation made it. Compilations
that fail and calls do not show, neither in what the function tells about itself nor in what later calls answer. -/

namespace InlineAsm.Function

/-- What can be done with a function. Each compilation has its own bridge, which may fail in any way. -/
inductive Operation (σ : Type) where
  | compile (bridge : Bridge (StateM σ)) (inputs locals outputs : List Variable)
  | call (args : List Value)

inductive Answer where
  | compiled (result : Except Error Unit)
  | returned (result : Except Error Value)

/-- An operation that was done. -/
structure Event (σ : Type) where
  operation : Operation σ
  /-- The state of the bridges before. -/
  state : σ
  answer : Answer
  after : Function

variable {σ : Type}

/-- The event, and the state of the bridges after it. -/
def perform (f : Function) (s : σ) : Operation σ → Event σ × σ
  | .compile bridge inputs locals outputs =>
    let ((f', result), s') := (f.compile bridge inputs locals outputs).run s
    (⟨.compile bridge inputs locals outputs, s, .compiled result, f'⟩, s')
  | .call args => (⟨.call args, s, .returned (f.call args), f⟩, s)

def history (f : Function) (s : σ) : List (Operation σ) → List (Event σ)
  | [] => []
  | op :: ops =>
    let (e, s') := f.perform s op
    e :: e.after.history s' ops

/-- The function at the end of a history. -/
def atEnd (f : Function) (events : List (Event σ)) : Function := (events.getLast?.map Event.after).getD f

def Event.isCompilation (e : Event σ) : Bool :=
  match e.answer with
  | .compiled (.ok ()) => true
  | _ => false

/-- The last compilation that succeeded. -/
def lastCompilation? (events : List (Event σ)) : Option (Event σ) := events.reverse.find? Event.isCompilation

/-- Two functions that tell the same about themselves. -/
structure Alike (f g : Function) : Prop where
  isCompiled : f.isCompiled = g.isCompiled
  source : f.source? = g.source?
  signature : f.signature? = g.signature?
  role : ∀ v, f.roleOf? v = g.roleOf? v

variable {f f' : Function} {inputs locals outputs : List Variable} {bridge : Bridge (StateM σ)} {s s' : σ}

/-- Whatever makes a compilation fail, the function stays. -/
theorem eq_of_compile_error {e : Error}
    (h : (f.compile bridge inputs locals outputs).run s = ((f', .error e), s')) : f' = f := by
  cases hp : f.plan inputs locals outputs with
  | error e' =>
    rw [run_compile_of_plan_error hp] at h
    cases h
    rfl
  | ok p =>
    rw [run_compile_of_plan hp] at h
    rcases hb : (build bridge p).run s with ⟨e' | k, s₁⟩
    · rw [hb] at h
      cases h
      rfl
    · rw [hb] at h
      cases h

/-- A compilation that succeeds reads only the body of the function and replaces all the rest. -/
theorem run_compile_eq_ok_iff :
    (f.compile bridge inputs locals outputs).run s = ((f', .ok ()), s') ↔
      ∃ k, f.plan inputs locals outputs = .ok k.toPlan ∧ (build bridge k.toPlan).run s = (.ok k, s') ∧
        f' = { f with compiled := some k } := by
  refine ⟨?_, ?_⟩
  · intro h
    obtain ⟨p, k, hp, rfl, rfl, -⟩ := exists_plan_of_compile h
    rw [run_compile_of_plan hp] at h
    rcases hb : (build bridge k.toPlan).run s with ⟨e | k', s₁⟩
    · rw [hb] at h
      cases congrArg (fun r => r.1.2) h
    · rw [hb] at h
      cases h
      exact ⟨k, hp, hb, rfl⟩
  · intro hx
    obtain ⟨k, hp, hb, rfl⟩ := hx
    rw [run_compile_of_plan hp, hb]

theorem run_compile_congr {g : Function} (hbody : g.body = f.body)
    (h : (g.compile bridge inputs locals outputs).run s = ((f', .ok ()), s')) :
    (f.compile bridge inputs locals outputs).run s = ((f', .ok ()), s') := by
  obtain ⟨k, hp, hb, rfl⟩ := run_compile_eq_ok_iff.1 h
  refine run_compile_eq_ok_iff.2 ⟨k, ?_, hb, by rw [hbody]⟩
  unfold plan at hp ⊢
  rwa [← hbody]

/-- What one operation can do. -/
theorem perform_cases (f : Function) (s : σ) (op : Operation σ) :
    let e := (f.perform s op).1
    e.operation = op ∧ e.state = s ∧ e.after.body = f.body ∧
      ((e.isCompilation ∧ ∃ bridge inputs locals outputs s',
          op = .compile bridge inputs locals outputs ∧
            (f.compile bridge inputs locals outputs).run s = ((e.after, .ok ()), s')) ∨
        (¬e.isCompilation ∧ e.after = f)) := by
  cases op with
  | call args => exact ⟨rfl, rfl, rfl, .inr ⟨nofun, rfl⟩⟩
  | compile bridge inputs locals outputs =>
    rcases h : (f.compile bridge inputs locals outputs).run s with ⟨⟨f', e | ⟨⟩⟩, s'⟩
    · obtain rfl := eq_of_compile_error h
      rw [perform, h]
      exact ⟨rfl, rfl, rfl, .inr ⟨nofun, rfl⟩⟩
    · obtain ⟨k, -, -, rfl⟩ := run_compile_eq_ok_iff.1 h
      rw [perform, h]
      exact ⟨rfl, rfl, rfl, .inl ⟨rfl, _, _, _, _, _, rfl, h⟩⟩

theorem history_cons (f : Function) (s : σ) (op : Operation σ) (ops : List (Operation σ)) :
    f.history s (op :: ops) = (f.perform s op).1 :: (f.perform s op).1.after.history (f.perform s op).2 ops := rfl

theorem map_operation_history (f : Function) (s : σ) (ops : List (Operation σ)) :
    (f.history s ops).map Event.operation = ops := by
  induction ops generalizing f s with
  | nil => rfl
  | cons op ops ih => rw [history_cons, List.map_cons, ih, (perform_cases f s op).1]

theorem take_history (f : Function) (s : σ) (ops : List (Operation σ)) (n : Nat) :
    (f.history s ops).take n = f.history s (ops.take n) := by
  induction ops generalizing f s n with
  | nil => rw [List.take_nil, history, List.take_nil]
  | cons op ops ih =>
    cases n with
    | zero => rfl
    | succ n => rw [List.take_succ_cons, history_cons, history_cons, List.take_succ_cons, ih]

theorem atEnd_cons (f : Function) (e : Event σ) (events : List (Event σ)) :
    f.atEnd (e :: events) = e.after.atEnd events := by
  rw [atEnd, List.getLast?_cons, atEnd]
  cases events.getLast? <;> rfl

theorem lastCompilation?_cons (e : Event σ) (events : List (Event σ)) :
    lastCompilation? (e :: events) =
      (lastCompilation? events).or (if e.isCompilation then some e else none) := by
  rw [lastCompilation?, List.reverse_cons, List.find?_append, List.find?_singleton]
  rfl

/-- At the end of a history a function is what its last compilation made of it. -/
theorem atEnd_history (f : Function) (s : σ) (ops : List (Operation σ)) :
    f.atEnd (f.history s ops) = ((lastCompilation? (f.history s ops)).map Event.after).getD f := by
  induction ops generalizing f s with
  | nil => rfl
  | cons op ops ih =>
    rw [history_cons, atEnd_cons, ih, lastCompilation?_cons]
    -- A compilation among the later operations hides the first one; otherwise the first one decides.
    cases lastCompilation? ((f.perform s op).1.after.history (f.perform s op).2 ops) with
    | some e => rfl
    | none =>
      obtain ⟨-, -, -, ⟨hc, -⟩ | ⟨hc, hafter⟩⟩ := perform_cases f s op
      · rw [if_pos hc]
        rfl
      · rw [if_neg hc]
        exact hafter

/-- Each operation is done with the function that those before it have left. -/
theorem eq_perform_of_history {f : Function} {s : σ} {ops : List (Operation σ)} {i : Nat} {e : Event σ}
    (h : (f.history s ops)[i]? = some e) :
    e = ((f.atEnd ((f.history s ops).take i)).perform e.state e.operation).1 := by
  induction ops generalizing f s i with
  | nil => cases h
  | cons op ops ih =>
    obtain ⟨hop, hs, -⟩ := perform_cases f s op
    rw [history_cons] at h ⊢
    cases i with
    | zero =>
      cases h
      rw [hop, hs]
      rfl
    | succ i =>
      rw [List.take_succ_cons, atEnd_cons]
      exact ih h

/-- A compilation in a history gives what it gives for a function with the same body that was compiled to anything else,
or not at all. -/
theorem compile_of_history {f g : Function} (hbody : g.body = f.body) {s : σ} {ops : List (Operation σ)} {e : Event σ}
    (h : e ∈ g.history s ops) (hc : e.isCompilation) :
    ∃ bridge inputs locals outputs s', e.operation = .compile bridge inputs locals outputs ∧
      (f.compile bridge inputs locals outputs).run e.state = ((e.after, .ok ()), s') := by
  -- Of the function at the start only the body lasts, so the induction is on all functions with that body.
  induction ops generalizing g s with
  | nil => cases h
  | cons op ops ih =>
    obtain ⟨hop, hs, hafter, hcases⟩ := perform_cases g s op
    rw [history_cons] at h
    rcases List.mem_cons.1 h with rfl | h
    · obtain ⟨-, bridge, inputs, locals, outputs, s', rfl, hrun⟩ | ⟨hn, -⟩ := hcases
      · rw [hs]
        exact ⟨bridge, inputs, locals, outputs, s', hop, run_compile_congr hbody hrun⟩
      · exact absurd hc hn
    · exact ih (hafter.trans hbody) h

theorem answer_of_call {f : Function} {s : σ} {ops : List (Operation σ)} {i : Nat} {e : Event σ} {args : List Value}
    (h : (f.history s ops)[i]? = some e) (hop : e.operation = .call args) :
    e.answer = .returned ((((lastCompilation? ((f.history s ops).take i)).map Event.after).getD f).call args) := by
  have he := eq_perform_of_history h
  rw [take_history, atEnd_history, ← take_history, hop] at he
  exact congrArg Event.answer he

/-- A function that was never compiled, after any operations: it is as its last successful compilation has made it, and
each call was answered as right after the last one before. -/
theorem history_as_last_compilation {f : Function} (hf : f.compiled = none) (s : σ) (ops : List (Operation σ)) :
    (f.history s ops).map Event.operation = ops ∧
    (lastCompilation? (f.history s ops) = none →
      (f.atEnd (f.history s ops)).Alike { body := f.body, compiled := none }) ∧
    (∀ e, lastCompilation? (f.history s ops) = some e →
      (f.atEnd (f.history s ops)).Alike e.after ∧
      ∃ bridge inputs locals outputs s' k, e.operation = .compile bridge inputs locals outputs ∧
        (f.compile bridge inputs locals outputs).run e.state = ((e.after, .ok ()), s') ∧
        e.after = { f with compiled := some k } ∧ f.plan inputs locals outputs = .ok k.toPlan) ∧
    ∀ i e args, (f.history s ops)[i]? = some e → e.operation = .call args →
      (lastCompilation? ((f.history s ops).take i) = none → e.answer = .returned (.error .notCompiled)) ∧
      ∀ c, lastCompilation? ((f.history s ops).take i) = some c → e.answer = .returned (c.after.call args) := by
  have hend := atEnd_history f s ops
  refine ⟨map_operation_history f s ops, fun hnone => ?_, fun e he => ?_, fun i e args hi hop => ?_⟩
  · rw [hnone] at hend
    rw [hend, ← hf]
    exact ⟨rfl, rfl, rfl, fun _ => rfl⟩
  · rw [he] at hend
    have hmem : e ∈ f.history s ops := List.mem_reverse.1 (List.mem_of_find?_eq_some he)
    have hc : e.isCompilation := List.find?_some he
    obtain ⟨bridge, inputs, locals, outputs, s', hcompile, hrun⟩ := compile_of_history rfl hmem hc
    obtain ⟨k, hp, -, hafter⟩ := run_compile_eq_ok_iff.1 hrun
    rw [hend]
    exact ⟨⟨rfl, rfl, rfl, fun _ => rfl⟩, bridge, inputs, locals, outputs, s', k, hcompile, hrun, hafter, hp⟩
  · have hanswer := answer_of_call hi hop
    refine ⟨fun hnone => ?_, fun c hsome => ?_⟩
    · rw [hnone] at hanswer
      rw [hanswer, Option.map_none, Option.getD_none, call, invoke, invokeWith, hf]
      rfl
    · rwa [hsome] at hanswer

open Bridge (Call)

/-- A bridge that loads nothing. -/
def refusingBridge : Bridge (StateM (List Call)) where
  compile _ := pure (.ok "")
  load path _ := pure (.error (.load path))

/-- A call too early, a compilation, two that fail in different places, and a call. -/
def recompiled : List (Operation (List Call)) :=
  [.call [.int 1], .compile idleBridge [addend] [] [total], .compile idleBridge [] [] [total],
    .compile refusingBridge [total] [] [addend], .call [.int (-2)]]

theorem history_as_last_compilation_jump :
    (jump.atEnd (jump.history [] recompiled)).Alike compiledJump ∧
      ∃ e, (jump.history [] recompiled)[4]? = some e ∧ e.answer = .returned (compiledJump.call [.int (-2)]) := by
  obtain ⟨-, -, hlast, hcalls⟩ := history_as_last_compilation (f := jump) rfl ([] : List Call) recompiled
  obtain ⟨halike, -⟩ := hlast _ rfl
  exact ⟨halike, _, rfl, (hcalls 4 _ _ rfl rfl).2 _ rfl⟩

end InlineAsm.Function
