import InlineAsm.DataType.Check
import InlineAsm.Source.Unit

/-!
The roles that variables take: the outputs come first, then the inputs, then the locals. A variable takes one role
only, and one with a literal can not be an input. Beside the list of the bindings there is a map from each variable to
its position in that list.
-/

namespace InlineAsm

/-- Variables with their roles, and where each of them stands. -/
structure Roles where
  bindings : List Binding
  positions : List (Variable × Nat)
  inside : ∀ v i, positions.lookup v = some i → i < bindings.length

namespace Roles

def empty : Roles := ⟨[], [], nofun⟩

/-- The position of a variable, by the map. -/
def position? (r : Roles) (v : Variable) : Option (Fin r.bindings.length) :=
  match h : r.positions.lookup v with
  | some i => some ⟨i, r.inside v i h⟩
  | none => none

def registers (r : Roles) (v : Variable) : Bool := (r.position? v).isSome

/-- The role of a variable and its position among the bindings. -/
def roleOf? (r : Roles) (v : Variable) : Option (Role × Nat) :=
  (r.position? v).map fun i => (r.bindings[i].role, i.val)

/-- Adds a binding at the end. -/
def add (r : Roles) (b : Binding) : Roles where
  bindings := r.bindings ++ [b]
  positions := (b.var, r.bindings.length) :: r.positions
  inside v i h := by
    rw [List.length_append, List.length_singleton]
    rw [List.lookup_cons] at h
    split at h
    · cases h
      exact Nat.lt_succ_self _
    · exact Nat.lt_succ_of_lt (r.inside v i h)

/-- Adds a variable that stands at an index of its list. -/
def register (r : Roles) (role : Role) (index : Nat) (v : Variable) : Except Error Roles :=
  match r.position? v with
  | some i => .error (.registeredTwice index v r.bindings[i].role role)
  | none =>
    if role = .input ∧ v.literal.isSome then .error (.inputWithLiteral index v)
    else .ok (r.add ⟨v, role⟩)

/-- Adds variables that stand from an index of their list on. -/
def registerAll (role : Role) (index : Nat) : List Variable → Roles → Except Error Roles
  | [], r => .ok r
  | v :: rest, r => do registerAll role (index + 1) rest (← r.register role index v)

def resolve (inputs locals outputs : List Variable) : Except Error Roles := do
  let r ← registerAll .output 0 outputs empty
  let r ← registerAll .input 0 inputs r
  registerAll .scratch 0 locals r

end Roles

/-- The type of the parameter: an output is passed by its address. -/
def Binding.native (b : Binding) : Except Error NativeType :=
  match b.var.type.native? with
  | some t => .ok (if b.role = .output then .pointer t else t)
  | none => .error (.openVariable b.role b.var)

end InlineAsm
