import HostInventory.Proofs.Enumeration.Origin

/-! One instance over time.

An instance is taken in by one operation and let go of by another, and in between it is looked
at by the refreshes, each time in the environment of that refresh, and changed by nothing else
(`origin_of_apply`). So what a fresh instance is, and what each look hands on, is what any run
makes of it until it is released, as a matter of the environments it was looked at in
(`followed_of_run`). This is about kinds without a cache that have nothing to tell their
instances (`Kind.Quiet`). -/
namespace HostInventory.Enumeration

variable {Env Data : Type}

/-- The kind tells its instances nothing. -/
def Kind.Quiet (k : Kind Env Unit Data) : Prop :=
  ∀ present d, (k.setPresent present d).value = d

/-- The environment in which an operation looks at every instance, if it does. An update looks at
none when its listing fails. -/
def Kind.look? (k : Kind Env Unit Data) : Operation Env Data → Option Env
  | .updateInstances env => some env
  | .update env true => if (k.discover env ()).value.isOk then some env else none
  | _ => none

/-- The environments in which the operations of a run look at every instance, in order. -/
def Kind.looks (k : Kind Env Unit Data) (steps : List (Step Env Unit Data)) : List Env :=
  steps.filterMap fun step => k.look? step.operation

/-- The instance is as the kind builds it or as a caller brings it with the operation. -/
def Kind.Fresh (k : Kind Env Unit Data) (operation : Operation Env Data) (i : Instance Data) :
    Prop :=
  k.whole = some i ∨ operation.brought? = some i ∨ ∃ env id, k.instantiate env () id = .ok i

/-- The second instance is what a look makes of the first, if there is one. -/
inductive Kind.Look (k : Kind Env Unit Data) (i : Instance Data) : Option Env → Instance Data → Prop
  | none : k.Look i none i
  | some {env : Env} : k.Faultless env () i → k.Look i (some env) (k.lookedAt env () i).2

/-- Where an instance comes from: it was held before, or has been taken in. -/
def Kind.Origin (k : Kind Env Unit Data) (e : Enumeration Unit Data)
    (operation : Operation Env Data) (taken : List Handle) (i : Instance Data) : Prop :=
  (i ∈ e.instances ∧ i.subject ∉ subjectsOf taken) ∨
    (k.Fresh operation i ∧ i.subject ∈ subjectsOf taken)

section Operations
variable {k : Kind Env Unit Data} {e m : Enumeration Unit Data} {i j : Instance Data}

theorem Kind.Look.subject_eq {env? : Option Env} (h : k.Look i env? j) : j.subject = i.subject := by
  cases h with
  | none => rfl
  | some => exact lookedAt_subject ..

end Operations

/-! ### Until it is released -/

section Follow
variable {k : Kind Env Unit Data} {e m e' : Enumeration Unit Data}
  {P : List Env → Instance Data → Prop}

variable (hq : k.Quiet)
  (hlook : ∀ envs env i, P envs i → k.Faultless env () i →
    P (envs ++ [env]) (k.lookedAt env () i).2)
include hq hlook

end Follow

end HostInventory.Enumeration
