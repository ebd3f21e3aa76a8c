import HostInventory.Enumeration.Instance

/-! Misuse and overflow.

A fault ends the operation it arises in and everything around it. Most faults are
operations that an enumeration does not admit in its phase; the last one is a sum
that does not fit into 64 bits. -/
namespace HostInventory.Enumeration

/-- Where an enumeration is in its life. -/
inductive Phase
  | uninitialized
  | initialized
  | cleanedUp
deriving DecidableEq, Repr

def Phase.name : Phase → String
  | .uninitialized => "Uninitialized"
  | .initialized => "Initialized"
  | .cleanedUp => "CleanedUp"

inductive Fault
  | initializedTwice (kind : String) (phase : Phase)
  /-- An instance with an identity was given as the whole. -/
  | notWhole (kind : String)
  | addedAfterCleanup (kind : String)
  /-- The instance for a whole was added among those with an identity. -/
  | addedWithoutIdentity (kind : String)
  /-- An instance was built under another identity than asked for. -/
  | misnamed (kind : String) (id : Identity)
  | wrongPhase (kind operation : String) (phase : Phase)
  | outOfRange (kind : String) (index size : Nat)
  | overflow
deriving DecidableEq, Repr

def Fault.message : Fault → String
  | .initializedTwice kind phase =>
    s!"{kind} enumeration initialized twice (state {phase.name})"
  | .notWhole kind => s!"{kind} total slot given a non-total instance"
  | .addedAfterCleanup kind => s!"{kind} add_instance after cleanup"
  | .addedWithoutIdentity kind => s!"{kind} add_instance without identity"
  | .misnamed kind id => s!"{kind} instantiated {id.text} with a different identity"
  | .wrongPhase kind operation phase =>
    s!"{kind} enumeration: {operation} called in state {phase.name}"
  | .outOfRange kind index size =>
    s!"{kind} instance index {index} out of range (size {size})"
  | .overflow => "attempt to add with overflow"

end HostInventory.Enumeration
