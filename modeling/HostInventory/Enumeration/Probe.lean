import HostInventory.Enumeration.Update

/-! Scripted kinds.

A probe does what its script says: it lists what the script lists, and fails where
the script says so. It shows what an enumeration does with a kind, without a host.
A bare kind lists and leaves all else as it is by default. -/
namespace HostInventory.Enumeration.Probe

/-- What the kind does when it is called. -/
structure Script where
  live : List Identity := []
  /-- Why listing fails, if it does. -/
  listing : Option Failure := none
  /-- Why the refresh of a subject fails, by the subject's name. -/
  failing : List (String × Failure) := []
  /-- Identities that no instance can be built for. -/
  broken : List Identity := []
  /-- Identities that get an instance under another identity. -/
  aliases : List (Identity × Identity) := []

structure Data where
  tag : Nat := 0
  /-- Refreshes that succeeded. -/
  refreshed : Nat := 0
  present : Bool := true
deriving DecidableEq, Repr

/-- How a script names a subject. -/
def name : Subject → String
  | .whole => "<total>"
  | .named id => id.text

namespace Script

def fail (s : Script) (subject : String) (f : Failure) : Script :=
  { s with failing := (subject, f) :: s.failing.filter fun entry => entry.1 ≠ subject }

def heal (s : Script) (subject : String) : Script :=
  { s with failing := s.failing.filter fun entry => entry.1 ≠ subject }

def rename (s : Script) (id shown : Identity) : Script :=
  { s with aliases := (id, shown) :: s.aliases }

end Script

def kind (policy : RemovalPolicy) (hasTotal : Bool) : Kind Script Unit Data where
  name := "probe"
  policy
  whole := if hasTotal then some (Instance.ofWhole {}) else none
  discover script _ :=
    match script.listing with
    | some f => pure (.error (f, ()))
    | none => pure (.ok (script.live, ()))
  instantiate script _ id :=
    if script.broken.contains id then .error (.parse s!"bad entry {id.text}")
    else .ok (Instance.fresh ((script.aliases.lookup id).getD id) {})
  refresh script _ i :=
    match script.failing.lookup (name i.subject) with
    | some f => pure (.ok (.error (f, i.data)))
    | none => pure (.ok (.ok { i.data with refreshed := i.data.refreshed + 1 }))
  setPresent present data := pure { data with present }

def bare : Kind (List Identity) Unit Unit where
  name := "bare"
  discover live _ := pure (.ok (live, ()))

end HostInventory.Enumeration.Probe
