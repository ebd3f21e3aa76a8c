import HostInventory.Failure

/-! Identities and instances.

An instance is one tracked unit of a kind of resource: the whole of it, or the one
with a given identity. Identities are compared as they are written, so two spellings
of one place are two identities. Beside its data an instance carries the message of
its last refresh, if that failed, and a serial number from whoever built it; nothing
depends on the number, but a record of what was done with an instance can name it. -/
namespace HostInventory.Enumeration

structure Identity where
  text : String
deriving DecidableEq, Repr

namespace Identity

/-- Identities are ordered by the bytes of their texts. -/
def precedes (a b : Identity) : Bool :=
  a.text < b.text

end Identity

/-- What an instance is about. -/
inductive Subject
  | whole
  | named (id : Identity)
deriving DecidableEq, Repr

namespace Subject

def identity? : Subject → Option Identity
  | .whole => none
  | .named id => some id

/-- The name of a subject in messages. -/
def label : Subject → String
  | .whole => "total"
  | .named id => id.text

end Subject

/-- Names one instance among all with its subject. -/
structure Handle where
  subject : Subject
  serial : Nat := 0
deriving DecidableEq, Repr

instance : Coe Handle Subject := ⟨Handle.subject⟩

structure Instance (Data : Type) where
  subject : Subject
  /-- The message of the last refresh, if it failed. -/
  failure : Option String := none
  data : Data
  serial : Nat := 0
deriving DecidableEq, Repr

namespace Instance

variable {Data : Type}

/-- The instance of an identity that has not been refreshed. -/
def fresh (id : Identity) (data : Data) : Instance Data :=
  { subject := .named id, data }

/-- The instance for the whole of a kind that has not been refreshed. -/
def ofWhole (data : Data) : Instance Data :=
  { subject := .whole, data }

def handle (i : Instance Data) : Handle :=
  ⟨i.subject, i.serial⟩

def isWhole (i : Instance Data) : Bool :=
  i.subject = .whole

/-- Records why a refresh failed. -/
def capture (i : Instance Data) (f : Failure) : Instance Data :=
  { i with failure := some f.message }

/-- Forgets the failure of an earlier refresh. -/
def reset (i : Instance Data) : Instance Data :=
  { i with failure := none }

end Instance
end HostInventory.Enumeration
