import HostInventory.Enumeration.Fault
import HostInventory.Enumeration.Instance
import HostInventory.Log.Event

/-! What an enumeration has to know about a kind of resource.

A kind lists the identities that are there, builds an instance for one, and
refreshes an instance; between two listings it may keep a cache, which instances
are refreshed from. A listing works on the cache and a refresh on the data of the
instance, and where one of them fails, what it has made of these by then is what it
leaves. What a kind says nothing about is: it lists nothing, builds nothing, and
every refresh succeeds without effect. -/
namespace HostInventory.Enumeration

/-- What becomes of a held instance whose identity is no longer listed. -/
inductive RemovalPolicy
  /-- It is released and taken out. -/
  | remove
  /-- It is kept and told that it is absent. -/
  | markStale
  /-- It is kept as it is. -/
  | retain
deriving DecidableEq, Repr

/-- The names of the policies in settings. -/
def RemovalPolicy.name : RemovalPolicy → String
  | .remove => "remove"
  | .markStale => "mark_stale"
  | .retain => "retain"

structure Kind (Env Cache Data : Type) where
  /-- The kind's name in messages. -/
  name : String
  policy : RemovalPolicy := .remove
  /-- The instance for the whole, if the kind has one. -/
  whole : Option (Instance Data) := none
  /-- The identities that are there, in order; on either exit, the cache as it is left. -/
  discover : Env → Cache → Log.Logged (Except (Failure × Cache) (List Identity × Cache)) :=
    fun _ cache => pure (.ok ([], cache))
  /-- The instance for an identity that is new. -/
  instantiate : Env → Cache → Identity → Except Failure (Instance Data) := fun _ _ id =>
    .error (.notSupported s!"{name} has no indexed instances (requested {id.text})")
  /-- A look at the environment; on either exit, the data of the instance as they are left. -/
  refresh : Env → Cache → Instance Data →
      Log.Logged (Except Fault (Except (Failure × Data) Data)) :=
    fun _ _ i => pure (.ok (.ok i.data))
  /-- What a failed refresh does to the data. -/
  afterFailure : Data → Data := id
  /-- Tells an instance whether its identity is listed. -/
  setPresent : Bool → Data → Log.Logged Data := fun _ data => pure data
  /-- The cache once the kind is released. -/
  release : Cache → Cache := id

end HostInventory.Enumeration
