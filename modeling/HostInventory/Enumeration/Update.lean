import HostInventory.Enumeration.Basic

/-! Updating an enumeration.

An update has two phases. Reconciliation lists what is there, builds an instance for
each identity that is new, deals with the held ones that are no longer listed as the
kind's policy says, and adds the new ones behind the others; where the listing fails,
none of this is begun. The refresh, which is optional, looks at every instance, the whole
first; one that fails records why, and the others are refreshed all the same. -/
namespace HostInventory.Enumeration

variable {Env Cache Data : Type}

/-- What a reconciliation changed. -/
structure Reconciliation where
  /-- New identities, in the order they were added. -/
  added : List Identity := []
  /-- Identities that were taken out. -/
  removed : List Identity := []
  /-- Identities that were told to be absent. -/
  stale : List Identity := []
  /-- New identities that no instance could be built for. -/
  skipped : List Identity := []
deriving DecidableEq, Repr

def Reconciliation.isUnchanged (r : Reconciliation) : Bool :=
  r.added.isEmpty && r.removed.isEmpty

/-- How a refresh went. -/
structure RefreshCount where
  refreshed : Nat := 0
  failed : Nat := 0
deriving DecidableEq, Repr

structure UpdateReport where
  reconciliation : Reconciliation
  /-- Missing when nothing was refreshed. -/
  refresh : Option RefreshCount
deriving DecidableEq, Repr

/-! ### Reconciliation -/

/-- What has become of the listing so far. -/
structure Survey (Data : Type) where
  seen : List Identity := []
  /-- The instances built, last first. -/
  built : List (Instance Data) := []
  /-- The identities that could not be built, last first. -/
  skipped : List Identity := []

/-- Goes through the listing and builds an instance for each identity that is neither
held nor seen before. -/
def survey (e : Enumeration Cache Data) (k : Kind Env Cache Data) (env : Env) :
    List Identity → Survey Data → Outcome (Survey Data)
  | [], s => pure s
  | id :: rest, s =>
    if s.seen.contains id then survey e k env rest s
    else
      let s := { s with seen := id :: s.seen }
      if e.isHeld id then survey e k env rest s
      else do
        match ← Outcome.calling (.instantiate id) (pure (k.instantiate env e.cache id)) with
        | .ok i =>
          if i.subject = .named id then survey e k env rest { s with built := i :: s.built }
          else Outcome.fault (.misnamed k.name id)
        | .error f =>
          Outcome.say ⟨.warn, source,
            s!"{k.name} instance {id.text} could not be created: {f.message}", []⟩
          survey e k env rest { s with skipped := id :: s.skipped }

/-- Takes out the given identities, one after another. -/
def removeAll (k : Kind Env Cache Data) :
    List Identity → Enumeration Cache Data → Outcome (Enumeration Cache Data)
  | [], e => pure e
  | id :: rest, e => do
    Outcome.say ⟨.debug, source, s!"{k.name} instance {id.text} vanished, removing", []⟩
    let (_, e) ← e.remove id
    removeAll k rest e

/-- Tells the held instances, in order, whether they are listed. -/
def markAll (k : Kind Env Cache Data) (seen : List Identity) :
    List (Identity × Instance Data) → Outcome (List (Identity × Instance Data))
  | [] => pure []
  | (id, i) :: rest => do
    let present := seen.contains id
    let data ← Outcome.calling (if present then .present i.subject else .absent i.subject)
      (Outcome.ofLogged (k.setPresent present i.data))
    let rest ← markAll k seen rest
    return (id, { i with data }) :: rest

/-- Adds the new instances, and answers with the identities of those it added. -/
def addAll (k : Kind Env Cache Data) :
    List (Instance Data) → Enumeration Cache Data → Outcome (List Identity × Enumeration Cache Data)
  | [], e => pure ([], e)
  | i :: rest, e => do
    let (isNew, e) ← Outcome.ofExcept (e.add k i)
    match isNew, i.subject with
    | true, .named id =>
      Outcome.say ⟨.debug, source, s!"{k.name} instance {id.text} discovered", []⟩
      let (ids, e) ← addAll k rest e
      return (id :: ids, e)
    | _, _ => addAll k rest e

/-- Deals with a listing that succeeded. -/
def reconcile (e : Enumeration Cache Data) (k : Kind Env Cache Data) (env : Env)
    (listing : List Identity) : Outcome (Reconciliation × Enumeration Cache Data) := do
  let s ← survey e k env listing {}
  let vanished := e.ids.filter fun id => !s.seen.contains id
  let (removed, stale, e) ← match k.policy with
    | .remove => do
      let e ← removeAll k vanished e
      pure (vanished, [], e)
    | .markStale => do
      let held ← markAll k s.seen e.held
      pure ([], vanished, { e with held })
    | .retain => pure ([], [], e)
  let (added, e) ← addAll k s.built.reverse e
  return ({ added, removed, stale, skipped := s.skipped.reverse }, e)

/-- Matches what is held to what is there. -/
def updateEnumeration (e : Enumeration Cache Data) (k : Kind Env Cache Data) (env : Env) :
    Outcome (Except Failure Reconciliation × Enumeration Cache Data) := do
  Outcome.ofExcept (e.require k "update_enumeration")
  match ← Outcome.calling .discover (Outcome.ofLogged (k.discover env e.cache)) with
  | .error (f, cache) => return (.error f, { e with cache })
  | .ok (listing, cache) =>
    let (r, e) ← reconcile { e with cache } k env listing
    return (.ok r, e)

/-! ### Refresh -/

/-- The count with one more instance. -/
def RefreshCount.record (c : RefreshCount) (succeeded : Bool) : RefreshCount :=
  if succeeded then { c with refreshed := c.refreshed + 1 } else { c with failed := c.failed + 1 }

/-- Looks at one instance, and says whether that succeeded. -/
def refreshOne (k : Kind Env Cache Data) (env : Env) (cache : Cache) (i : Instance Data) :
    Outcome (Bool × Instance Data) := do
  let found ← Outcome.calling (.update i.subject) (Outcome.ofLogged (k.refresh env cache i.reset))
  match ← Outcome.ofExcept found with
  | .ok data => return (true, { i.reset with data })
  | .error (f, data) =>
    Outcome.say ⟨.warn, source,
      s!"{k.name} instance {i.subject.label} update failed: {f.message}", ["location"]⟩
    return (false, Instance.capture { i with data := k.afterFailure data } f)

/-- Looks at the whole, if there is one. -/
def refreshTotal (k : Kind Env Cache Data) (env : Env) (cache : Cache) :
    Option (Instance Data) → Outcome (RefreshCount × Option (Instance Data))
  | none => pure ({}, none)
  | some i => do
    let (succeeded, i) ← refreshOne k env cache i
    return (RefreshCount.record {} succeeded, some i)

/-- Looks at the held instances in order, whatever becomes of each. -/
def refreshHeld (k : Kind Env Cache Data) (env : Env) (cache : Cache) (count : RefreshCount) :
    List (Identity × Instance Data) → Outcome (RefreshCount × List (Identity × Instance Data))
  | [] => pure (count, [])
  | (id, i) :: rest => do
    let (succeeded, i) ← refreshOne k env cache i
    let (count, rest) ← refreshHeld k env cache (count.record succeeded) rest
    return (count, (id, i) :: rest)

/-- Looks at every instance, the whole first. -/
def updateInstances (e : Enumeration Cache Data) (k : Kind Env Cache Data) (env : Env) :
    Outcome (RefreshCount × Enumeration Cache Data) := do
  Outcome.ofExcept (e.require k "update_instances")
  let (count, total) ← refreshTotal k env e.cache e.total
  let (count, held) ← refreshHeld k env e.cache count e.held
  return (count, { e with total, held })

/-- Matches what is held to what is there and then, if asked, looks at every instance. -/
def update (e : Enumeration Cache Data) (k : Kind Env Cache Data) (env : Env) (refresh : Bool) :
    Outcome (Except Failure UpdateReport × Enumeration Cache Data) := do
  Outcome.ofExcept (e.require k "update")
  match ← e.updateEnumeration k env with
  | (.error f, e) => return (.error f, e)
  | (.ok reconciliation, e) =>
    if refresh then
      let (count, e) ← e.updateInstances k env
      return (.ok ⟨reconciliation, some count⟩, e)
    else return (.ok ⟨reconciliation, none⟩, e)

end HostInventory.Enumeration
