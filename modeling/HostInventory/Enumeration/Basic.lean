import HostInventory.Enumeration.Kind
import HostInventory.Enumeration.Outcome

/-! Enumerations.

An enumeration holds the instances of one kind of resource: those with an identity
in order of insertion, each under its own identity, and beside them at most one for
the whole. It is set up once, used, and released once; a released enumeration holds
nothing. An instance leaves it only through `remove`, through being replaced as the
whole, or through `cleanup`, and is released on the way out. -/
namespace HostInventory

open Enumeration (Identity Instance Phase)

structure Enumeration (Cache Data : Type) where
  phase : Phase := .uninitialized
  total : Option (Instance Data) := none
  /-- The instances with an identity, in order of insertion. -/
  held : List (Identity × Instance Data) := []
  cache : Cache

namespace Enumeration

variable {Env Cache Data : Type}

/-- The part of the program that enumerations speak as. -/
def source : String := "syspal::entity::enumeration"

def ids (e : Enumeration Cache Data) : List Identity :=
  e.held.map Prod.fst

/-- The held instance of an identity. -/
def find? (e : Enumeration Cache Data) (id : Identity) : Option (Instance Data) :=
  (List.find? (fun entry => entry.1 = id) e.held).map Prod.snd

def isHeld (e : Enumeration Cache Data) (id : Identity) : Bool :=
  e.held.any fun entry => entry.1 = id

/-- Refuses an operation that needs an initialized enumeration. -/
def require (e : Enumeration Cache Data) (k : Kind Env Cache Data) (operation : String) :
    Except Fault Unit :=
  if e.phase = .initialized then .ok () else .error (.wrongPhase k.name operation e.phase)

/-! ### Reading -/

def get (e : Enumeration Cache Data) (k : Kind Env Cache Data) (id : Identity) :
    Except Fault (Option (Instance Data)) := do
  e.require k "get_instance"
  return e.find? id

def atIndex (e : Enumeration Cache Data) (k : Kind Env Cache Data) (index : Nat) :
    Except Fault (Instance Data) := do
  e.require k "instance_at"
  match e.held[index]? with
  | some entry => .ok entry.2
  | none => .error (.outOfRange k.name index e.held.length)

def getTotal (e : Enumeration Cache Data) (k : Kind Env Cache Data) :
    Except Fault (Option (Instance Data)) := do
  e.require k "get_total_instance"
  return e.total

/-- How many instances have an identity. -/
def size (e : Enumeration Cache Data) (k : Kind Env Cache Data) : Except Fault Nat := do
  e.require k "size"
  return e.held.length

def isEmpty (e : Enumeration Cache Data) (k : Kind Env Cache Data) : Except Fault Bool :=
  (e.size k).map (· == 0)

/-- The instances with an identity, in order. -/
def members (e : Enumeration Cache Data) (k : Kind Env Cache Data) :
    Except Fault (List (Instance Data)) := do
  e.require k "iter"
  return e.held.map Prod.snd

/-- One line on an enumeration, in any phase. -/
def describe (e : Enumeration Cache Data) (k : Kind Env Cache Data) : String :=
  let total := if e.total.isSome then "yes" else "no"
  let ids := ", ".intercalate (e.ids.map Identity.text)
  s!"{k.name} enumeration [{e.phase.name}] size={e.held.length} total={total} ids=[{ids}]"

/-! ### Setting up, adding and releasing -/

/-- Installs the instance for the whole and releases the one before it. -/
def setTotal (e : Enumeration Cache Data) (k : Kind Env Cache Data) (i : Instance Data) :
    Outcome (Enumeration Cache Data) := do
  if i.subject ≠ .whole then Outcome.fault (.notWhole k.name)
  else
    match e.total with
    | none => pure ()
    | some previous => Outcome.calling (.cleanup previous.handle) (pure ())
    return { e with total := some i }

def init (e : Enumeration Cache Data) (k : Kind Env Cache Data) :
    Outcome (Enumeration Cache Data) := do
  if e.phase ≠ .uninitialized then Outcome.fault (.initializedTwice k.name e.phase)
  else
    Outcome.say ⟨.trace, source, s!"{k.name} enumeration init", []⟩
    let e ← match k.whole with
      | some i => e.setTotal k i
      | none => pure e
    return { e with phase := .initialized }

/-- Adds an instance behind the others unless its identity is held; says whether it did. -/
def add (e : Enumeration Cache Data) (k : Kind Env Cache Data) (i : Instance Data) :
    Except Fault (Bool × Enumeration Cache Data) :=
  if e.phase = .cleanedUp then .error (.addedAfterCleanup k.name)
  else
    match i.subject with
    | .whole => .error (.addedWithoutIdentity k.name)
    | .named id =>
      if e.isHeld id then .ok (false, e) else .ok (true, { e with held := e.held ++ [(id, i)] })

/-- Releases the instance of an identity and takes it out; says whether there was one. -/
def remove (e : Enumeration Cache Data) (id : Identity) :
    Outcome (Bool × Enumeration Cache Data) :=
  match e.find? id with
  | none => pure (false, e)
  | some i => do
    Outcome.calling (.cleanup i.handle) (pure ())
    return (true, { e with held := e.held.filter fun entry => entry.1 ≠ id })

/-- Releases every instance and the kind; later calls do nothing. -/
def cleanup (e : Enumeration Cache Data) (k : Kind Env Cache Data) :
    Outcome (Enumeration Cache Data) := do
  if e.phase = .cleanedUp then return e
  else
    Outcome.say ⟨.trace, source, s!"{k.name} enumeration cleanup", []⟩
    (e.total.toList ++ e.held.map Prod.snd).forM fun i =>
      Outcome.calling (.cleanup i.handle) (pure ())
    let cache ← Outcome.calling .release (pure (k.release e.cache))
    return { phase := .cleanedUp, cache }

/-! ### What is held -/

theorem mem_ids {e : Enumeration Cache Data} {id : Identity} :
    id ∈ e.ids ↔ ∃ i, (id, i) ∈ e.held := by
  simp [ids]

theorem isHeld_iff {e : Enumeration Cache Data} {id : Identity} :
    e.isHeld id = true ↔ id ∈ e.ids := by
  simp [isHeld, ids]

/-- An identity is held exactly when there is an instance under it. -/
theorem find?_isSome {e : Enumeration Cache Data} {id : Identity} :
    (e.find? id).isSome = true ↔ id ∈ e.ids := by
  simp [find?, ids]

theorem require_eq_ok {e : Enumeration Cache Data} {k : Kind Env Cache Data} {operation : String} :
    e.require k operation = .ok () ↔ e.phase = .initialized := by
  unfold require
  split <;> simp_all

/-- An identity that is held already is not added, and nothing changes. -/
theorem add_of_isHeld {e : Enumeration Cache Data} {k : Kind Env Cache Data} {i : Instance Data}
    {id : Identity} (hp : e.phase ≠ .cleanedUp) (hi : i.subject = .named id)
    (h : e.isHeld id = true) : e.add k i = .ok (false, e) := by
  simp [add, hp, hi, h]

/-- A new identity is added behind the others. -/
theorem add_of_not_isHeld {e : Enumeration Cache Data} {k : Kind Env Cache Data}
    {i : Instance Data} {id : Identity} (hp : e.phase ≠ .cleanedUp) (hi : i.subject = .named id)
    (h : e.isHeld id = false) :
    e.add k i = .ok (true, { e with held := e.held ++ [(id, i)] }) := by
  simp [add, hp, hi, h]

theorem remove_of_not_mem {e : Enumeration Cache Data} {id : Identity} (h : id ∉ e.ids) :
    e.remove id = pure (false, e) := by
  have : e.find? id = none := by
    simpa only [Bool.not_eq_true, Option.isSome_eq_false_iff, Option.isNone_iff_eq_none] using
      mt find?_isSome.1 h
  simp [remove, this]

/-- A released enumeration stays as it is, and nothing is called. -/
theorem cleanup_of_cleanedUp {e : Enumeration Cache Data} (k : Kind Env Cache Data)
    (h : e.phase = .cleanedUp) : e.cleanup k = pure e := by
  simp [cleanup, h]

end Enumeration
end HostInventory
