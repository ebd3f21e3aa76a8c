import HostInventory.Document
import HostInventory.Inventory.Basic

/-! Snapshots of an inventory.

A snapshot holds a report for each kind: the instance for the whole, the others in
order, and why the last listing failed. An instance is reported with its identity,
with its failure exactly when it has one, and with its data. -/
namespace HostInventory

open Enumeration

structure InstanceReport (Data : Type) where
  /-- Missing for the whole. -/
  id : Option Identity
  failure : Option String
  data : Data
deriving DecidableEq, Repr

def InstanceReport.of {Data : Type} (i : Instance Data) : InstanceReport Data where
  id := i.subject.identity?
  failure := i.failure
  data := i.data

structure KindReport (Data : Type) where
  total : Option (InstanceReport Data)
  instances : List (InstanceReport Data)
  /-- Why the last listing failed. -/
  error : Option String
deriving DecidableEq, Repr

namespace KindReport

/-- How many instances have failed, the whole included. -/
def failed {Data : Type} (r : KindReport Data) : Nat :=
  (r.total.toList ++ r.instances).countP fun i => i.failure.isSome

end KindReport

/-- A report for each kind. -/
abbrev Snapshot := (k : KindName) → KindReport k.Data

namespace Inventory

def report (inv : Inventory) (k : KindName) : KindReport k.Data where
  total := (inv.get k).total.map InstanceReport.of
  instances := (inv.get k).held.map fun entry => InstanceReport.of entry.2
  error := (inv.failure? k).map Failure.message

/-- The snapshot of an inventory that is in use. -/
def snapshot (inv : Inventory) (s : Settings) : Except Fault Snapshot := do
  KindName.all.forM fun k => (inv.get k).require (k.kind s) "get_total_instance"
  return inv.report

end Inventory

namespace Snapshot

/-- The kinds whose last listing failed. -/
def failedKinds (s : Snapshot) : List KindName :=
  KindName.all.filter fun k => (s k).error.isSome

/-- How many instances of all kinds have failed. -/
def failedInstances (s : Snapshot) : Nat :=
  KindName.all.foldl (fun n k => n + (s k).failed) 0

/-- One line on a snapshot. -/
def describe (s : Snapshot) : String :=
  let failed := s.failedInstances
  let kinds := " ".intercalate (s.failedKinds.map KindName.text)
  ", ".intercalate (
    [s!"{(s .cpu).instances.length} cpus", s!"{(s .disk).instances.length} disks",
      s!"{(s .network).instances.length} interfaces",
      s!"{(s .software).instances.length} packages"] ++
    (if failed > 0 then [s!"{failed} failed instances"] else []) ++
    (if kinds.isEmpty then [] else [s!"enumeration failed: {kinds}"]))

end Snapshot
end HostInventory
