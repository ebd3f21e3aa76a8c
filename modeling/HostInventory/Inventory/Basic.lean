import HostInventory.Enumeration.Update
import HostInventory.Kind.Bios
import HostInventory.Kind.Cpu
import HostInventory.Kind.Disk
import HostInventory.Kind.Memory
import HostInventory.Kind.Network
import HostInventory.Kind.Os
import HostInventory.Kind.Software
import HostInventory.Settings.Basic

/-! The inventory of a host.

An inventory is one enumeration for each of seven kinds of resource, updated one
after another in a fixed order. A kind whose listing fails keeps what it holds and
has its failure recorded until a later listing succeeds; it does not keep the other
kinds from being updated. -/
namespace HostInventory

open Enumeration FileTree

/-- The kinds of resource that are inventoried. -/
inductive KindName
  | memory | os | bios | cpu | disk | network | software
deriving DecidableEq, Repr

namespace KindName

/-- The kinds in the order in which they are updated. -/
def all : List KindName := [.memory, .os, .bios, .cpu, .disk, .network, .software]

theorem mem_all (k : KindName) : k ∈ all := by
  cases k <;> decide

theorem nodup_all : all.Nodup := by decide

def text : KindName → String
  | .memory => "memory"
  | .os => "os"
  | .bios => "bios"
  | .cpu => "cpu"
  | .disk => "disk"
  | .network => "network"
  | .software => "software"

def ofText? (s : String) : Option KindName :=
  all.find? fun k => k.text = s

/-- What a kind keeps between two listings. -/
@[reducible] def Cache : KindName → Type
  | .memory | .os | .bios | .cpu | .network => Unit
  | .disk => Disk.Mounts
  | .software => Software.Snapshot

/-- What an instance of a kind holds. -/
@[reducible] def Data : KindName → Type
  | .memory => Memory.Info
  | .os => Os.Info
  | .bios => Bios.Info
  | .cpu => Cpu.Data
  | .disk => Disk.Info
  | .network => Network.Info
  | .software => Software.Data

/-- A kind under given settings. -/
def kind (s : Settings) : (k : KindName) → Kind Provider k.Cache k.Data
  | .memory => Memory.kind s.paths.proc
  | .os => Os.kind s.paths.proc s.paths.etc s.paths.usr
  | .bios => Bios.kind s.paths.sys
  | .cpu => Cpu.kind s.paths.proc s.cpu
  | .disk => Disk.kind s.paths.proc s.disk.ignored s.disk.removal
  | .network => Network.kind s.paths.proc s.paths.sys s.network.all s.network.removal
  | .software => Software.kind s.paths.packages s.software

/-- A kind's enumeration before it is set up. -/
def empty : (k : KindName) → Enumeration k.Cache k.Data
  | .memory | .os | .bios | .cpu | .network => { cache := () }
  | .disk | .software => { cache := [] }

end KindName

structure Inventory where
  memory : Enumeration KindName.memory.Cache KindName.memory.Data := KindName.memory.empty
  os : Enumeration KindName.os.Cache KindName.os.Data := KindName.os.empty
  bios : Enumeration KindName.bios.Cache KindName.bios.Data := KindName.bios.empty
  cpu : Enumeration KindName.cpu.Cache KindName.cpu.Data := KindName.cpu.empty
  disk : Enumeration KindName.disk.Cache KindName.disk.Data := KindName.disk.empty
  network : Enumeration KindName.network.Cache KindName.network.Data := KindName.network.empty
  software : Enumeration KindName.software.Cache KindName.software.Data := KindName.software.empty
  /-- Why the last listing of a kind failed, for the kinds for which it did. -/
  failures : List (KindName × Failure) := []
  /-- Whether an update has been finished. -/
  updated : Bool := false

namespace Inventory

/-- The enumeration of a kind. -/
def get (inv : Inventory) : (k : KindName) → Enumeration k.Cache k.Data
  | .memory => inv.memory
  | .os => inv.os
  | .bios => inv.bios
  | .cpu => inv.cpu
  | .disk => inv.disk
  | .network => inv.network
  | .software => inv.software

/-- The inventory with another enumeration for a kind. -/
def set (inv : Inventory) : (k : KindName) → Enumeration k.Cache k.Data → Inventory
  | .memory, e => { inv with memory := e }
  | .os, e => { inv with os := e }
  | .bios, e => { inv with bios := e }
  | .cpu, e => { inv with cpu := e }
  | .disk, e => { inv with disk := e }
  | .network, e => { inv with network := e }
  | .software, e => { inv with software := e }

@[simp] theorem get_set_self (inv : Inventory) (k : KindName) (e : Enumeration k.Cache k.Data) :
    (inv.set k e).get k = e := by
  cases k <;> rfl

theorem get_set_of_ne (inv : Inventory) {k k' : KindName} (h : k' ≠ k)
    (e : Enumeration k.Cache k.Data) : (inv.set k e).get k' = inv.get k' := by
  cases k <;> cases k' <;> simp_all [get, set]

/-- The failure recorded for a kind. -/
def failure? (inv : Inventory) (k : KindName) : Option Failure :=
  inv.failures.lookup k

def setFailure (inv : Inventory) (k : KindName) (f : Failure) : Inventory :=
  { inv with failures := (k, f) :: inv.failures.filter fun entry => entry.1 ≠ k }

def clearFailure (inv : Inventory) (k : KindName) : Inventory :=
  { inv with failures := inv.failures.filter fun entry => entry.1 ≠ k }

/-- How many kinds have a failure recorded. -/
def failedKinds (inv : Inventory) : Nat :=
  inv.failures.length

theorem failure?_setFailure_self (inv : Inventory) (k : KindName) (f : Failure) :
    (inv.setFailure k f).failure? k = some f := by
  simp [failure?, setFailure]

theorem lookup_filter_of_ne {fs : List (KindName × Failure)} {k k' : KindName} (h : k' ≠ k) :
    (fs.filter fun entry => entry.1 ≠ k).lookup k' = fs.lookup k' := by
  induction fs with
  | nil => rfl
  | cons entry rest ih =>
    obtain ⟨k₀, f⟩ := entry
    by_cases h₀ : k₀ = k
    · subst h₀
      simpa [List.lookup_cons, beq_false_of_ne h] using ih
    · simp only [List.filter_cons, ne_eq, h₀, not_false_eq_true, decide_true, if_true,
        List.lookup_cons]
      simp only [ne_eq] at ih
      rw [ih]

theorem failure?_setFailure_of_ne (inv : Inventory) {k k' : KindName} (h : k' ≠ k) (f : Failure) :
    (inv.setFailure k f).failure? k' = inv.failure? k' := by
  simp only [failure?, setFailure, List.lookup_cons, beq_false_of_ne h]
  exact lookup_filter_of_ne h

theorem failure?_clearFailure_self (inv : Inventory) (k : KindName) :
    (inv.clearFailure k).failure? k = none := by
  simp only [failure?, clearFailure, List.lookup_eq_none_iff, List.mem_filter, bne_iff_ne]
  exact fun entry h => Ne.symm (of_decide_eq_true h.2)

theorem failure?_clearFailure_of_ne (inv : Inventory) {k k' : KindName} (h : k' ≠ k) :
    (inv.clearFailure k).failure? k' = inv.failure? k' :=
  lookup_filter_of_ne h

def source : String := "syspal::collector::inventory"

/-! ### Operations -/

/-- Updates one kind and keeps account of its listing. -/
def updateKind (s : Settings) (host : Provider) (refresh : Bool) (k : KindName)
    (inv : Inventory) : Outcome Inventory := do
  let (report, e) ← (inv.get k).update (k.kind s) host refresh
  let inv := inv.set k e
  match report with
  | .ok report =>
    let r := report.reconciliation
    if !r.isUnchanged then
      Outcome.say ⟨.info, source,
        s!"{k.text}: {r.added.length} added, {r.removed.length} removed", []⟩
    return inv.clearFailure k
  | .error f =>
    Outcome.say ⟨.warn, source, s!"{k.text} enumeration failed: {f.message}", []⟩
    return inv.setFailure k f

/-- Applies an operation for one kind after another. -/
def forKinds (f : KindName → Inventory → Outcome Inventory) :
    List KindName → Inventory → Outcome Inventory
  | [], inv => pure inv
  | k :: rest, inv => do
    let inv ← f k inv
    forKinds f rest inv

/-- Updates every kind in order. -/
def update (inv : Inventory) (s : Settings) (host : Provider) (refresh : Bool) :
    Outcome Inventory := do
  let inv ← forKinds (updateKind s host refresh) KindName.all inv
  Outcome.say ⟨.debug, source, "inventory update took", []⟩
  return { inv with updated := true }

def initKind (s : Settings) (k : KindName) (inv : Inventory) : Outcome Inventory := do
  let e ← (inv.get k).init (k.kind s)
  return inv.set k e

/-- Sets up every kind and updates them for the first time. -/
def init (inv : Inventory) (s : Settings) (host : Provider) : Outcome Inventory := do
  let inv ← forKinds (initKind s) KindName.all inv
  let inv ← inv.update s host true
  let size (k : KindName) := (inv.get k).held.length
  let counts := s!"{size .cpu} cpus, {size .disk} disks, {size .network} interfaces"
  Outcome.say ⟨.info, source,
    s!"inventory initialized: {counts}, {size .software} packages ({inv.failedKinds} kinds failed)",
    []⟩
  return inv

def cleanupKind (s : Settings) (k : KindName) (inv : Inventory) : Outcome Inventory := do
  let e ← (inv.get k).cleanup (k.kind s)
  return inv.set k e

/-- Releases every kind, the last one updated first. -/
def cleanup (inv : Inventory) (s : Settings) : Outcome Inventory :=
  forKinds (cleanupKind s) KindName.all.reverse inv

/-- Releases whatever is not released yet, in the order of updates. -/
def drop (inv : Inventory) (s : Settings) : Outcome Inventory :=
  forKinds (cleanupKind s) KindName.all inv

/-- One line on each kind's enumeration. -/
def describe (inv : Inventory) (s : Settings) : List String :=
  KindName.all.map fun k => (inv.get k).describe (k.kind s)

end Inventory
end HostInventory
