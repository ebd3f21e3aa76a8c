import HostInventory.Enumeration.Kind
import HostInventory.Kind.Disk

/-! Settings of the agent.

Every setting has a default, so a host is inventoried without any. -/
namespace HostInventory

/-- Roots of the provider trees. -/
structure Paths where
  proc : FileTree.Path := ⟨"/proc"⟩
  sys : FileTree.Path := ⟨"/sys"⟩
  etc : FileTree.Path := ⟨"/etc"⟩
  /-- Holds the second place of the distribution's file. -/
  usr : FileTree.Path := ⟨"/usr"⟩
  packages : FileTree.Path := ⟨"/var/lib/dpkg/status"⟩
deriving DecidableEq, Repr

/-- A threshold for all log events, and thresholds for parts of the program in the order
of their names. -/
structure LogSettings where
  level : Log.Severity := .info
  modules : List (String × Log.Severity) := []
deriving DecidableEq, Repr

structure DiskSettings where
  removal : Enumeration.RemovalPolicy := .remove
  /-- Types of filesystems that are no disks. -/
  ignored : List String := Disk.defaultIgnored
deriving DecidableEq, Repr

structure NetworkSettings where
  removal : Enumeration.RemovalPolicy := .remove
  /-- Interfaces that are down or not running are listed too. -/
  all : Bool := false
deriving DecidableEq, Repr

structure Settings where
  paths : Paths := {}
  log : LogSettings := {}
  /-- Seconds between two updates. -/
  interval : Nat := 10
  cpu : Enumeration.RemovalPolicy := .remove
  disk : DiskSettings := {}
  network : NetworkSettings := {}
  /-- Packages that are gone stay visible until the agent starts anew. -/
  software : Enumeration.RemovalPolicy := .retain
deriving DecidableEq, Repr

end HostInventory
