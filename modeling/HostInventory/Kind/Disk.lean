import HostInventory.Enumeration.Kind
import HostInventory.FileTree.Provider
import HostInventory.Format.MountTable
import HostInventory.Kind.Ratio

/-! Disks.

A disk is a mounted filesystem under its mount point. Rows of the mount table whose
type is ignored count for nothing, and of several rows for one mount point the last
one is what can be seen there. A disk whose mount point is no longer listed is
offline: it is not asked for its space, and keeps its last figures. -/
namespace HostInventory.Disk

open Enumeration FileTree

/-- Types of filesystems that no disk stands behind. -/
def defaultIgnored : List String :=
  ["autofs", "binfmt_misc", "bpf", "cgroup", "cgroup2", "configfs", "debugfs", "devpts",
    "devtmpfs", "fusectl", "hugetlbfs", "mqueue", "nsfs", "proc", "pstore", "ramfs", "rpc_pipefs",
    "securityfs", "selinuxfs", "squashfs", "sysfs", "tmpfs", "tracefs"]

structure Info where
  mountPoint : String
  device : String
  kind : String
  online : Bool := true
  space : Option Space := none
deriving DecidableEq, Repr

namespace Info

/-- The share in use of the space that users without privileges can reach, if there is
any such space. -/
def usedShare (space : Space) : Option Ratio :=
  let reserved := space.freeBytes - space.availableBytes
  let usable := space.totalBytes - reserved
  if usable = 0 then none else some ⟨space.totalBytes - space.freeBytes, usable⟩

def usedPercent (info : Info) : Option Float :=
  (info.space.bind usedShare).map Ratio.percent

end Info

/-- The mounts that no ignored type hides, in order. -/
abbrev Mounts := List Format.Mount

/-- What can be seen at a mount point. -/
def Mounts.at? (mounts : Mounts) (point : String) : Option Format.Mount :=
  mounts.reverse.find? fun m => m.point = point

/-- Puts the mounts of a table that are disks in the place of the last ones. -/
def discover (table : Path) (ignored : List String) (host : Provider) (last : Mounts) :
    Except (Failure × Mounts) (List Identity × Mounts) := do
  let all ← leaving last (readAs (host.read table) Format.MountTable.read)
  let mounts := all.filter fun m => !ignored.contains m.kind
  return (mounts.map fun m => ⟨m.point⟩, mounts)

def instantiate (mounts : Mounts) (id : Identity) : Except Failure (Instance Info) :=
  match mounts.at? id.text with
  | some m =>
    .ok (Instance.fresh ⟨m.point⟩ { mountPoint := m.point, device := m.device, kind := m.kind })
  | none => .error (.gone s!"mount point {id.text}")

/-- Asks an online disk for its space. -/
def look (host : Provider) (info : Info) : Except (Failure × Info) Info :=
  if !info.online then .ok info
  else
    match host.space ⟨info.mountPoint⟩ with
    | .ok space => .ok { info with space := some space }
    | .error e => .error (.io e, info)

def source : String := "syspal::collector::disk"

/-- The disk with its mount point listed or not, and a remark when that is a change. -/
def setPresent (present : Bool) (info : Info) : Log.Logged Info := do
  if info.online ≠ present then
    let state := if present then "online" else "offline"
    Log.Logged.say ⟨.debug, source, s!"disk {info.mountPoint} is now {state}", []⟩
  return { info with online := present }

def kind (proc : Path) (ignored : List String) (policy : RemovalPolicy) :
    Kind Provider Mounts Info where
  name := "disk"
  policy
  discover host mounts := pure (discover (proc / ⟨"mounts"⟩) ignored host mounts)
  instantiate _ mounts id := instantiate mounts id
  refresh host _ i := pure (.ok (look host i.data))
  setPresent
  release _ := []

end HostInventory.Disk
