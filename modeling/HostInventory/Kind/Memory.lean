import HostInventory.Enumeration.Kind
import HostInventory.FileTree.Provider
import HostInventory.Format.MemInfo
import HostInventory.Kind.Ratio

/-! Memory.

Memory is one instance for the whole host, refreshed from the kernel's memory
table. What is available is the table's own figure and, where that is missing or
zero, what is free or could be freed; what is used is the rest of the total, and
nothing when more is available than there is. -/
namespace HostInventory.Memory

open Enumeration FileTree

/-- Figures in kibibytes. -/
structure Info where
  total : Nat := 0
  free : Nat := 0
  available : Nat := 0
  buffers : Nat := 0
  cached : Nat := 0
  used : Nat := 0
  swapTotal : Nat := 0
  swapFree : Nat := 0
  swapUsed : Nat := 0
deriving DecidableEq, Repr

namespace Info

/-- The share of memory in use, if there is any memory. -/
def usedShare (info : Info) : Option Ratio :=
  if info.total = 0 then none else some ⟨info.used, info.total⟩

def usedPercent (info : Info) : Float :=
  match info.usedShare with
  | none => 0.0
  | some share => share.percent

end Info

/-- The sum of two counts, if it fits into 64 bits. -/
def addBelow64? (a b : Nat) : Option Nat :=
  if a + b < Text.wordBound64 then some (a + b) else none

/-- What is available by the table, if the sum that may be needed fits into 64 bits. -/
def available? (m : Format.MemInfo) : Option Nat :=
  if m.available > 0 then some m.available
  else (addBelow64? m.free m.buffers).bind fun sum => addBelow64? sum m.cached

/-- The figures of a table. -/
def Info.ofTable (m : Format.MemInfo) (available : Nat) : Info where
  total := m.total
  free := m.free
  available := available
  buffers := m.buffers
  cached := m.cached
  used := m.total - available
  swapTotal := m.swapTotal
  swapFree := m.swapFree
  swapUsed := m.swapTotal - m.swapFree

def source : String := "syspal::collector::memory"

/-- Puts the figures of the memory table at a path in the place of the last ones. -/
def look (table : Path) (host : Provider) (last : Info) :
    Log.Logged (Except Fault (Except (Failure × Info) Info)) :=
  match host.read table with
  | .error e => pure (.ok (.error (.io e, last)))
  | .ok text =>
    let m := Format.MemInfo.read text
    if !m.hasTotal then
      pure (.ok (.error (.unavailable s!"MemTotal missing from {table.spelling}", last)))
    else
      match available? m with
      | none => pure (.error .overflow)
      | some available => do
        let info := Info.ofTable m available
        Log.Logged.say
          ⟨.trace, source, s!"memory: total={info.total} kB used={info.used} kB", []⟩
        return .ok (.ok info)

def kind (proc : Path) : Kind Provider Unit Info where
  name := "memory"
  whole := some (Instance.ofWhole {})
  refresh host _ i := look (proc / ⟨"meminfo"⟩) host i.data

end HostInventory.Memory
