import HostInventory.Enumeration.Kind
import HostInventory.FileTree.Provider
import HostInventory.Format.CpuTicks
import HostInventory.Kind.Ratio

/-! Processors.

Each processor is an instance under its number, and all together are the whole. What
a processor did is known only between two samples that follow each other without a
failure in between and with time elapsed from the first to the second, so the first
refresh reports no usage, and a failed one breaks the chain. -/
namespace HostInventory.Cpu

open Enumeration FileTree Format

/-- Ticks spent in each state between two samples. -/
structure Usage where
  elapsed : Nat
  user : Nat
  nice : Nat
  system : Nat
  idle : Nat
  iowait : Nat
  irq : Nat
  softirq : Nat
  steal : Nat
deriving DecidableEq, Repr

namespace Usage

/-- A state's share of the elapsed time. -/
def share (u : Usage) (ticks : Nat) : Ratio := ⟨ticks, u.elapsed⟩

/-- The share of all states but idling and waiting: what these two leave of a hundred
percent, if they leave anything. -/
def busyOf {α : Type} [Sub α] [LT α] [DecidableLT α] (zero hundred : α) (percent : Ratio → α)
    (u : Usage) : α :=
  let rest := hundred - percent (u.share u.idle) - percent (u.share u.iowait)
  if rest < zero then zero else rest

def busyPercent (u : Usage) : Float :=
  u.busyOf 0.0 100.0 Ratio.percent

/-- What happened from one sample, with its total, to another; nothing can be said when
no time has elapsed. -/
def between (before : CpuTicks) (totalBefore : Nat) (now : CpuTicks) (totalNow : Nat) :
    Option Usage :=
  if totalNow - totalBefore = 0 then none
  else some {
    elapsed := totalNow - totalBefore
    user := now.user - before.user
    nice := now.nice - before.nice
    system := now.system - before.system
    idle := now.idle - before.idle
    iowait := now.iowait - before.iowait
    irq := now.irq - before.irq
    softirq := now.softirq - before.softirq
    steal := now.steal - before.steal }

end Usage

structure Info where
  /-- The processor's number; all together have none. -/
  processor : Option Nat
  /-- The ticks since the system started. -/
  totalTicks : Nat := 0
  usage : Option Usage := none
deriving DecidableEq, Repr

/-- What is reported about a processor, and the sample that the next one is measured
against. -/
structure Data where
  info : Info
  previous : Option CpuTicks := none
deriving DecidableEq, Repr

/-- The start of a processor's line. -/
def label : Option Nat → String
  | none => "cpu"
  | some n => s!"cpu{n}"

/-- The data after a sample, if its total and the one before fit into 64 bits. -/
def Data.sample? (d : Data) (now : CpuTicks) : Option Data := do
  let total ← now.total?
  let usage ← match d.previous with
    | none => some none
    | some before => before.total?.map fun totalBefore => Usage.between before totalBefore now total
  return { info := { d.info with totalTicks := total, usage }, previous := some now }

/-- The data of a processor after a look at the statistics. -/
def look (statistics : Path) (host : Provider) (d : Data) :
    Except Fault (Except (Failure × Data) Data) :=
  match readAs (host.read statistics) CpuTicks.read with
  | .error f => .ok (.error (f, d))
  | .ok all =>
    match CpuTicks.find d.info.processor all with
    | none =>
      .ok (.error (.gone s!"{label d.info.processor} line in {statistics.spelling}", d))
    | some now =>
      match d.sample? now with
      | none => .error .overflow
      | some d => .ok (.ok d)

/-- The numbers of the processors that the statistics list. -/
def discover (statistics : Path) (host : Provider) : Except Failure (List Identity) :=
  (readAs (host.read statistics) CpuTicks.read).map fun all =>
    (all.filterMap CpuTicks.processor).map fun n => ⟨toString n⟩

def instantiate (id : Identity) : Except Failure (Instance Data) :=
  match Text.readNumeral Text.wordBound32 id.text.toList with
  | some n => .ok (Instance.fresh ⟨toString n⟩ { info := { processor := some n } })
  | none => .error (.parse s!"cpu identity '{id.text}' is not a number")

def kind (proc : Path) (policy : RemovalPolicy) : Kind Provider Unit Data where
  name := "cpu"
  policy
  whole := some (Instance.ofWhole { info := { processor := none } })
  discover host _ :=
    pure ((leaving () (discover (proc / ⟨"stat"⟩) host)).map fun ids => (ids, ()))
  instantiate _ _ id := instantiate id
  refresh host _ i := pure (look (proc / ⟨"stat"⟩) host i.data)
  afterFailure d := { info := { d.info with usage := none }, previous := none }

end HostInventory.Cpu
