import HostInventory.Format.Error
import HostInventory.Text.Lines

/-! Processor time, in clock ticks.

Of the kernel's statistics only the lines whose first word starts with `cpu`
count: one for each processor and one, without a number, for all together. The
first line for a processor is its line. A line's total is formed from left to
right and is refused as soon as it leaves 64 bits. -/
namespace HostInventory.Format

/-- The ticks spent in each state by one processor, or by all when it has no number. -/
structure CpuTicks where
  processor : Option Nat := none
  user : Nat := 0
  nice : Nat := 0
  system : Nat := 0
  idle : Nat := 0
  iowait : Nat := 0
  irq : Nat := 0
  softirq : Nat := 0
  steal : Nat := 0
deriving DecidableEq, Repr

namespace CpuTicks

/-- The counters in the order of their columns. -/
def counters (t : CpuTicks) : List Nat :=
  [t.user, t.nice, t.system, t.idle, t.iowait, t.irq, t.softirq, t.steal]

/-- The sum of all states, if it and every sum on the way fit into 64 bits. -/
def total? (t : CpuTicks) : Option Nat :=
  t.counters.foldlM (fun sum n => if sum + n < Text.wordBound64 then some (sum + n) else none) 0

/-- The counter in a column, and zero where there is no 64-bit numeral. -/
def column (fields : List (List Char)) (i : Nat) : Nat :=
  (fields[i]?.bind (Text.readNumeral Text.wordBound64)).getD 0

/-- The processor that a label names, with `none` for all together. -/
def readLabel (label : List Char) : Except Error (Option Nat) :=
  if label = "cpu".toList then .ok none
  else
    match Text.readNumeral Text.wordBound32 (label.drop 3) with
    | some n => .ok (some n)
    | none => .error (.processorLabel (String.ofList label))

/-- The ticks of a line, given as its words. -/
def readFields (fields : List (List Char)) : Except Error CpuTicks := do
  let processor ← readLabel (fields.headD [])
  return {
    processor
    user := column fields 1
    nice := column fields 2
    system := column fields 3
    idle := column fields 4
    iowait := column fields 5
    irq := column fields 6
    softirq := column fields 7
    steal := column fields 8 }

/-- The words of a line that is about a processor. -/
def fields? (line : List Char) : Option (List (List Char)) :=
  let fields := Text.words line
  if "cpu".toList.isPrefixOf (fields.headD []) then some fields else none

/-- The processor lines in order. -/
def read (text : String) : Except Error (List CpuTicks) :=
  ((Text.lines text.toList).filterMap fields?).mapM readFields

/-- The line of a processor, or of all together. -/
def find (processor : Option Nat) (all : List CpuTicks) : Option CpuTicks :=
  all.find? fun t => t.processor = processor

end CpuTicks
end HostInventory.Format
