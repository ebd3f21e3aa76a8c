import HostInventory.Text.Lines
import HostInventory.Text.Numeral

/-! The memory table of the kernel.

Each line is a label and a number of kibibytes. A figure is the number on the last
line with its label, and zero when that line has no number; lines with other
labels count for nothing. No label of the table starts another, so a line carries
at most one figure. -/
namespace HostInventory.Format

/-- The figures of the table, in kibibytes. -/
structure MemInfo where
  /-- Whether the table has a line for the total. -/
  hasTotal : Bool := false
  total : Nat := 0
  free : Nat := 0
  available : Nat := 0
  buffers : Nat := 0
  cached : Nat := 0
  swapTotal : Nat := 0
  swapFree : Nat := 0
deriving DecidableEq, Repr

namespace MemInfo

/-- The lines that carry a figure. -/
inductive Label
  | total | free | available | buffers | cached | swapTotal | swapFree
deriving DecidableEq, Repr

def Label.all : List Label :=
  [.total, .free, .available, .buffers, .cached, .swapTotal, .swapFree]

/-- How a line with this label starts. -/
def Label.text : Label → String
  | .total => "MemTotal:"
  | .free => "MemFree:"
  | .available => "MemAvailable:"
  | .buffers => "Buffers:"
  | .cached => "Cached:"
  | .swapTotal => "SwapTotal:"
  | .swapFree => "SwapFree:"

/-- Whether a line starts with the label. -/
def Label.starts (label : Label) (line : List Char) : Bool :=
  label.text.toList.isPrefixOf line

/-- The number of a line: its second word, if that is a 64-bit numeral. -/
def figure (line : List Char) : Nat :=
  ((Text.words line)[1]?.bind (Text.readNumeral Text.wordBound64)).getD 0

/-- The table with one figure replaced. -/
def set (info : MemInfo) (label : Label) (n : Nat) : MemInfo :=
  match label with
  | .total => { info with hasTotal := true, total := n }
  | .free => { info with free := n }
  | .available => { info with available := n }
  | .buffers => { info with buffers := n }
  | .cached => { info with cached := n }
  | .swapTotal => { info with swapTotal := n }
  | .swapFree => { info with swapFree := n }

/-- The table after one more line. -/
def readLine (info : MemInfo) (line : List Char) : MemInfo :=
  match Label.all.find? fun label => label.starts line with
  | some label => info.set label (figure line)
  | none => info

def read (text : String) : MemInfo :=
  (Text.lines text.toList).foldl readLine {}

end MemInfo
end HostInventory.Format
