import HostInventory.Format.Error
import HostInventory.Text.Lines

/-! Traffic counters of the network interfaces.

A row is the interface's name, a colon, and at least sixteen counters: eight for
what was received, eight for what was sent. Lines with a bar are headings, and
lines without a colon are no rows. -/
namespace HostInventory.Format

/-- The counters of one interface that this library reports. -/
structure InterfaceTraffic where
  interface : String
  rxBytes : Nat := 0
  rxPackets : Nat := 0
  rxErrors : Nat := 0
  rxDropped : Nat := 0
  txBytes : Nat := 0
  txPackets : Nat := 0
  txErrors : Nat := 0
  txDropped : Nat := 0
  collisions : Nat := 0
deriving DecidableEq, Repr

namespace InterfaceTable

/-- The name and the counters of a line that is a row. -/
def row? (line : List Char) : Option (List Char × List (List Char)) :=
  if line.contains '|' then none
  else (Text.splitFirst ':' line).map fun parts => (Text.trim parts.1, Text.words parts.2)

/-- The counter in a column, and zero where there is no 64-bit numeral. -/
def column (fields : List (List Char)) (i : Nat) : Nat :=
  (fields[i]?.bind (Text.readNumeral Text.wordBound64)).getD 0

def readRow (row : List Char × List (List Char)) : Except Error InterfaceTraffic :=
  let interface := String.ofList row.1
  let fields := row.2
  if fields.length < 16 then .error (.interfaceCounters interface fields.length)
  else
    .ok {
      interface
      rxBytes := column fields 0
      rxPackets := column fields 1
      rxErrors := column fields 2
      rxDropped := column fields 3
      txBytes := column fields 8
      txPackets := column fields 9
      txErrors := column fields 10
      txDropped := column fields 11
      collisions := column fields 13 }

/-- The rows of the table, in order. -/
def read (text : String) : Except Error (List InterfaceTraffic) :=
  ((Text.lines text.toList).filterMap row?).mapM readRow

end InterfaceTable
end HostInventory.Format
