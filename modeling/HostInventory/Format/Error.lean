import HostInventory.Text.Numeral

/-! What the readers of provider files refuse.

Each cause carries what its message names, so that a message is a function of the
cause alone. A reader that refuses a text gives the first cause in reading order. -/
namespace HostInventory.Format

inductive Error
  /-- A processor line whose label has no number behind it. -/
  | processorLabel (label : String)
  /-- No number of seconds. -/
  | uptime
  /-- Too few fields in the row of this number, counted from one. -/
  | mountFields (line : Nat)
  /-- Too few counters for an interface. -/
  | interfaceCounters (interface : String) (found : Nat)
  | interfaceFlags (text : String) (fault : Text.NumeralFault)
  | releaseLine (line : String)
  /-- A stanza that names no package. -/
  | unnamedStanza
  | stanzaLine (line : String)
deriving DecidableEq, Repr

/-- The wording without the heading that says it is about a text. -/
def Error.message : Error → String
  | .processorLabel label => s!"bad cpu label '{label}'"
  | .uptime => "empty or malformed /proc/uptime"
  | .mountFields line => s!"mount table line {line}: expected at least 4 fields"
  | .interfaceCounters interface found =>
    s!"/proc/net/dev: {interface} has {found} counters, expected 16"
  | .interfaceFlags text fault => s!"bad interface flags '{text}': {fault.message}"
  | .releaseLine line => s!"os-release: malformed line '{line}'"
  | .unnamedStanza => "dpkg status: stanza without Package field"
  | .stanzaLine line => s!"dpkg status: malformed line '{line}'"

/-- The wording of a refusal on its own. -/
def Error.report (e : Error) : String :=
  s!"Parse error: {e.message}"

end HostInventory.Format
