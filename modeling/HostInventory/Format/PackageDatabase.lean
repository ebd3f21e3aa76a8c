import HostInventory.Format.Error
import HostInventory.Text.Lines
import HostInventory.Text.Numeral

/-! The database of installed packages.

The database is a row of stanzas with blank lines between them. A line that starts
with a space or a tab continues the field above it and counts for nothing here;
any other line of a stanza is a field, whose last value counts. A stanza has to
name its package. What is read between two blank lines depends on the lines
between them only. -/
namespace HostInventory.Format

structure Package where
  name : String := ""
  status : String := ""
  version : String := ""
  architecture : String := ""
  maintainer : String := ""
  /-- In kibibytes. -/
  installedSize : Nat := 0
  /-- The first line of the description. -/
  summary : String := ""
deriving DecidableEq, Repr, Inhabited

/-- Whether the package is installed and nothing is left to do. -/
def Package.isInstalled (p : Package) : Bool :=
  p.status = "install ok installed"

namespace PackageDatabase

/-- The reader between two lines: the stanzas so far, last first, and the one it is
in. -/
structure Reader where
  closed : List Package := []
  current : Option Package := none
deriving Repr

/-- The package after one more field. -/
def setField (p : Package) (key : String) (value : List Char) : Package :=
  let text := String.ofList value
  if key = "Package" then { p with name := text }
  else if key = "Status" then { p with status := text }
  else if key = "Version" then { p with version := text }
  else if key = "Architecture" then { p with architecture := text }
  else if key = "Maintainer" then { p with maintainer := text }
  else if key = "Installed-Size" then
    { p with installedSize := (Text.readNumeral Text.wordBound64 value).getD 0 }
  else if key = "Description" then { p with summary := text }
  else p

/-- Ends the current stanza. -/
def Reader.close (r : Reader) : Except Error Reader :=
  match r.current with
  | none => .ok r
  | some p => if p.name = "" then .error .unnamedStanza else .ok ⟨p :: r.closed, none⟩

/-- Whether a line continues the field above it. -/
def isContinuation (line : List Char) : Bool :=
  line.head? == some ' ' || line.head? == some '\t'

/-- The reader after one more line. -/
def Reader.next (r : Reader) (line : List Char) : Except Error Reader :=
  if (Text.trim line).isEmpty then r.close
  else if isContinuation line then .ok r
  else
    match Text.splitFirst ':' line with
    | some (key, value) =>
      let stanza := setField (r.current.getD {}) (String.ofList key) (Text.trim value)
      .ok { r with current := some stanza }
    | none => .error (.stanzaLine (String.ofList line))

/-- The stanzas of the database, in order. -/
def read (text : String) : Except Error (List Package) := do
  let r ← (Text.lines text.toList).foldlM Reader.next {}
  let r ← r.close
  return r.closed.reverse

end PackageDatabase
end HostInventory.Format
