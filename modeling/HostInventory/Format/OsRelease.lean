import HostInventory.Format.Error
import HostInventory.Text.Lines

/-! The identity of a distribution.

A line that is neither blank nor a comment assigns a value to a key. A value may
stand between two double or two single quotes, which do not belong to it; a
backslash before a double quote does not belong to it either. The last assignment
to a key counts. -/
namespace HostInventory.Format

structure OsRelease where
  id : String := ""
  name : String := ""
  versionId : String := ""
  prettyName : String := ""
deriving DecidableEq, Repr

namespace OsRelease

/-- The text between two quotes of the kind `q`, if it stands there. -/
def between? (q : Char) (s : List Char) : Option (List Char) :=
  (Text.dropHead? [q] s).bind (Text.dropTail? [q])

/-- The text with every backslash before a double quote left out. -/
def dropEscapes : List Char → List Char
  | '\\' :: '"' :: rest => '"' :: dropEscapes rest
  | c :: rest => c :: dropEscapes rest
  | [] => []

/-- The value that an assignment writes. -/
def unquote (s : List Char) : List Char :=
  dropEscapes (((between? '"' s).or (between? '\x27' s)).getD s)

/-- The key and the value of a line. -/
def readLine (line : List Char) : Except Error (String × String) :=
  match Text.splitFirst '=' line with
  | some (key, value) =>
    .ok (String.ofList (Text.trim key), String.ofList (unquote (Text.trim value)))
  | none => .error (.releaseLine (String.ofList line))

/-- The release after one more assignment. -/
def assign (release : OsRelease) (entry : String × String) : OsRelease :=
  let (key, value) := entry
  if key = "ID" then { release with id := value }
  else if key = "NAME" then { release with name := value }
  else if key = "VERSION_ID" then { release with versionId := value }
  else if key = "PRETTY_NAME" then { release with prettyName := value }
  else release

def read (text : String) : Except Error OsRelease := do
  let entries ← ((Text.lines text.toList).filterMap Text.substance?).mapM readLine
  return entries.foldl assign {}

end OsRelease
end HostInventory.Format
