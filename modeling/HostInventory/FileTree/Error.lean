import HostInventory.FileTree.Path
import HostInventory.Text.Quoted
import HostInventory.Text.Utf8

/-! What a file tree answers when it has nothing to give.

The first three causes are those of a tree in memory and quote the path; the
others are those of a directory of the host. -/
namespace HostInventory.FileTree

inductive Error
  | missingFile (path : Path)
  | missingDirectory (path : Path)
  | notMounted (path : Path)
  | noEntry
  | isDirectory
  | notDirectory
  | nameTooLong
  /-- The bytes are not UTF-8. -/
  | notText
  /-- A path with a null character. -/
  | nullInPath
  /-- A path with a null character, where space is asked for. -/
  | invalidArgument
  | other (text : String)
deriving DecidableEq, Repr

def Error.message : Error → String
  | .missingFile p => s!"file not found: {Text.quoted p.spelling}"
  | .missingDirectory p => s!"directory not found: {Text.quoted p.spelling}"
  | .notMounted p => s!"no filesystem mounted at {Text.quoted p.spelling}"
  | .noEntry => "No such file or directory (os error 2)"
  | .isDirectory => "Is a directory (os error 21)"
  | .notDirectory => "Not a directory (os error 20)"
  | .nameTooLong => "File name too long (os error 36)"
  | .notText => "stream did not contain valid UTF-8"
  | .nullInPath => "file name contained an unexpected NUL byte"
  | .invalidArgument => "Invalid argument (os error 22)"
  | .other text => text

/-- The text of a file of the host from its bytes. -/
def textOf (bytes : List UInt8) : Except Error String :=
  match Text.Utf8.decode? bytes with
  | some text => .ok text
  | none => .error .notText

end HostInventory.FileTree
