import HostInventory.FileTree.Error
import HostInventory.Text.Blank

/-! What resources are read through.

A provider answers four questions about paths. Everything this library learns
about a host it learns from such answers, so a tree in memory can stand for a
host (`Tree.provider`), and so can a directory (`Directory.provider`). -/
namespace HostInventory.FileTree

/-- Space of a mounted filesystem, in bytes and inodes. -/
structure Space where
  blockSize : Nat := 0
  totalBytes : Nat := 0
  freeBytes : Nat := 0
  /-- Free for users without privileges. -/
  availableBytes : Nat := 0
  totalInodes : Nat := 0
  freeInodes : Nat := 0
deriving DecidableEq, Repr

structure Provider where
  read : Path → Except Error String
  contains : Path → Bool
  /-- The paths one step below a directory, in the order of paths. -/
  list : Path → Except Error (List Path)
  /-- The space of the filesystem mounted at a path. -/
  space : Path → Except Error Space

/-- The text of a file that holds a single value, without the blanks around it. -/
def Provider.readValue (source : Provider) (path : Path) : Except Error String :=
  (source.read path).map fun text => String.ofList (Text.trim text.toList)

/-- The value of a file, and nothing where it cannot be read. -/
def Provider.value? (source : Provider) (path : Path) : Option String :=
  (source.readValue path).toOption

/-- The value of a file, if it can be read and is not empty. -/
def Provider.filledValue? (source : Provider) (path : Path) : Option String :=
  (source.value? path).filter (· ≠ "")

end HostInventory.FileTree
