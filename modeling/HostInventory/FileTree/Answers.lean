import HostInventory.FileTree.Tree

/-! Answers collected beforehand.

A host that can only be asked while the program runs is asked first, and what it
answered then stands for it: one answer for each file and each directory that was
asked for. Whatever was not asked for is missing, and so is the space of every
filesystem. -/
namespace HostInventory.FileTree

structure Answers where
  files : Table (Except Error String) := []
  /-- The names in each directory. -/
  folders : Table (Except Error (List String)) := []

namespace Answers

def read (a : Answers) (p : Path) : Except Error String :=
  (a.files.find? p).getD (.error .noEntry)

/-- The paths of the names in a directory, in the order of paths. -/
def list (a : Answers) (p : Path) : Except Error (List Path) :=
  ((a.folders.find? p).getD (.error .noEntry)).map fun names =>
    (names.map fun name => p / ⟨name⟩).foldl (fun ps q => Tree.insertOrdered q ps) []

/-- What is answered about the space of any filesystem. -/
def noSpace : Error := .other "Function not implemented (os error 38)"

/-- The answers as a source of answers. -/
def provider (a : Answers) : Provider where
  read := a.read
  contains p := (a.read p).toOption.isSome || (a.list p).toOption.isSome
  list := a.list
  space _ := .error noSpace

end Answers
end HostInventory.FileTree
