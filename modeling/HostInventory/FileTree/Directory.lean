import HostInventory.FileTree.Tree

/-! Directories of the host as values.

A node is a file of bytes or a folder of named nodes, and a directory is the
node at the root of everything. A path is walked one piece at a time: an empty
piece or a dot stays, two dots go up, a name goes down, and only a folder can be
walked on from, so a file with a slash behind it is refused. A path that is too long
is refused as a whole, whatever it leads to. A file is text exactly when its bytes are
UTF-8. -/
namespace HostInventory.FileTree

inductive Node
  | file (bytes : List UInt8)
  | folder (entries : List (String × Node))

namespace Node

def isFolder : Node → Bool
  | .file _ => false
  | .folder _ => true

/-- The node of a name in a folder. -/
def child? (node : Node) (name : String) : Option Node :=
  match node with
  | .file _ => none
  | .folder entries => (entries.find? fun entry => entry.1 = name).map Prod.snd

/-- The folder with one entry replaced or, behind the others, added. -/
def setChild (name : String) (inner : Node) : List (String × Node) → List (String × Node)
  | [] => [(name, inner)]
  | entry :: rest =>
    if entry.1 = name then (name, inner) :: rest else entry :: setChild name inner rest

/-- The node with `inner` in the place that the names lead to. Folders on the way are
made; a file on the way gives way to a folder. -/
def put (inner : Node) : List String → Node → Node
  | [], _ => inner
  | name :: rest, node =>
    let entries := match node with
      | .file _ => []
      | .folder entries => entries
    let below := (child? node name).getD (.folder [])
    .folder (setChild name (put inner rest below) entries)

end Node

/-- A host's files, and the space of the one filesystem they are on. -/
structure Directory where
  root : Node := .folder []
  space : Space := {}

namespace Directory

/-- The longest name of an entry, in bytes. -/
def nameLimit : Nat := 255

/-- The longest path, in bytes. -/
def pathLimit : Nat := 4095

/-- The node that the pieces of a path lead to, from a node and the nodes above it,
nearest first. -/
def walk (above : List Node) (node : Node) : List String → Except Error Node
  | [] => .ok node
  | piece :: rest =>
    if !node.isFolder then .error .notDirectory
    else if piece = "" || piece = "." then walk above node rest
    else if piece = ".." then
      match above with
      | [] => walk [] node rest
      | upper :: above => walk above upper rest
    else if piece.utf8ByteSize > nameLimit then .error .nameTooLong
    else
      match node.child? piece with
      | none => .error .noEntry
      | some inner => walk (node :: above) inner rest

/-- Refuses a path that leads nowhere in any directory. -/
def checkPath (p : Path) : Except Error Unit :=
  if p.spelling.contains '\x00' then .error .nullInPath
  else if pathLimit < p.spelling.utf8ByteSize then .error .nameTooLong
  else if p.spelling = "" then .error .noEntry
  else .ok ()

/-- The node at a path. -/
def node (d : Directory) (p : Path) : Except Error Node := do
  checkPath p
  walk [] d.root ((Text.pieces (· == '/') p.spelling.toList).map String.ofList)

def read (d : Directory) (p : Path) : Except Error String := do
  match ← d.node p with
  | .folder _ => .error .isDirectory
  | .file bytes => textOf bytes

/-- The entries of a folder, behind the path they were asked for with. -/
def list (d : Directory) (p : Path) : Except Error (List Path) := do
  match ← d.node p with
  | .file _ => .error .notDirectory
  | .folder entries =>
    .ok ((entries.map fun entry => p / ⟨entry.1⟩).foldl (fun ps q => Tree.insertOrdered q ps) [])

/-- The space at a path. -/
def spaceAt (d : Directory) (p : Path) : Except Error Space :=
  match d.node p with
  | .ok _ => .ok d.space
  | .error .nullInPath => .error .invalidArgument
  | .error e => .error e

/-- The directory as a source of answers. -/
def provider (d : Directory) : Provider where
  read := d.read
  contains p := (d.node p).toOption.isSome
  list := d.list
  space := d.spaceAt

end Directory

/-! ### Snapshots -/

mutual
/-- The tree with the entries of the folder at `source` loaded below `top`. Files that
are no text, or are too far down to be read, are left out. -/
def Tree.loadEntries (t : Tree) (source top : Path) :
    List (String × Node) → Except Error Tree
  | [] => .ok t
  | (name, node) :: rest => do
    let t ← t.loadNode (source / ⟨name⟩) (top / ⟨name⟩) node
    t.loadEntries source top rest

def Tree.loadNode (t : Tree) (source p : Path) : Node → Except Error Tree
  | .file bytes =>
    match Directory.checkPath source, textOf bytes with
    | .ok _, .ok text => .ok (t.addFile p text)
    | _, _ => .ok t
  | .folder entries => do
    Directory.checkPath source
    (t.addDirectory p).loadEntries source p entries
end

/-- A tree in memory with the contents of the folder at `source` below `top`. -/
def Tree.ofDirectory (d : Directory) (source top : Path) : Except Error Tree := do
  match ← d.node source with
  | .file _ => .error .notDirectory
  | .folder entries => Tree.loadNode {} source top (.folder entries)

end HostInventory.FileTree
