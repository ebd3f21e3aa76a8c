import HostInventory.FileTree.Provider

/-! A file tree in memory.

Files, directories and the space of mounted filesystems are three tables keyed by
path. Adding a file or a directory adds the directories above it; removing a
directory removes all at or below it; the space table is independent of both. A
path that is added again keeps its first spelling. A listing is ordered by
components and has each place once, whether it is a file, a directory or both. -/
namespace HostInventory.FileTree

/-- A table keyed by path, in order of first insertion. -/
abbrev Table (α : Type) := List (Path × α)

namespace Table

variable {α : Type}

def find? (t : Table α) (p : Path) : Option α :=
  (List.find? (fun entry => entry.1.same p) t).map Prod.snd

def contains (t : Table α) (p : Path) : Bool :=
  List.any t fun entry => entry.1.same p

/-- The table with a value at a path; the spelling of an entry stays. -/
def insert (t : Table α) (p : Path) (a : α) : Table α :=
  if t.contains p then List.map (fun entry => if entry.1.same p then (entry.1, a) else entry) t
  else t ++ [(p, a)]

def erase (t : Table α) (p : Path) : Table α :=
  List.filter (fun entry => !entry.1.same p) t

/-- The table without what lies at or below a path. -/
def eraseBelow (t : Table α) (top : Path) : Table α :=
  List.filter (fun entry => !entry.1.isAtOrBelow top) t

def paths (t : Table α) : List Path :=
  List.map Prod.fst t

/-- A table answers for a place under every spelling. -/
theorem find?_congr (t : Table α) {p q : Path} (h : p.same q = true) : t.find? p = t.find? q := by
  simp only [find?, Path.same_congr h]

theorem find?_isSome (t : Table α) (p : Path) : (t.find? p).isSome = t.contains p := by
  simp only [find?, contains, Option.isSome_map]
  rw [Bool.eq_iff_iff]
  simp

theorem find?_insert_self (t : Table α) (p : Path) (a : α) : (t.insert p a).find? p = some a := by
  unfold insert
  split
  · next h =>
    induction t with
    | nil => simp [contains] at h
    | cons entry rest ih =>
      by_cases he : entry.1.same p = true
      · simp [find?, he]
      · simp only [contains, List.any_cons, he, Bool.false_or] at h
        simpa [find?, he] using ih h
  · next h =>
    simp only [contains, Bool.not_eq_true] at h
    simp only [find?, List.find?_append]
    rw [List.find?_eq_none.2 (by simpa using h)]
    simp [Path.same_refl]

/-- Changing what stands at one place leaves every other place as it is. -/
theorem find?_map_of_not_same (t : Table α) {p q : Path} (h : p.same q = false) (a : α) :
    find? (List.map (fun entry => if entry.1.same p then (entry.1, a) else entry) t) q =
      t.find? q := by
  induction t with
  | nil => rfl
  | cons entry rest ih =>
    simp only [find?] at ih ⊢
    by_cases hp : entry.1.same p = true
    · have hq : entry.1.same q = false := Bool.eq_false_iff.2 fun hq =>
        absurd (Path.same_trans (Path.same_symm hp) hq) (Bool.eq_false_iff.1 h)
      simpa only [List.map_cons, hp, if_true, List.find?_cons, hq] using ih
    · rw [List.map_cons, if_neg hp, List.find?_cons, List.find?_cons]
      split
      · rfl
      · exact ih

theorem find?_insert_of_not_same (t : Table α) {p q : Path} (h : p.same q = false) (a : α) :
    (t.insert p a).find? q = t.find? q := by
  unfold insert
  split
  · exact find?_map_of_not_same t h a
  · simp [find?, List.find?_append, h]

theorem find?_erase_self (t : Table α) (p : Path) : (t.erase p).find? p = none := by
  simp [find?, erase]

/-- Taking out entries whose places are kept under another name changes nothing there. -/
theorem find?_filter_of_keeps (t : Table α) (keep : Path → Bool) {p : Path}
    (h : ∀ q, q.same p = true → keep q = true) :
    find? (List.filter (fun entry => keep entry.1) t) p = t.find? p := by
  simp only [find?, List.find?_filter]
  congr 2
  funext entry
  cases he : entry.1.same p with
  | false => simp
  | true => simp [h _ he]

theorem find?_erase_of_not_same (t : Table α) {p q : Path} (h : p.same q = false) :
    (t.erase p).find? q = t.find? q := by
  refine find?_filter_of_keeps t (fun r => !r.same p) fun r hr => ?_
  rw [Bool.not_eq_true', Bool.eq_false_iff]
  exact fun hp => absurd (Path.same_trans (Path.same_symm hp) hr) (Bool.eq_false_iff.1 h)

/-- Nothing at or below a place is left of it. -/
theorem find?_eraseBelow_of_isAtOrBelow (t : Table α) {top p : Path}
    (h : p.isAtOrBelow top = true) : (t.eraseBelow top).find? p = none := by
  simp only [find?, eraseBelow, List.find?_filter, Option.map_eq_none_iff, List.find?_eq_none,
    Bool.not_eq_true', decide_eq_true_eq, not_and]
  intro entry _ habove hsame
  rw [Path.isAtOrBelow_congr hsame, h] at habove
  cases habove

theorem find?_eraseBelow_of_not_isAtOrBelow (t : Table α) {top p : Path}
    (h : p.isAtOrBelow top = false) : (t.eraseBelow top).find? p = t.find? p :=
  find?_filter_of_keeps t (fun r => !r.isAtOrBelow top) fun r hr => by
    rw [Path.isAtOrBelow_congr hr, h, Bool.not_false]

end Table

structure Tree where
  files : Table String := []
  directories : Table Unit := []
  spaces : Table Space := []

namespace Tree

/-- The tree with the directories above a path. -/
def addAbove (t : Tree) (p : Path) : Tree :=
  { t with
    directories :=
      (p.ancestors.filter (·.spelling ≠ "")).foldl (fun ds q => ds.insert q ()) t.directories }

def addFile (t : Tree) (p : Path) (text : String) : Tree :=
  let t := t.addAbove p
  { t with files := t.files.insert p text }

def addDirectory (t : Tree) (p : Path) : Tree :=
  let t := t.addAbove p
  { t with directories := t.directories.insert p () }

def removeFile (t : Tree) (p : Path) : Tree :=
  { t with files := t.files.erase p }

/-- The tree without the directory and everything below it. -/
def removeDirectory (t : Tree) (p : Path) : Tree :=
  { t with files := t.files.eraseBelow p, directories := t.directories.eraseBelow p }

def setSpace (t : Tree) (p : Path) (space : Space) : Tree :=
  { t with spaces := t.spaces.insert p space }

def clearSpace (t : Tree) (p : Path) : Tree :=
  { t with spaces := t.spaces.erase p }

def read (t : Tree) (p : Path) : Except Error String :=
  match t.files.find? p with
  | some text => .ok text
  | none => .error (.missingFile p)

def contains (t : Tree) (p : Path) : Bool :=
  t.files.contains p || t.directories.contains p

def space (t : Tree) (p : Path) : Except Error Space :=
  match t.spaces.find? p with
  | some space => .ok space
  | none => .error (.notMounted p)

/-- An ordered listing with one more path, unless that place is in it. -/
def insertOrdered (p : Path) : List Path → List Path
  | [] => [p]
  | q :: rest =>
    match p.compare q with
    | .lt => p :: q :: rest
    | .eq => q :: rest
    | .gt => q :: insertOrdered p rest

/-- The place lies one step below `top`. -/
def isChild (top p : Path) : Bool :=
  match p.parent with
  | some q => q.same top
  | none => false

/-- The paths one step below a directory. Of a place that is a file and a directory
the file's spelling is given. -/
def list (t : Tree) (p : Path) : Except Error (List Path) :=
  if t.directories.contains p then
    let children := t.files.paths.filter (isChild p) ++
      t.directories.paths.filter fun q => isChild p q && !q.same p
    .ok (children.foldl (fun listing q => insertOrdered q listing) [])
  else .error (.missingDirectory p)

/-- The tree as a source of answers. -/
def provider (t : Tree) : Provider where
  read := t.read
  contains := t.contains
  list := t.list
  space := t.space

/-! ### Edits -/

/-- One change of a tree. -/
inductive Edit
  | addFile (path : Path) (text : String)
  | addDirectory (path : Path)
  | removeFile (path : Path)
  | removeDirectory (path : Path)
  | setSpace (path : Path) (space : Space)
  | clearSpace (path : Path)
deriving DecidableEq, Repr

def apply (t : Tree) : Edit → Tree
  | .addFile p text => t.addFile p text
  | .addDirectory p => t.addDirectory p
  | .removeFile p => t.removeFile p
  | .removeDirectory p => t.removeDirectory p
  | .setSpace p space => t.setSpace p space
  | .clearSpace p => t.clearSpace p

/-- The tree after a row of edits. -/
def run (t : Tree) : List Edit → Tree
  | [] => t
  | edit :: rest => (t.apply edit).run rest

theorem run_append (t : Tree) (a b : List Edit) : t.run (a ++ b) = (t.run a).run b := by
  induction a generalizing t with
  | nil => rfl
  | cons edit rest ih => exact ih _

end Tree
end HostInventory.FileTree
