import HostInventory.Text.Blank

/-! Paths.

A path is kept as it was spelled and compared by its components: a slash in front
is the root, a single dot counts only where it starts a relative path, and repeated
slashes, inner dots and a slash at the end count for nothing. Two spellings name
the same place when their components are equal, and places are ordered by their
components, not by their spelling. -/
namespace HostInventory.FileTree

structure Path where
  spelling : String
deriving DecidableEq, Repr

/-- One step of a path. -/
inductive Component
  | root
  | here
  | up
  | name (text : String)
deriving DecidableEq, Repr

namespace Component

def rank : Component → Nat
  | .root => 0
  | .here => 1
  | .up => 2
  | .name _ => 3

/-- The root comes first, then the two dotted steps, then names in byte order. -/
def compare : Component → Component → Ordering
  | .name a, .name b => Ord.compare a b
  | a, b => Ord.compare a.rank b.rank

end Component

namespace Path

/-- The path's text is absolute. -/
def isAbsolute (p : Path) : Bool :=
  p.spelling.toList.head? == some '/'

/-- The text of a path taken apart: whether it starts at the root, whether it starts
with a single dot, and the pieces between slashes behind that, the last one first. -/
structure Parts where
  absolute : Bool
  dotted : Bool
  pieces : List (List Char)

/-- A piece that names no step. -/
def isIdle (piece : List Char) : Bool :=
  piece = [] || piece = ['.']

def parts (p : Path) : Parts :=
  match p.spelling.toList with
  | [] => ⟨false, false, []⟩
  | '/' :: rest => ⟨true, false, (Text.pieces (· == '/') rest).reverse⟩
  | ['.'] => ⟨false, true, []⟩
  | '.' :: '/' :: rest => ⟨false, true, (Text.pieces (· == '/') ('/' :: rest)).reverse⟩
  | s => ⟨false, false, (Text.pieces (· == '/') s).reverse⟩

def step (piece : List Char) : Component :=
  if piece = ['.', '.'] then .up else .name (String.ofList piece)

/-- The steps of a path. -/
def components (p : Path) : List Component :=
  let parts := p.parts
  (if parts.absolute then [.root] else if parts.dotted then [.here] else []) ++
    (parts.pieces.reverse.filter fun piece => !isIdle piece).map step

/-- The two spellings name the same place. -/
def same (p q : Path) : Bool :=
  p.components == q.components

/-- The order of component lists: step by step, a shorter list before its extensions. -/
def compareSteps : List Component → List Component → Ordering
  | [], [] => .eq
  | [], _ :: _ => .lt
  | _ :: _, [] => .gt
  | a :: as, b :: bs => (a.compare b).then (compareSteps as bs)

def compare (p q : Path) : Ordering :=
  compareSteps p.components q.components

/-- The place lies at or below `top`. -/
def isAtOrBelow (p top : Path) : Bool :=
  top.components.isPrefixOf p.components

/-- The text of a start and of pieces given last first. -/
def spell (start : List Char) (pieces : List (List Char)) : Path :=
  ⟨String.ofList (start ++ Text.joinWith '/' pieces.reverse)⟩

/-- The paths above, nearest first, from the start of the path and its pieces, last
first and without idle ones in front. -/
def above (start : List Char) : List (List Char) → List Path
  | [] => if start = ['.'] then [⟨""⟩] else []
  | _ :: rest =>
    let upper := rest.dropWhile isIdle
    spell start upper :: above start upper
termination_by pieces => pieces.length
decreasing_by
  have := (List.dropWhile_sublist isIdle (l := rest)).length_le
  simp only [List.length_cons]
  omega

/-- Every path above, nearest first. A relative path ends at the empty one. -/
def ancestors (p : Path) : List Path :=
  let parts := p.parts
  let start := if parts.absolute then ['/'] else if parts.dotted then ['.'] else []
  above start (parts.pieces.dropWhile isIdle)

/-- The path one step up. The root and the empty path have none. -/
def parent (p : Path) : Option Path :=
  p.ancestors.head?

/-- The name of the last step, if that is a name. -/
def fileName (p : Path) : Option String :=
  match p.components.getLast? with
  | some (.name text) => some text
  | _ => none

/-- The path behind this one. An absolute path stands for itself. -/
def join (p q : Path) : Path :=
  if q.isAbsolute then q
  else if p.spelling = "" || p.spelling.toList.getLast? = some '/' then ⟨p.spelling ++ q.spelling⟩
  else ⟨p.spelling ++ "/" ++ q.spelling⟩

instance : Div Path := ⟨join⟩

theorem same_refl (p : Path) : p.same p = true := by
  simp [same]

theorem same_symm {p q : Path} (h : p.same q = true) : q.same p = true := by
  simp only [same, beq_iff_eq] at h ⊢
  exact h.symm

theorem same_trans {p q r : Path} (h : p.same q = true) (h' : q.same r = true) :
    p.same r = true := by
  simp only [same, beq_iff_eq] at h h' ⊢
  exact h.trans h'

/-- Two spellings of one place are the same as the same paths. -/
theorem same_congr {p q : Path} (h : p.same q = true) (r : Path) : r.same p = r.same q := by
  simp only [same, beq_iff_eq] at h
  simp only [same, h]

theorem isAtOrBelow_congr {p q : Path} (h : p.same q = true) (top : Path) :
    p.isAtOrBelow top = q.isAtOrBelow top := by
  simp only [same, beq_iff_eq] at h
  simp only [isAtOrBelow, h]

end Path
end HostInventory.FileTree
