import HostInventory.Text.Quoted

/-! Parts of a text between byte positions.

A position counts the bytes of UTF-8 in front of it. A part of a text lies between two
positions at which no character is cut in two; of two that cut one, the position where
the part begins is reported. What stands before a position and what stands behind it
are together the text (`takeBytes_append_dropBytes`), and a position between two texts
gives the two back (`partFrom_byteLength`, `part_byteLength`). -/
namespace HostInventory.Text

/-- The bytes that a text takes. -/
def byteLength : List Char → Nat
  | [] => 0
  | c :: rest => c.utf8Size + byteLength rest

/-- The characters that begin before a position. -/
def takeBytes : Nat → List Char → List Char
  | _, [] => []
  | 0, _ :: _ => []
  | n + 1, c :: rest => c :: takeBytes (n + 1 - c.utf8Size) rest

/-- The characters that begin at a position or behind it. -/
def dropBytes : Nat → List Char → List Char
  | _, [] => []
  | 0, c :: rest => c :: rest
  | n + 1, c :: rest => dropBytes (n + 1 - c.utf8Size) rest

/-- The side of a part. -/
inductive Side
  | first
  | last
deriving DecidableEq, Repr

/-- A side of a part that would cut a character in two. -/
structure Cut where
  side : Side
  position : Nat
  char : Char
  /-- The position where the character begins. -/
  start : Nat
deriving DecidableEq, Repr

def Side.name : Side → String
  | .first => "start"
  | .last => "end"

def Cut.message (c : Cut) : String :=
  let shown := String.ofList ('\x27' :: quoteChar c.char ++ ['\x27'])
  let stop := c.start + c.char.utf8Size
  s!"{c.side.name} byte index {c.position} is not a char boundary; " ++
    s!"it is inside {shown} (bytes {c.start}..{stop} of string)"

/-- The character that a position cuts, and where it begins, if the text begins at
`start`. -/
def charAround? (position : Nat) : Nat → List Char → Option (Char × Nat)
  | _, [] => none
  | start, c :: rest =>
    if position ≤ start then none
    else if position < start + c.utf8Size then some (c, start)
    else charAround? position (start + c.utf8Size) rest

/-- Refuses a position that cuts a character. -/
def checkCut (side : Side) (position : Nat) (s : List Char) : Except Cut Unit :=
  match charAround? position 0 s with
  | none => .ok ()
  | some (char, start) => .error { side, position, char, start }

/-- The part from one position up to another. -/
def part (s : List Char) (a b : Nat) : Except Cut (List Char) := do
  checkCut .first a s
  checkCut .last b s
  return dropBytes a (takeBytes b s)

/-- The part from a position on. -/
def partFrom (s : List Char) (a : Nat) : Except Cut (List Char) := do
  checkCut .first a s
  return dropBytes a s

theorem byteLength_append (s t : List Char) :
    byteLength (s ++ t) = byteLength s + byteLength t := by
  induction s with
  | nil => simp [byteLength]
  | cons c s ih => simp only [List.cons_append, byteLength, ih, Nat.add_assoc]

theorem takeBytes_append_dropBytes (n : Nat) (s : List Char) :
    takeBytes n s ++ dropBytes n s = s := by
  induction s generalizing n with
  | nil => cases n <;> rfl
  | cons c s ih =>
    cases n with
    | zero => rfl
    | succ n => simp only [takeBytes, dropBytes, List.cons_append, ih]

theorem takeBytes_byteLength (s t : List Char) : takeBytes (byteLength s) (s ++ t) = s := by
  induction s with
  | nil => cases t <;> rfl
  | cons c s ih =>
    obtain ⟨n, hn⟩ := Nat.exists_eq_succ_of_ne_zero
      (Nat.ne_of_gt (Nat.add_pos_left c.utf8Size_pos (byteLength s)))
    have hs : n + 1 - c.utf8Size = byteLength s := by omega
    simp only [List.cons_append, byteLength, hn, takeBytes, Nat.succ_eq_add_one, hs, ih]

theorem dropBytes_byteLength (s t : List Char) : dropBytes (byteLength s) (s ++ t) = t :=
  List.append_cancel_left
    ((congrArg (· ++ _) (takeBytes_byteLength s t).symm).trans
      (takeBytes_append_dropBytes (byteLength s) (s ++ t)))

/-- No character is cut between two texts. -/
theorem charAround?_byteLength (start : Nat) (s t : List Char) :
    charAround? (start + byteLength s) start (s ++ t) = none := by
  induction s generalizing start with
  | nil => cases t <;> simp [charAround?, byteLength]
  | cons c s ih =>
    have hc := c.utf8Size_pos
    rw [List.cons_append, charAround?, byteLength, if_neg (by omega), if_neg (by omega),
      ← Nat.add_assoc]
    exact ih _

theorem checkCut_byteLength (side : Side) (s t : List Char) :
    checkCut side (byteLength s) (s ++ t) = .ok () := by
  have h := charAround?_byteLength 0 s t
  rw [Nat.zero_add] at h
  rw [checkCut, h]

theorem partFrom_byteLength (s t : List Char) : partFrom (s ++ t) (byteLength s) = .ok t := by
  rw [partFrom, checkCut_byteLength, dropBytes_byteLength]
  rfl

/-- A text's own positions in a text around it give it back. -/
theorem part_byteLength (r s t : List Char) :
    part (r ++ s ++ t) (byteLength r) (byteLength (r ++ s)) = .ok s := by
  have h := checkCut_byteLength .first r (s ++ t)
  rw [← List.append_assoc] at h
  rw [part, h, checkCut_byteLength, takeBytes_byteLength, dropBytes_byteLength]
  rfl

end HostInventory.Text
