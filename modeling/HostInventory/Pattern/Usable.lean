import HostInventory.Pattern.Reader

/-! Patterns that can be used.

A pattern is matched against text in UTF-8 without tables of Unicode. So where
characters are those of Unicode there are no shorthands, no edges of words and no
two cases of a letter, and where they are bytes nothing may match a part of a
character: no byte beyond ASCII, nothing negated, and not any byte at all. Flags hold
from where they stand to the end of their group, in its later branches too. A pattern
may not nest deeper than a limit. -/
namespace HostInventory.Pattern

/-- The flags that decide whether a piece can be used. -/
structure Mode where
  unicode : Bool := true
  ignoreCase : Bool := false
deriving DecidableEq, Repr

def Mode.change (m : Mode) (change : FlagChange) : Mode where
  unicode := change.apply .unicode m.unicode
  ignoreCase := change.apply .ignoreCase m.ignoreCase

/-- A character outside brackets. -/
def Literal.isUsable (m : Mode) (l : Literal) : Bool :=
  if m.unicode then !m.ignoreCase else !l.asByte || l.char.toNat < 0x80

/-- A character in brackets. -/
def Literal.isMember (m : Mode) (l : Literal) : Bool :=
  if m.unicode then !m.ignoreCase else l.char.toNat < 0x80

def Atom.isUsable (m : Mode) : Atom → Bool
  | .literal l => l.isUsable m
  | .any => m.unicode
  | .edge => true
  | .wordEdge => !m.unicode
  | .shorthand negated => !m.unicode && !negated

mutual
def CharSet.isUsable (m : Mode) : CharSet → Bool
  | .empty => true
  | .literal l => l.isMember m
  | .range low high => low.isMember m && high.isMember m
  | .named negated _ => if m.unicode then !m.ignoreCase else !negated
  | .shorthand negated => !m.unicode && !negated
  | .nested negated content => (m.unicode || !negated) && content.isUsable m
  | .union items => CharSet.areUsable m items
  | .operation _ left right => left.isUsable m && right.isUsable m

def CharSet.areUsable (m : Mode) : List CharSet → Bool
  | [] => true
  | item :: rest => item.isUsable m && CharSet.areUsable m rest
end

mutual
/-- The flags behind a pattern, if each of its pieces can be used under those in front
of it. -/
def modeBehind? (m : Mode) : Pattern → Option Mode
  | .empty => some m
  | .atom a => if a.isUsable m then some m else none
  | .set negated content =>
    if (m.unicode || !negated) && content.isUsable m then some m else none
  | .flags change => some (m.change change)
  | .group change body => (modeBehind? (m.change change) body).map fun _ => m
  | .repetition body => modeBehind? m body
  | .sequence items => modeBehindAll? m items
  | .choice branches => modeBehindAll? m branches

def modeBehindAll? (m : Mode) : List Pattern → Option Mode
  | [] => some m
  | item :: rest =>
    match modeBehind? m item with
    | some m => modeBehindAll? m rest
    | none => none
end

/-- How deep a pattern may nest. -/
def nestingLimit : Nat := 250

def isUsable (p : Pattern) : Bool :=
  p.depth ≤ nestingLimit && (modeBehind? {} p).isSome

/-- The text is a pattern that can be used. -/
def isPattern (s : List Char) : Bool :=
  (read s).any isUsable

end HostInventory.Pattern
