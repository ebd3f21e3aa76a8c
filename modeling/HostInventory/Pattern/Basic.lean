/-! Patterns.

A pattern describes texts by characters, sets of characters, edges, groups,
repetitions and choices. A `Pattern` keeps what decides whether a pattern can be put
to use: which characters and sets it names and under which flags, and how its pieces
nest. It keeps neither how often a piece is repeated nor what a group is called. -/
namespace HostInventory

namespace Pattern

/-- What the rest of a group can be told, by a letter. -/
inductive Flag
  | ignoreCase
  /-- A line has edges as the text has. -/
  | manyLines
  /-- The piece for any character takes line feeds too. -/
  | anyFeed
  /-- A repetition takes as little as it can. -/
  | reluctant
  /-- Characters are those of Unicode, not bytes. -/
  | unicode
  /-- A carriage return belongs to the end of a line. -/
  | returns
  /-- Blanks and comments stand between the pieces. -/
  | spaced
deriving DecidableEq, Repr

def Flag.ofLetter? : Char → Option Flag
  | 'i' => some .ignoreCase
  | 'm' => some .manyLines
  | 's' => some .anyFeed
  | 'U' => some .reluctant
  | 'u' => some .unicode
  | 'R' => some .returns
  | 'x' => some .spaced
  | _ => none

/-- Flags that are set and flags that are taken back. -/
structure FlagChange where
  set : List Flag := []
  unset : List Flag := []
deriving DecidableEq, Repr

/-- What a change makes of a flag. -/
def FlagChange.apply (change : FlagChange) (f : Flag) (before : Bool) : Bool :=
  change.set.contains f || (before && !change.unset.contains f)

/-- A character of a pattern. -/
structure Literal where
  char : Char
  /-- It is written as a byte, by two hexadecimal digits. -/
  asByte : Bool := false
deriving DecidableEq, Repr

/-- A piece without pieces of its own. -/
inductive Atom
  | literal (l : Literal)
  | any
  /-- An edge of the text or of a line. -/
  | edge
  /-- An edge of a word, or a place that is none. -/
  | wordEdge
  /-- The digits, blanks or word characters, or all that are none. -/
  | shorthand (negated : Bool)
deriving DecidableEq, Repr

inductive SetOperation
  | intersection
  | difference
  | symmetricDifference
deriving DecidableEq, Repr

/-- What stands in brackets. -/
inductive CharSet
  | empty
  | literal (l : Literal)
  | range (low high : Literal)
  /-- A class of ASCII characters by its name. -/
  | named (negated : Bool) (name : String)
  | shorthand (negated : Bool)
  | nested (negated : Bool) (content : CharSet)
  | union (items : List CharSet)
  | operation (op : SetOperation) (left right : CharSet)

/-- The set of items, which make a union if they are several. -/
def CharSet.ofItems : List CharSet → CharSet
  | [] => .empty
  | [item] => item
  | items => .union items

end Pattern

open Pattern in
inductive Pattern
  | empty
  | atom (a : Atom)
  | set (negated : Bool) (content : CharSet)
  /-- A change of flags up to the end of the group. -/
  | flags (change : FlagChange)
  | group (change : FlagChange) (body : Pattern)
  | repetition (body : Pattern)
  | sequence (items : List Pattern)
  | choice (branches : List Pattern)

namespace Pattern

/-- The pattern of pieces in a row. -/
def ofItems : List Pattern → Pattern
  | [] => .empty
  | [item] => item
  | items => .sequence items

/-! ### Nesting -/

mutual
/-- How deep brackets, unions and operations lie in each other. -/
def CharSet.depth : CharSet → Nat
  | .empty => 0
  | .literal _ => 0
  | .range _ _ => 0
  | .named _ _ => 0
  | .shorthand _ => 0
  | .nested _ content => content.depth + 1
  | .union items => CharSet.depthOfAll items + 1
  | .operation _ left right => max left.depth right.depth + 1

def CharSet.depthOfAll : List CharSet → Nat
  | [] => 0
  | item :: rest => max item.depth (CharSet.depthOfAll rest)
end

mutual
/-- How deep the pieces of a pattern lie in each other. -/
def depth : Pattern → Nat
  | .empty => 0
  | .atom _ => 0
  | .set _ content => content.depth + 1
  | .flags _ => 0
  | .group _ body => body.depth + 1
  | .repetition body => body.depth + 1
  | .sequence items => depthOfAll items + 1
  | .choice branches => depthOfAll branches + 1

def depthOfAll : List Pattern → Nat
  | [] => 0
  | item :: rest => max item.depth (depthOfAll rest)
end

end Pattern
end HostInventory
