/-! Ranges of code points.

A property of characters outside ASCII is a table of ranges in ascending order, which
no two of them touch; `CodeRanges.covers` says whether a code point is in one. -/
namespace HostInventory.Text

/-- Ranges of code points, each as its first and its last. -/
abbrev CodeRanges := List (Nat × Nat)

def CodeRanges.covers (table : CodeRanges) (n : Nat) : Bool :=
  List.any table fun range => range.1 ≤ n && n ≤ range.2

end HostInventory.Text
