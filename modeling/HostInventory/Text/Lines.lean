import HostInventory.Text.Blank

/-! Lines of a text.

A line ends at a line feed or at a carriage return and a line feed together; the
text after the last line feed is a line only if it is not empty, and keeps a
carriage return at its end. So a text that ends in a line feed has no empty last
line, and no line holds a line feed. -/
namespace HostInventory.Text

/-- The line without the carriage return that belongs to its end. -/
def dropReturn (line : List Char) : List Char :=
  match line.reverse with
  | '\r' :: rest => rest.reverse
  | _ => line

/-- The lines of a text, without their ends. -/
def lines (s : List Char) : List (List Char) :=
  let all := pieces (· == '\n') s
  let last := all.getLast?.getD []
  all.dropLast.map dropReturn ++ if last.isEmpty then [] else [last]

/-- A line that counts: neither blank nor a comment, without the blanks around it. -/
def substance? (line : List Char) : Option (List Char) :=
  match trim line with
  | [] => none
  | '#' :: _ => none
  | body => some body

theorem mem_of_mem_dropReturn {line : List Char} {c : Char} (h : c ∈ dropReturn line) :
    c ∈ line := by
  unfold dropReturn at h
  split at h
  · next rest he =>
    have : c ∈ line.reverse := he ▸ List.mem_cons_of_mem _ (List.mem_reverse.1 h)
    exact List.mem_reverse.1 this
  · exact h

end HostInventory.Text
