/-! Documents.

What this library reports to other programs is a document: a value of named fields,
rows, texts, counts and real numbers. The order of fields is the order in which they
are written. -/
namespace HostInventory

inductive Document
  | null
  | bool (b : Bool)
  | count (n : Nat)
  | real (x : Float)
  | text (s : String)
  | row (items : List Document)
  | record (fields : List (String × Document))

namespace Document

/-- A document for a value that may be missing. -/
def optional {α : Type} (f : α → Document) : Option α → Document
  | none => .null
  | some a => f a

/-- A number that is not finite has no document of its own. -/
def ofFloat (x : Float) : Document :=
  if x.isFinite then .real x else .null

end Document
end HostInventory
