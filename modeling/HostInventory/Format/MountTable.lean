import HostInventory.Format.Error
import HostInventory.Text.Lines
import HostInventory.Text.Utf8

/-! The mount table.

Each row that is neither blank nor a comment has at least four fields; the first
three are the device, the mount point and the type of the filesystem. In the first
two, characters that would break the row are written as a backslash and three octal
digits, one such group for a byte. A group is decoded once: what comes out of one
is never looked at again. -/
namespace HostInventory.Format

structure Mount where
  device : String
  point : String
  kind : String
deriving DecidableEq, Repr

namespace MountTable

/-- The value of an octal digit. -/
def octalDigit? (c : Char) : Option Nat :=
  if '0' ≤ c ∧ c ≤ '7' then some (c.toNat - '0'.toNat) else none

/-- The byte that three octal digits stand for. -/
def octalByte? (a b c : Char) : Option UInt8 := do
  let n := 64 * (← octalDigit? a) + 8 * (← octalDigit? b) + (← octalDigit? c)
  if n < 256 then some n.toUInt8 else none

/-- The bytes of a field, each octal group taken as its byte. -/
def fieldBytes : List Char → List UInt8
  | '\\' :: a :: b :: c :: rest =>
    match octalByte? a b c with
    | some byte => byte :: fieldBytes rest
    | none => String.utf8EncodeChar '\\' ++ fieldBytes (a :: b :: c :: rest)
  | c :: rest => String.utf8EncodeChar c ++ fieldBytes rest
  | [] => []

/-- The text of a field. -/
def readField (field : List Char) : String :=
  Text.Utf8.decodeLossy (fieldBytes field)

/-- The mount of a row, which is line `number` of the table counted from zero. -/
def readRow (row : List Char × Nat) : Except Error Mount :=
  match Text.words row.1 with
  | device :: point :: kind :: _ :: _ =>
    .ok ⟨readField device, readField point, String.ofList kind⟩
  | _ => .error (.mountFields (row.2 + 1))

/-- The mounts of the table, in order. -/
def read (text : String) : Except Error (List Mount) :=
  ((Text.lines text.toList).zipIdx.filter fun row => (Text.substance? row.1).isSome).mapM readRow

end MountTable
end HostInventory.Format
