import HostInventory.Document
import HostInventory.Text.Quoted
import HostInventory.Text.Shortest

/-! Documents as JSON text.

A document is written on one line without blanks, its fields in their order. In a
text the quote, the backslash and the controls are escaped, five of the controls by a
letter, and nothing else. A real number is written with the fewest digits that read
back as it: positionally where its point lies among or shortly before its digits, and
else with an exponent. -/
namespace HostInventory.Document

/-- Two hexadecimal digits of a number below 256. -/
def hexPair (n : Nat) : List Char :=
  [Nat.digitChar (n / 16), Nat.digitChar (n % 16)]

/-- One character of a text. -/
def escapeChar (c : Char) : List Char :=
  if c = '"' then ['\\', '"']
  else if c = '\\' then ['\\', '\\']
  else if c = '\n' then ['\\', 'n']
  else if c = '\r' then ['\\', 'r']
  else if c = '\t' then ['\\', 't']
  else if c = '\x08' then ['\\', 'b']
  else if c = '\x0c' then ['\\', 'f']
  else if c.toNat < 0x20 then ['\\', 'u', '0', '0'] ++ hexPair c.toNat
  else [c]

/-- A text in quotes. -/
def quote (s : String) : String :=
  String.ofList ('"' :: s.toList.flatMap escapeChar ++ ['"'])

/-- How real numbers are written: the places before the point up to which they are
written positionally, and the zeros behind the point before the first digit. -/
structure RealFormat where
  places : Int
  leadingZeros : Int

def realFormat : RealFormat := ⟨16, 4⟩

/-- A positive real number from its digits and exponent. -/
def writeDecimal (f : RealFormat) (d : Text.ShortDecimal) : String :=
  let digits := toString d.digits
  let count : Int := digits.length
  let point := count + d.exponent
  let zeros (n : Int) := String.ofList (List.replicate n.toNat '0')
  if 0 ≤ d.exponent ∧ point ≤ f.places then digits ++ zeros d.exponent ++ ".0"
  else if 0 < point ∧ point ≤ f.places then
    String.ofList (digits.toList.take point.toNat) ++ "." ++
      String.ofList (digits.toList.drop point.toNat)
  else if -f.leadingZeros ≤ point ∧ point ≤ 0 then "0." ++ zeros (-point) ++ digits
  else
    let fraction := String.ofList (digits.toList.drop 1)
    let first := String.ofList (digits.toList.take 1)
    (if count = 1 then first else first ++ "." ++ fraction) ++ "e" ++ toString (point - 1)

/-- A decimal without zeros at the end of its digits. -/
def dropZeros (fuel : Nat) (d : Text.ShortDecimal) : Text.ShortDecimal :=
  match fuel with
  | 0 => d
  | fuel + 1 => if d.digits % 10 = 0 then dropZeros fuel ⟨d.digits / 10, d.exponent + 1⟩ else d

/-- A finite real number. -/
def writeReal (x : Float) : String :=
  let sign := if x.toBits.toNat ≥ Text.signBit then "-" else ""
  if x == 0.0 then sign ++ "0.0"
  else sign ++ writeDecimal realFormat (dropZeros 20 (Text.shortest x.abs))

mutual
def render : Document → String
  | .null => "null"
  | .bool b => if b then "true" else "false"
  | .count n => toString n
  | .real x => writeReal x
  | .text s => quote s
  | .row items => "[" ++ ",".intercalate (renderAll items) ++ "]"
  | .record fields => "\x7b" ++ ",".intercalate (renderFields fields) ++ "\x7d"

def renderAll : List Document → List String
  | [] => []
  | d :: rest => d.render :: renderAll rest

def renderFields : List (String × Document) → List String
  | [] => []
  | (name, d) :: rest => (quote name ++ ":" ++ d.render) :: renderFields rest
end

end HostInventory.Document
