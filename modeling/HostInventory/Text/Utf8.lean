/-! Text as bytes in UTF-8.

The decoder takes one byte at a time and holds how many continuation bytes are
owed and in which range the next one must lie. A byte outside that range ends the
character begun before it, which is then ill-formed as a whole, and is looked at
again as a first byte; so each maximal piece of a well-formed character counts as
one fault. `decode?` reads a text exactly from bytes without a fault, and
`decodeLossy` puts the replacement character for each fault. -/
namespace HostInventory.Text.Utf8

/-- A character begun: its bits so far, the continuation bytes still owed, and the
range of the next one. -/
structure Pending where
  bits : Nat
  owed : Nat
  low : Nat
  high : Nat
deriving Repr

/-- The decoder between two bytes: what it has read, last first, with `none` for a
fault, and the character it is in. -/
structure Decoder where
  read : List (Option Char) := []
  pending : Option Pending := none

/-- A byte where a character starts. -/
def start (b : Nat) : Option Char ⊕ Pending :=
  if b < 0x80 then .inl (some (Char.ofNat b))
  else if 0xC2 ≤ b ∧ b ≤ 0xDF then .inr ⟨b - 0xC0, 1, 0x80, 0xBF⟩
  else if b = 0xE0 then .inr ⟨0, 2, 0xA0, 0xBF⟩
  else if b = 0xED then .inr ⟨0xD, 2, 0x80, 0x9F⟩
  else if 0xE1 ≤ b ∧ b ≤ 0xEF then .inr ⟨b - 0xE0, 2, 0x80, 0xBF⟩
  else if b = 0xF0 then .inr ⟨0, 3, 0x90, 0xBF⟩
  else if 0xF1 ≤ b ∧ b ≤ 0xF3 then .inr ⟨b - 0xF0, 3, 0x80, 0xBF⟩
  else if b = 0xF4 then .inr ⟨4, 3, 0x80, 0x8F⟩
  else .inl none

def Decoder.begin (d : Decoder) (b : Nat) : Decoder :=
  match start b with
  | .inl c => ⟨c :: d.read, none⟩
  | .inr p => ⟨d.read, some p⟩

def Decoder.next (d : Decoder) (byte : UInt8) : Decoder :=
  let b := byte.toNat
  match d.pending with
  | none => d.begin b
  | some p =>
    if p.low ≤ b ∧ b ≤ p.high then
      let bits := p.bits * 64 + b % 64
      if p.owed ≤ 1 then ⟨some (Char.ofNat bits) :: d.read, none⟩
      else ⟨d.read, some ⟨bits, p.owed - 1, 0x80, 0xBF⟩⟩
    else Decoder.begin ⟨none :: d.read, none⟩ b

/-- The characters of a row of bytes, with `none` for each fault. -/
def decode (bytes : List UInt8) : List (Option Char) :=
  let d := bytes.foldl Decoder.next {}
  (if d.pending.isSome then none :: d.read else d.read).reverse

/-- The text of bytes that are UTF-8 throughout. -/
def decode? (bytes : List UInt8) : Option String :=
  let read := decode bytes
  if read.all Option.isSome then some (String.ofList (read.filterMap id)) else none

/-- The text of any bytes, with the replacement character for each fault. -/
def decodeLossy (bytes : List UInt8) : String :=
  String.ofList ((decode bytes).map fun c => c.getD '\uFFFD')

def encode (s : List Char) : List UInt8 :=
  s.flatMap String.utf8EncodeChar

end HostInventory.Text.Utf8
