import HostInventory.Text.Numeral

/-! Decimal numbers read as binary floating point.

A decimal number is an optional sign, digits with an optional point among or
around them, and an optional exponent; the words for infinity and not-a-number
count too, in any case of letters. The value is `mantissa * 10 ^ exponent`,
rounded once to the nearest double. A mantissa and exponent that put the value
beyond every double are settled before any power of ten is formed. -/
namespace HostInventory.Text

/-- The number `mantissa * 10 ^ exponent`. -/
structure Decimal where
  mantissa : Nat
  exponent : Int
deriving DecidableEq, Repr

/-- The nearest double. Values from `10 ^ 400` up are infinite and values below
`10 ^ (-400)` zero, both far outside the range of doubles. -/
def Decimal.toFloat (d : Decimal) : Float :=
  let size : Int := (toString d.mantissa).length + d.exponent
  if d.mantissa = 0 ∨ size < -400 then 0.0
  else if 400 < size then 1.0 / 0.0
  else Float.ofScientific d.mantissa (d.exponent < 0) d.exponent.natAbs

/-- The exponent after its mark, if the text is one. -/
def readExponent : List Char → Option Int
  | '-' :: digits => (readDigits digits).map fun n => -(n : Int)
  | '+' :: digits => (readDigits digits).map fun n => (n : Int)
  | digits => (readDigits digits).map fun n => (n : Int)
where
  /-- The value of a row of digits that is not empty. -/
  readDigits (digits : List Char) : Option Nat :=
    if !digits.isEmpty && digits.all Char.isDigit then some (decimalValue digits) else none

/-- A decimal number without its sign. -/
def readDecimal (s : List Char) : Option Decimal :=
  let whole := s.takeWhile Char.isDigit
  let rest := s.dropWhile Char.isDigit
  let (fraction, rest) :=
    match rest with
    | '.' :: rest => (rest.takeWhile Char.isDigit, rest.dropWhile Char.isDigit)
    | rest => ([], rest)
  if whole.isEmpty && fraction.isEmpty then none
  else
    let value (e : Int) : Decimal := ⟨decimalValue (whole ++ fraction), e - fraction.length⟩
    match rest with
    | [] => some (value 0)
    | c :: rest => if c = 'e' ∨ c = 'E' then (readExponent rest).map value else none

/-- The double that a text of a number stands for. -/
def readFloat (s : List Char) : Option Float :=
  match s with
  | '-' :: rest => (unsigned rest).map fun x => -x
  | '+' :: rest => unsigned rest
  | rest => unsigned rest
where
  unsigned (s : List Char) : Option Float :=
    let name := s.map Char.toLower
    if name = "inf".toList ∨ name = "infinity".toList then some (1.0 / 0.0)
    else if name = "nan".toList then some (0.0 / 0.0)
    else (readDecimal s).map Decimal.toFloat

end HostInventory.Text
