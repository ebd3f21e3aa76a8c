/-! The shortest decimal text of a double.

Every positive finite double is `bits * 2 ^ power` for whole numbers, and every real
number between the midpoints to its two neighbours rounds to it; a midpoint itself
rounds to the even one. Of the decimal numbers in that interval those with the fewest
digits are looked for, and of two the nearer one is taken. Seventeen digits always
suffice. -/
namespace HostInventory.Text

/-- The number `digits * 10 ^ exponent`. -/
structure ShortDecimal where
  digits : Nat
  exponent : Int
deriving DecidableEq, Repr

/-- A positive double as `bits * 2 ^ power`, with the distances to the midpoints below and
above it in units of `2 ^ (power - 2)`. -/
structure DoubleParts where
  bits : Nat
  power : Int
  below : Nat
deriving DecidableEq, Repr

/-- The value of a double's sign bit. -/
def signBit : Nat := 0x8000_0000_0000_0000

/-- The value of the lowest bit of a double's exponent, and of the first bit of its
mantissa, which is not written. -/
def hiddenBit : Nat := 0x10_0000_0000_0000

/-- The parts of a positive finite double. -/
def DoubleParts.of (x : Float) : DoubleParts :=
  let raw : Nat := x.toBits.toNat % signBit
  let fraction : Nat := raw % hiddenBit
  let field : Nat := raw / hiddenBit
  if field = 0 then ⟨fraction, -1074, 2⟩
  else ⟨hiddenBit + fraction, (field : Int) - 1075, if fraction = 0 ∧ 1 < field then 1 else 2⟩

/-- A power of two or ten, and one where the exponent is negative. -/
def powerOf (base : Nat) (exponent : Int) : Nat := base.pow exponent.toNat

/-- Whether `digits * 10 ^ exponent` rounds to the double. -/
def DoubleParts.covers (p : DoubleParts) (digits : Nat) (exponent : Int) : Bool :=
  let unit := p.power - 2
  let value := digits * powerOf 10 exponent * powerOf 2 (-unit)
  let bound (quarters : Nat) := quarters * powerOf 2 unit * powerOf 10 (-exponent)
  let low := bound (4 * p.bits - p.below)
  let high := bound (4 * p.bits + 2)
  if p.bits % 2 = 0 then low ≤ value && value ≤ high else low < value && value < high

/-- The decimal with the exponent next to the double, from below. -/
def DoubleParts.floorAt (p : DoubleParts) (exponent : Int) : Nat :=
  p.bits * powerOf 2 p.power * powerOf 10 (-exponent) / (powerOf 2 (-p.power) * powerOf 10 exponent)

/-- Whether the upper of two neighbouring decimals is nearer to the double. -/
def DoubleParts.upperIsNearer (p : DoubleParts) (lower : Nat) (exponent : Int) : Bool :=
  (2 * lower + 1) * (powerOf 2 (-p.power) * powerOf 10 exponent) <
    2 * (p.bits * powerOf 2 p.power * powerOf 10 (-exponent))

/-- The number of decimal digits. -/
def digitCount (n : Nat) : Nat := (Nat.toDigits 10 n).length

/-- The exponent of the first digit of a double. -/
def DoubleParts.magnitude (p : DoubleParts) : Int :=
  let scaled : Nat := p.bits * powerOf 2 p.power * powerOf 10 400 / powerOf 2 (-p.power)
  (digitCount scaled : Int) - 401

/-- The decimal of a given number of digits that rounds to the double, if there is one. -/
def DoubleParts.withDigits (p : DoubleParts) (count : Nat) : Option ShortDecimal :=
  let exponent := p.magnitude - (count : Int) + 1
  let lower := p.floorAt exponent
  let lowerCovered := p.covers lower exponent && lower ≠ 0
  let upperCovered := p.covers (lower + 1) exponent
  if lowerCovered && upperCovered then
    some ⟨if p.upperIsNearer lower exponent then lower + 1 else lower, exponent⟩
  else if lowerCovered then some ⟨lower, exponent⟩
  else if upperCovered then some ⟨lower + 1, exponent⟩
  else none

/-- The shortest decimal of a positive finite double. -/
def shortest (x : Float) : ShortDecimal :=
  let p := DoubleParts.of x
  ((List.range 17).findSome? fun n => p.withDigits (n + 1)).getD ⟨p.floorAt (-1074), -1074⟩

end HostInventory.Text
