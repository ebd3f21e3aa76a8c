/-! Unsigned numerals below a bound.

A numeral is digits with an optional plus sign in front; leading zeros count for
nothing. `readNumeral` answers with the value exactly when there is at least one
digit, nothing else, and the value lies below the bound. `readHexadecimal` reads
in base sixteen and says what is wrong with a text that is no numeral; of two
faults the one further left is reported, and a foreign character at a place
before an excess of the bound at the same place. -/
namespace HostInventory.Text

/-- One more than the largest 32-bit word. -/
def wordBound32 : Nat := 0x1_0000_0000

/-- One more than the largest 64-bit word. -/
def wordBound64 : Nat := 0x1_0000_0000_0000_0000

/-- The text without a plus sign at its start. -/
def dropPlus : List Char → List Char
  | '+' :: rest => rest
  | s => s

/-- The value of a row of decimal digits. -/
def decimalValue (digits : List Char) : Nat :=
  digits.foldl (fun n c => 10 * n + (c.toNat - '0'.toNat)) 0

/-- The value of a decimal numeral below `bound`. -/
def readNumeral (bound : Nat) (s : List Char) : Option Nat :=
  let digits := dropPlus s
  if !digits.isEmpty && digits.all Char.isDigit && decimalValue digits < bound then
    some (decimalValue digits)
  else none

/-- What keeps a text from being a numeral. -/
inductive NumeralFault
  | empty
  | foreignDigit
  | tooLarge
deriving DecidableEq, Repr

def NumeralFault.message : NumeralFault → String
  | .empty => "cannot parse integer from empty string"
  | .foreignDigit => "invalid digit found in string"
  | .tooLarge => "number too large to fit in target type"

/-- The value of a hexadecimal digit, in either case. -/
def hexDigit? (c : Char) : Option Nat :=
  if c.isDigit then some (c.toNat - '0'.toNat)
  else if 'a' ≤ c ∧ c ≤ 'f' then some (c.toNat - 'a'.toNat + 10)
  else if 'A' ≤ c ∧ c ≤ 'F' then some (c.toNat - 'A'.toNat + 10)
  else none

/-- The character of a code point. -/
def scalar? (n : Nat) : Option Char :=
  if n < 0xD800 ∨ (0xDFFF < n ∧ n < 0x110000) then some (Char.ofNat n) else none

/-- One more hexadecimal digit behind the value `n`. -/
def pushHexDigit (bound n : Nat) (c : Char) : Except NumeralFault Nat :=
  match hexDigit? c with
  | none => .error .foreignDigit
  | some d => if 16 * n + d < bound then .ok (16 * n + d) else .error .tooLarge

/-- The value of a hexadecimal numeral below `bound`. A sign alone is a foreign digit. -/
def readHexadecimal (bound : Nat) (s : List Char) : Except NumeralFault Nat :=
  match s with
  | [] => .error .empty
  | ['+'] => .error .foreignDigit
  | _ => (dropPlus s).foldlM (pushHexDigit bound) 0

theorem readNumeral_lt {bound n : Nat} {s : List Char} (h : readNumeral bound s = some n) :
    n < bound := by
  unfold readNumeral at h
  simp only at h
  split at h
  · next hc =>
    simp only [Bool.and_eq_true, decide_eq_true_eq] at hc
    cases h
    exact hc.2
  · cases h

end HostInventory.Text
