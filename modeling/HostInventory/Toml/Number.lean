import HostInventory.Text.Blank
import HostInventory.Text.Decimal
import HostInventory.Toml.Value

/-! Numbers and points in time.

Digits of a number may have single underscores between them. An integer fits into 64
bits with a sign; in another base than ten it has no sign of its own. -/
namespace HostInventory.Toml

/-- A row of digits with underscores between them, without those. -/
def readDigits (isDigit : Char → Bool) (s : List Char) : Option (List Char × List Char) :=
  let run := s.takeWhile fun c => isDigit c || c = '_'
  let rest := s.dropWhile fun c => isDigit c || c = '_'
  let parts := Text.pieces (· == '_') run
  if parts.any List.isEmpty then none else some (parts.flatten, rest)

/-- The sign of a number, `true` for minus. -/
def readSign : List Char → Bool × List Char
  | '-' :: rest => (true, rest)
  | '+' :: rest => (false, rest)
  | s => (false, s)

/-- One more than the largest integer. -/
def integerBound : Nat := 0x8000_0000_0000_0000

/-- An integer in base sixteen, eight or two, behind the mark of its base. -/
def readBased (base : Nat) (isDigit : Char → Bool) (s : List Char) :
    Option (Value × List Char) := do
  let (digits, rest) ← readDigits isDigit s
  let n := digits.foldl (fun n c => base * n + (Text.hexDigit? c).getD 0) 0
  if n < integerBound then some (.integer n, rest) else none

/-- The part of a real number behind its whole part, if there is one: its fraction and
exponent as they are written, without underscores. -/
def readTail? (s : List Char) : Option (Option (List Char × List Char)) :=
  let exponent (s : List Char) : Option (List Char × List Char) :=
    match s with
    | c :: rest =>
      if c = 'e' ∨ c = 'E' then do
        let (minus, rest) := readSign rest
        let (digits, rest) ← readDigits Char.isDigit rest
        return ('e' :: (if minus then ['-'] else []) ++ digits, rest)
      else some ([], s)
    | [] => some ([], s)
  match s with
  | '.' :: rest => do
    let (fraction, rest) ← readDigits Char.isDigit rest
    let (e, rest) ← exponent rest
    return some ('.' :: fraction ++ e, rest)
  | c :: _ => if c = 'e' ∨ c = 'E' then (exponent s).map some else some none
  | [] => some none

/-- A number in base ten. -/
def readDecimalNumber (s : List Char) : Option (Value × List Char) := do
  let (minus, body) := readSign s
  let (digits, rest) ← readDigits Char.isDigit body
  if digits.length > 1 && digits.head? == some '0' then none
  else
    match ← readTail? rest with
    | none =>
      let n := Text.decimalValue digits
      if n < integerBound then some (.integer (if minus then -n else n), rest)
      else if minus && n = integerBound then some (.integer (-n), rest)
      else none
    | some (tail, rest) =>
      let x ← Text.readFloat (digits ++ tail)
      if x.isInf && !minus then none else some (.real, rest)

/-! ### Points in time -/

/-- A number of exactly `width` digits. -/
def readFixed (width : Nat) (s : List Char) : Option (Nat × List Char) :=
  let digits := s.take width
  if digits.length = width && digits.all Char.isDigit then
    some (Text.decimalValue digits, s.drop width)
  else none

def isLeap (year : Nat) : Bool :=
  year % 4 = 0 && (year % 100 ≠ 0 || year % 400 = 0)

def daysIn (year month : Nat) : Nat :=
  if month = 2 then if isLeap year then 29 else 28
  else if month = 4 ∨ month = 6 ∨ month = 9 ∨ month = 11 then 30
  else 31

def readDate (s : List Char) : Option (List Char) := do
  let (year, rest) ← readFixed 4 s
  let '-' :: rest := rest | none
  let (month, rest) ← readFixed 2 rest
  let '-' :: rest := rest | none
  let (day, rest) ← readFixed 2 rest
  if 1 ≤ month ∧ month ≤ 12 ∧ 1 ≤ day ∧ day ≤ daysIn year month then some rest else none

def readTime (s : List Char) : Option (List Char) := do
  let (hour, rest) ← readFixed 2 s
  let ':' :: rest := rest | none
  let (minute, rest) ← readFixed 2 rest
  let ':' :: rest := rest | none
  let (second, rest) ← readFixed 2 rest
  if hour ≤ 23 ∧ minute ≤ 59 ∧ second ≤ 60 then
    match rest with
    | '.' :: c :: rest => if c.isDigit then some (rest.dropWhile Char.isDigit) else none
    | '.' :: [] => none
    | rest => some rest
  else none

/-- What follows an offset from universal time, which may be missing. -/
def readOffset (s : List Char) : Option (List Char) :=
  match s with
  | c :: rest =>
    if c = 'Z' ∨ c = 'z' then some rest
    else if c = '+' ∨ c = '-' then do
      let (hour, rest) ← readFixed 2 rest
      let ':' :: rest := rest | none
      let (minute, rest) ← readFixed 2 rest
      if hour ≤ 23 ∧ minute ≤ 59 then some rest else none
    else some s
  | [] => some s

/-- A date, a time, or both with or without an offset. -/
def readMoment (s : List Char) : Option (Value × List Char) :=
  match readDate s with
  | none => (readTime s).map fun rest => (.moment, rest)
  | some rest =>
    match rest with
    | c :: after =>
      if c = 'T' ∨ c = 't' then
        ((readTime after).bind readOffset).map fun rest => (.moment, rest)
      else if c = ' ' then
        match (readTime after).bind readOffset with
        | some rest => some (.moment, rest)
        | none => some (.moment, rest)
      else some (.moment, rest)
    | [] => some (.moment, rest)

/-- A number or a point in time. -/
def readNumber (s : List Char) : Option (Value × List Char) :=
  match s with
  | '0' :: 'x' :: rest => readBased 16 (fun c => (Text.hexDigit? c).isSome) rest
  | '0' :: 'o' :: rest => readBased 8 (fun c => '0' ≤ c && c ≤ '7') rest
  | '0' :: 'b' :: rest => readBased 2 (fun c => c = '0' || c = '1') rest
  | _ =>
    match readMoment s with
    | some read => some read
    | none =>
      let (_, body) := readSign s
      if "inf".toList.isPrefixOf body || "nan".toList.isPrefixOf body then
        some (.real, body.drop 3)
      else readDecimalNumber s

end HostInventory.Toml
