import HostInventory.Text.Numeral
import HostInventory.Toml.Value

/-! Texts and keys.

A text stands between two quotes or three, and with double quotes it may hold
escapes. Between three quotes it may hold ends of lines, which read as line feeds,
and up to two quotes in a row, also at its end; the first end of line does not
belong to it. -/
namespace HostInventory.Toml

/-- The character of a code point written in hexadecimal. -/
def scalar? (digits : List Char) : Option Char := do
  let n ← digits.foldlM (fun n c => (Text.hexDigit? c).map fun d => 16 * n + d) 0
  Text.scalar? n

/-- The character of an escape with a single letter. -/
def escaped? : Char → Option Char
  | 'b' => some '\x08'
  | 'f' => some '\x0c'
  | 'n' => some '\n'
  | 'r' => some '\r'
  | 't' => some '\t'
  | '"' => some '"'
  | '\\' => some '\\'
  | _ => none

/-- The rest of a text on one line between double quotes; `read` is last first. -/
def readBasic (read : List Char) : Reader String
  | '"' :: rest => some (String.ofList read.reverse, rest)
  | '\\' :: 'u' :: a :: b :: c :: d :: rest => do
    readBasic ((← scalar? [a, b, c, d]) :: read) rest
  | '\\' :: 'U' :: a :: b :: c :: d :: e :: f :: g :: h :: rest => do
    readBasic ((← scalar? [a, b, c, d, e, f, g, h]) :: read) rest
  | '\\' :: c :: rest => do readBasic ((← escaped? c) :: read) rest
  | c :: rest => if isPlain c then readBasic (c :: read) rest else none
  | [] => none

/-- The rest of a text on one line between single quotes. -/
def readLiteral (read : List Char) : Reader String
  | '\x27' :: rest => some (String.ofList read.reverse, rest)
  | c :: rest => if isPlain c then readLiteral (c :: read) rest else none
  | [] => none

/-- Only blanks stand before the end of the line. -/
def endsLine (s : List Char) : Bool :=
  match skipBlanks s with
  | '\n' :: _ => true
  | '\r' :: '\n' :: _ => true
  | _ => false

/-- The rest of a text between three double quotes. A backslash at the end of a line
leaves out the blanks and line ends that follow; `skipping` says that this is on. -/
def readBasicLines (skipping : Bool) (read : List Char) : Reader String
  | '"' :: '"' :: '"' :: '"' :: '"' :: rest =>
    some (String.ofList ('"' :: '"' :: read).reverse, rest)
  | '"' :: '"' :: '"' :: '"' :: rest => some (String.ofList ('"' :: read).reverse, rest)
  | '"' :: '"' :: '"' :: rest => some (String.ofList read.reverse, rest)
  | '\n' :: rest =>
    if skipping then readBasicLines true read rest else readBasicLines false ('\n' :: read) rest
  | '\r' :: '\n' :: rest =>
    if skipping then readBasicLines true read rest else readBasicLines false ('\n' :: read) rest
  | '\\' :: 'u' :: a :: b :: c :: d :: rest => do
    readBasicLines false ((← scalar? [a, b, c, d]) :: read) rest
  | '\\' :: 'U' :: a :: b :: c :: d :: e :: f :: g :: h :: rest => do
    readBasicLines false ((← scalar? [a, b, c, d, e, f, g, h]) :: read) rest
  | '\\' :: c :: rest =>
    if endsLine (c :: rest) then readBasicLines true read (c :: rest)
    else do readBasicLines false ((← escaped? c) :: read) rest
  | c :: rest =>
    if skipping && isBlank c then readBasicLines true read rest
    else if isPlain c then readBasicLines false (c :: read) rest
    else none
  | [] => none

/-- The rest of a text between three single quotes. -/
def readLiteralLines (read : List Char) : Reader String
  | '\x27' :: '\x27' :: '\x27' :: '\x27' :: '\x27' :: rest =>
    some (String.ofList ('\x27' :: '\x27' :: read).reverse, rest)
  | '\x27' :: '\x27' :: '\x27' :: '\x27' :: rest =>
    some (String.ofList ('\x27' :: read).reverse, rest)
  | '\x27' :: '\x27' :: '\x27' :: rest => some (String.ofList read.reverse, rest)
  | '\n' :: rest => readLiteralLines ('\n' :: read) rest
  | '\r' :: '\n' :: rest => readLiteralLines ('\n' :: read) rest
  | c :: rest => if isPlain c then readLiteralLines (c :: read) rest else none
  | [] => none

/-- The text without an end of line at its start. -/
def skipFirstEnd (s : List Char) : List Char :=
  match s with
  | '\n' :: rest => rest
  | '\r' :: '\n' :: rest => rest
  | s => s

/-- A text in any of the four kinds of quotes. -/
def readText : Reader String
  | '"' :: '"' :: '"' :: rest => readBasicLines false [] (skipFirstEnd rest)
  | '"' :: rest => readBasic [] rest
  | '\x27' :: '\x27' :: '\x27' :: rest => readLiteralLines [] (skipFirstEnd rest)
  | '\x27' :: rest => readLiteral [] rest
  | _ => none

/-! ### Keys -/

/-- Characters of a key without quotes. -/
def isBareKey (c : Char) : Bool :=
  c.isAlphanum || c = '-' || c = '_'

def readKey : Reader String
  | '"' :: rest => readBasic [] rest
  | '\x27' :: rest => readLiteral [] rest
  | s =>
    let key := s.takeWhile isBareKey
    if key.isEmpty then none else some (String.ofList key, s.dropWhile isBareKey)

/-- Keys with dots between them, at most `fuel` of them. -/
def readPath : Nat → Reader (List String)
  | 0, _ => none
  | fuel + 1, s => do
    let (key, rest) ← readKey (skipBlanks s)
    match skipBlanks rest with
    | '.' :: rest =>
      let (keys, rest) ← readPath fuel rest
      return (key :: keys, rest)
    | rest => return ([key], rest)

end HostInventory.Toml
