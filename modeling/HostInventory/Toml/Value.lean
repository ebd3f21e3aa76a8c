/-! Values of a TOML document.

A value of a kind that no setting has, a real number or a point in time, is kept
only as being one. -/
namespace HostInventory.Toml

inductive Value
  | text (s : String)
  | integer (n : Int)
  | real
  | boolean (b : Bool)
  | moment
  | array (items : List Value)
  | table (entries : List (String × Value))

/-- A reader of the start of a text, with what is left behind it. -/
abbrev Reader (α : Type) := List Char → Option (α × List Char)

def isBlank (c : Char) : Bool :=
  c = ' ' || c = '\t'

def skipBlanks (s : List Char) : List Char :=
  s.dropWhile isBlank

/-- Characters that may stand in a comment: no control but the tab. -/
def isPlain (c : Char) : Bool :=
  c = '\t' || (0x20 ≤ c.toNat && c.toNat ≤ 0x7E) || 0x80 ≤ c.toNat

/-- What follows the end of a line, if the text is at one. -/
def lineEnd? : List Char → Option (List Char)
  | [] => some []
  | '\n' :: rest => some rest
  | '\r' :: '\n' :: rest => some rest
  | _ => none

/-- What follows a line with nothing but blanks and a comment on it. -/
def finishLine? (s : List Char) : Option (List Char) :=
  match skipBlanks s with
  | '#' :: rest => lineEnd? (rest.dropWhile isPlain)
  | rest => lineEnd? rest

/-- What follows blanks, comments and ends of lines; `inComment` says whether the text
starts inside a comment. -/
def skipTrivia (inComment : Bool) : List Char → Option (List Char)
  | [] => some []
  | '\n' :: rest => skipTrivia false rest
  | '\r' :: '\n' :: rest => skipTrivia false rest
  | c :: rest =>
    if inComment then if isPlain c then skipTrivia true rest else none
    else if isBlank c then skipTrivia false rest
    else if c = '#' then skipTrivia true rest
    else some (c :: rest)

end HostInventory.Toml
