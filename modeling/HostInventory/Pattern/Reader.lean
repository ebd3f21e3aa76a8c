import HostInventory.Pattern.Basic
import HostInventory.Text.Blank
import HostInventory.Text.Letter
import HostInventory.Text.Numeral

/-! Patterns read from texts.

A reader answers with what it read and the text behind it. Groups and brackets are read
to their ends by one recursion each, which carries what has been read of them so far.
In a spaced pattern, blanks and comments may stand wherever a piece may begin. Braces
have no use: a number of repetitions cannot be given, nor a character or an edge by
name. -/
namespace HostInventory.Pattern

/-! ### Space -/

/-- The text behind blanks and comments; `inside` says that it begins in a comment. -/
def skipComments (inside : Bool) : List Char → List Char
  | [] => []
  | c :: rest =>
    if inside then skipComments (c != '\n') rest
    else if c = '#' then skipComments true rest
    else if Text.isBlank c then skipComments false rest
    else c :: rest

/-- The text behind what does not count. -/
def skipSpace (spaced : Bool) (s : List Char) : List Char :=
  if spaced then skipComments false s else s

/-- The next character that is neither a blank nor the first mark of a comment, or the
next character if there is none. -/
def peek? (spaced : Bool) (s : List Char) : Option Char :=
  if spaced then
    let ahead := match s.dropWhile Text.isBlank with
      | '#' :: rest => rest.dropWhile Text.isBlank
      | ahead => ahead
    ahead.head?.or s.head?
  else s.head?

/-! ### Characters -/

/-- A character that a backslash makes stand for itself: any of ASCII but letters,
digits and angle brackets. -/
def standsForItself (c : Char) : Bool :=
  c.toNat < 0x80 && !c.isAlphanum && c != '<' && c != '>'

/-- The control that a letter behind a backslash stands for. -/
def control? : Char → Option Char
  | 'a' => some '\x07'
  | 'f' => some '\x0c'
  | 't' => some '\t'
  | 'n' => some '\n'
  | 'r' => some '\r'
  | 'v' => some '\x0b'
  | _ => none

/-- The value of `count` hexadecimal digits behind the value `n`. -/
def readDigits (spaced : Bool) : Nat → Nat → List Char → Option (Nat × List Char)
  | 0, n, s => some (n, s)
  | count + 1, n, s =>
    match skipSpace spaced s with
    | [] => none
    | c :: rest => do readDigits spaced count (16 * n + (← Text.hexDigit? c)) rest

/-- A character given by hexadecimal digits. -/
def readCode (spaced : Bool) (count : Nat) (s : List Char) : Option (Literal × List Char) := do
  let (n, rest) ← readDigits spaced count 0 s
  let char ← Text.scalar? n
  return ({ char, asByte := count = 2 }, rest)

/-- What stands behind a backslash. -/
def readEscape (spaced : Bool) : List Char → Option (Atom × List Char)
  | [] => none
  | c :: rest =>
    let code (count : Nat) := do
      let (l, rest) ← readCode spaced count rest
      return (.literal l, rest)
    if standsForItself c then some (.literal { char := c }, rest)
    else if c = 'x' then code 2
    else if c = 'u' then code 4
    else if c = 'U' then code 8
    else if ['d', 's', 'w'].contains c then some (.shorthand false, rest)
    else if ['D', 'S', 'W'].contains c then some (.shorthand true, rest)
    else if ['A', 'z'].contains c then some (.edge, rest)
    else if ['b', 'B', '<', '>'].contains c then some (.wordEdge, rest)
    else (control? c).map fun char => (.literal { char }, rest)

/-! ### Brackets -/

/-- The names of classes of ASCII characters. -/
def classNames : List String :=
  ["alnum", "alpha", "ascii", "blank", "cntrl", "digit", "graph", "lower", "print", "punct",
    "space", "upper", "word", "xdigit"]

/-- A class by its name, behind its opening bracket. -/
def readNamed (s : List Char) : Option (CharSet × List Char) := do
  let ':' :: s := s | none
  let (negated, s) := match s with
    | '^' :: rest => (true, rest)
    | s => (false, s)
  let name := String.ofList (s.takeWhile (· != ':'))
  let ':' :: ']' :: rest := s.dropWhile (· != ':') | none
  if classNames.contains name then some (.named negated name, rest) else none

/-- One character or shorthand in brackets. -/
def readMember (spaced : Bool) : List Char → Option (CharSet × List Char)
  | [] => none
  | '\\' :: rest => do
    match ← readEscape spaced rest with
    | (.literal l, rest) => return (.literal l, rest)
    | (.shorthand negated, rest) => return (.shorthand negated, rest)
    | _ => none
  | c :: rest => some (.literal { char := c }, rest)

/-- One item in brackets: a member, or a range from one character up to another. A dash
at the end or in front of a dash makes no range. -/
def readItem (spaced : Bool) (s : List Char) : Option (CharSet × List Char) := do
  let (low, rest) ← readMember spaced s
  match skipSpace spaced rest with
  | '-' :: behind =>
    if [some ']', some '-'].contains (peek? spaced behind) then return (low, '-' :: behind)
    else
      let (high, rest) ← readMember spaced (skipSpace spaced behind)
      match low, high with
      | .literal low, .literal high =>
        if low.char ≤ high.char then return (.range low high, rest) else none
      | _, _ => none
  | rest => return (low, rest)

/-- An operation between sets. -/
def readOperation? : List Char → Option (SetOperation × List Char)
  | '&' :: '&' :: rest => some (.intersection, rest)
  | '-' :: '-' :: rest => some (.difference, rest)
  | '~' :: '~' :: rest => some (.symmetricDifference, rest)
  | _ => none

/-- What has been read of the content of brackets. -/
structure SetProgress where
  /-- The items behind the last operation, last first. -/
  items : List CharSet := []
  /-- The last operation, and what it is applied to on its left. -/
  left : Option (SetOperation × CharSet) := none
  /-- Nothing but dashes has been read. -/
  fresh : Bool := true

namespace SetProgress

def push (p : SetProgress) (item : CharSet) : SetProgress :=
  { p with items := item :: p.items, fresh := false }

def pushDash (p : SetProgress) : SetProgress :=
  { p.push (.literal { char := '-' }) with fresh := true }

/-- The content so far. Operations apply from left to right. -/
def content (p : SetProgress) : CharSet :=
  let right := CharSet.ofItems p.items.reverse
  match p.left with
  | none => right
  | some (op, left) => .operation op left right

def operate (p : SetProgress) (op : SetOperation) : SetProgress :=
  { left := some (op, p.content), fresh := false }

end SetProgress

/-- The mark of a negated set, behind the opening bracket. -/
def readNegation (spaced : Bool) (s : List Char) : Bool × List Char :=
  match skipSpace spaced s with
  | '^' :: rest => (true, rest)
  | rest => (false, rest)

/-- The content of brackets up to the closing one, at most `fuel` items. Dashes at its
start stand for themselves, and so does a closing bracket there. -/
def readContent : Nat → Bool → SetProgress → List Char → Option (CharSet × List Char)
  | 0, _, _, _ => none
  | fuel + 1, spaced, p, s =>
    match skipSpace spaced s with
    | [] => none
    | c :: rest =>
      if p.fresh && c = '-' then readContent fuel spaced p.pushDash rest
      else if p.fresh && p.items.isEmpty && c = ']' then
        readContent fuel spaced (p.push (.literal { char := c })) rest
      else if c = ']' then some (p.content, rest)
      else if c = '[' then
        match readNamed rest with
        | some (item, rest) => readContent fuel spaced (p.push item) rest
        | none => do
          let (negated, rest) := readNegation spaced rest
          let (inner, rest) ← readContent fuel spaced {} rest
          readContent fuel spaced (p.push (.nested negated inner)) rest
      else
        match readOperation? (c :: rest) with
        | some (op, rest) => readContent fuel spaced (p.operate op) rest
        | none => do
          let (item, rest) ← readItem spaced (c :: rest)
          readContent fuel spaced (p.push item) rest

/-- A set, behind its opening bracket. -/
def readSet (spaced : Bool) (s : List Char) : Option (Pattern × List Char) := do
  let (negated, rest) := readNegation spaced s
  let (content, rest) ← readContent (s.length + 1) spaced {} rest
  return (.set negated content, rest)

/-! ### Groups -/

/-- Flags up to the colon or the parenthesis behind them, which is given too. A flag
stands once, and a dash, which turns to flags that are taken back, has one behind it. -/
def readFlags (s : List Char) : Option (FlagChange × Char × List Char) := do
  let isStop (c : Char) : Bool := c = ':' || c = ')'
  let stop :: rest := s.dropWhile fun c => !isStop c | none
  let change : FlagChange ←
    match Text.pieces (· == '-') (s.takeWhile fun c => !isStop c) with
    | [letters] => do pure { set := ← letters.mapM Flag.ofLetter? }
    | [_, []] => none
    | [letters, others] => do
      pure { set := ← letters.mapM Flag.ofLetter?, unset := ← others.mapM Flag.ofLetter? }
    | _ => none
  if (change.set ++ change.unset).Nodup then return (change, stop, rest) else none

/-- The name of a group up to its closing angle bracket. -/
def readName (s : List Char) : Option (String × List Char) := do
  let name := s.takeWhile (· != '>')
  let _ :: rest := s.dropWhile (· != '>') | none
  let first :: others := name | none
  let inName (c : Char) : Bool := ['_', '.', '[', ']'].contains c || Text.isLetterOrNumber c
  if (first = '_' || Text.isLetter first) && others.all inName then
    return (String.ofList name, rest)
  else none

/-- What an opening parenthesis begins. -/
inductive Opening
  | group (name : Option String) (change : FlagChange)
  /-- A change of flags for the rest of the group that it stands in. -/
  | flags (change : FlagChange)

/-- The start of a group, behind its parenthesis. -/
def readOpening : List Char → Option (Opening × List Char)
  | '?' :: 'P' :: '<' :: rest => (readName rest).map fun (name, rest) => (.group name {}, rest)
  | '?' :: '<' :: rest => (readName rest).map fun (name, rest) => (.group name {}, rest)
  | '?' :: rest => do
    let (change, stop, rest) ← readFlags rest
    if stop = ':' then return (.group none change, rest)
    else if change = {} then none
    else return (.flags change, rest)
  | rest => some (.group none {}, rest)

/-! ### Patterns -/

/-- What has been read of a group. -/
structure Progress where
  /-- The pieces of the branch that is being read, last first. -/
  items : List Pattern := []
  /-- The branches before it, last first. -/
  branches : List Pattern := []

namespace Progress

def push (p : Progress) (item : Pattern) : Progress :=
  { p with items := item :: p.items }

/-- The last piece is repeated, if there is one that can be. -/
def repeatLast? (p : Progress) : Option Progress :=
  match p.items with
  | [] => none
  | .flags _ :: _ => none
  | item :: rest => some { p with items := .repetition item :: rest }

def endBranch (p : Progress) : Progress :=
  { branches := ofItems p.items.reverse :: p.branches }

def pattern (p : Progress) : Pattern :=
  match p.branches with
  | [] => ofItems p.items.reverse
  | _ :: _ => .choice p.endBranch.branches.reverse

end Progress

/-- A piece that begins with the character `c`, which opens nothing. -/
def readAtom (spaced : Bool) (c : Char) (rest : List Char) : Option (Atom × List Char) :=
  if c = '\\' then readEscape spaced rest
  else if c = '.' then some (.any, rest)
  else if c = '^' || c = '$' then some (.edge, rest)
  else if c = '\x7b' then none
  else some (.literal { char := c }, rest)

/-- The mark behind a repetition that turns its greed. -/
def skipGreed : List Char → List Char
  | '?' :: rest => rest
  | rest => rest

/-- The names of groups with one more, which must be new. -/
def addName (names : List String) : Option String → Option (List String)
  | none => some names
  | some name => if names.contains name then none else some (name :: names)

/-- The content of a group up to its closing parenthesis or the end, at most `fuel` pieces;
`names` are those of the groups before. -/
def readBody : Nat → Bool → List String → Progress → List Char →
    Option (Pattern × List String × List Char)
  | 0, _, _, _, _ => none
  | fuel + 1, spaced, names, p, s =>
    match skipSpace spaced s with
    | [] => some (p.pattern, names, [])
    | c :: rest =>
      if c = ')' then some (p.pattern, names, c :: rest)
      else if c = '(' then do
        match ← readOpening (skipSpace spaced rest) with
        | (.flags change, rest) =>
          readBody fuel (change.apply .spaced spaced) names (p.push (.flags change)) rest
        | (.group name change, rest) =>
          let names ← addName names name
          let (body, names, rest) ← readBody fuel (change.apply .spaced spaced) names {} rest
          let ')' :: rest := rest | none
          readBody fuel spaced names (p.push (.group change body)) rest
      else if c = '|' then readBody fuel spaced names p.endBranch rest
      else if c = '[' then do
        let (item, rest) ← readSet spaced rest
        readBody fuel spaced names (p.push item) rest
      else if c = '*' || c = '+' || c = '?' then do
        readBody fuel spaced names (← p.repeatLast?) (skipGreed rest)
      else do
        let (a, rest) ← readAtom spaced c rest
        readBody fuel spaced names (p.push (.atom a)) rest

/-- The pattern that a text is. -/
def read (s : List Char) : Option Pattern := do
  match ← readBody (s.length + 1) false [] {} s with
  | (pattern, _, []) => return pattern
  | _ => none

end HostInventory.Pattern
