import HostInventory.Toml.Number
import HostInventory.Toml.Text

/-! TOML documents.

A document is lines that set a key, open a table, or open one more table of an array.
A table is opened once. One that only came up on the way to another may still be
opened; one that came up in a key with dots may be extended by such keys alone; and a
value, tables in braces included, is closed. Arrays and tables in braces nest up to a
limit, and a key has no more parts than that. -/
namespace HostInventory.Toml

/-- How a table came up. -/
inductive Origin
  /-- By its own heading. -/
  | opened
  /-- On the way to a table below it. -/
  | passed
  /-- In a key with dots. -/
  | dotted
deriving DecidableEq

/-- What stands under a key while a document is being read. -/
inductive Item
  | value (v : Value)
  | table (origin : Origin) (entries : List (String × Item))
  /-- The tables of an array, last first. -/
  | tables (rows : List (List (String × Item)))

abbrev Entries := List (String × Item)

namespace Entries

def find? (entries : Entries) (key : String) : Option Item :=
  entries.lookup key

/-- The entries with another item under a key. -/
def put (entries : Entries) (key : String) (item : Item) : Entries :=
  if (entries.find? key).isSome then
    List.map (fun entry => if entry.1 = key then (key, item) else entry) entries
  else entries ++ [(key, item)]

/-- Applies `f` to the table at a path, where headings lead. -/
def modify (f : Entries → Option Entries) : List String → Entries → Option Entries
  | [], entries => f entries
  | key :: path, entries =>
    match entries.find? key with
    | none => (modify f path []).map fun inner => entries.put key (.table .passed inner)
    | some (.value _) => none
    | some (.table origin inner) =>
      (modify f path inner).map fun inner => entries.put key (.table origin inner)
    | some (.tables []) => none
    | some (.tables (row :: rows)) =>
      (modify f path row).map fun row => entries.put key (.tables (row :: rows))

/-- Sets a key behind the keys of a path. The table that it is set in came up in a key
with dots itself, unless the path is empty. -/
def set (key : String) (v : Value) : List String → Entries → Option Entries
  | [], entries => if (entries.find? key).isSome then none else some (entries.put key (.value v))
  | [last], entries =>
    match entries.find? last with
    | none => some (entries.put last (.table .dotted [(key, .value v)]))
    | some (.table .dotted inner) =>
      (set key v [] inner).map fun inner => entries.put last (.table .dotted inner)
    | some _ => none
  | step :: path, entries =>
    match entries.find? step with
    | none => (set key v path []).map fun inner => entries.put step (.table .dotted inner)
    | some (.table .opened _) => none
    | some (.table origin inner) =>
      (set key v path inner).map fun inner => entries.put step (.table origin inner)
    | some (.tables (row :: rows)) =>
      (set key v path row).map fun row => entries.put step (.tables (row :: rows))
    | some _ => none

/-- Opens a table. -/
def openTable (key : String) (entries : Entries) : Option Entries :=
  match entries.find? key with
  | none => some (entries.put key (.table .opened []))
  | some (.table .passed inner) => some (entries.put key (.table .opened inner))
  | some _ => none

/-- Opens one more table of an array. -/
def openRow (key : String) (entries : Entries) : Option Entries :=
  match entries.find? key with
  | none => some (entries.put key (.tables [[]]))
  | some (.tables rows) => some (entries.put key (.tables ([] :: rows)))
  | some _ => none

end Entries

mutual
def Item.toValue : Item → Value
  | .value v => v
  | .table _ entries => .table (entryValues entries)
  | .tables rows => .array (rowValues rows [])

def entryValues : List (String × Item) → List (String × Value)
  | [] => []
  | (key, item) :: rest => (key, item.toValue) :: entryValues rest

/-- The tables of an array in order; `after` holds those behind. -/
def rowValues : List (List (String × Item)) → List Value → List Value
  | [], after => after
  | row :: rows, after => rowValues rows (.table (entryValues row) :: after)
end

/-! ### Values -/

/-- The path and the name of a key with dots. -/
def splitPath (keys : List String) : List String × String :=
  (keys.dropLast, keys.getLast?.getD "")

/-- How deep arrays and tables in braces may lie in each other, and how many parts a key
may have. -/
def nestingLimit : Nat := 79

mutual
/-- A value; `fuel` bounds how deep and how far the reader goes, and `levels` is how many
more arrays and tables in braces may be opened inside each other. -/
def readValue : Nat → Nat → Reader Value
  | 0, _, _ => none
  | fuel + 1, levels, s =>
    match s with
    | '[' :: rest =>
      match levels with
      | 0 => none
      | levels + 1 => do
        let (items, rest) ← readItems fuel levels rest
        return (.array items, rest)
    | '{' :: rest =>
      match levels with
      | 0 => none
      | levels + 1 =>
        match skipBlanks rest with
        | '}' :: rest => some (.table [], rest)
        | rest => do
          let (entries, rest) ← readPairs fuel levels [] rest
          return (.table (entryValues entries), rest)
    | 't' :: 'r' :: 'u' :: 'e' :: rest => some (.boolean true, rest)
    | 'f' :: 'a' :: 'l' :: 's' :: 'e' :: rest => some (.boolean false, rest)
    | c :: _ =>
      if c = '"' ∨ c = '\x27' then (readText s).map fun (text, rest) => (.text text, rest)
      else readNumber s
    | [] => none

/-- The items of an array up to its end. -/
def readItems : Nat → Nat → Reader (List Value)
  | 0, _, _ => none
  | fuel + 1, levels, s => do
    match ← skipTrivia false s with
    | ']' :: rest => return ([], rest)
    | rest =>
      let (v, rest) ← readValue fuel levels rest
      match ← skipTrivia false rest with
      | ',' :: rest =>
        let (vs, rest) ← readItems fuel levels rest
        return (v :: vs, rest)
      | ']' :: rest => return ([v], rest)
      | _ => none

/-- The pairs of a table in braces up to its end, behind those read before. -/
def readPairs : Nat → Nat → Entries → Reader Entries
  | 0, _, _, _ => none
  | fuel + 1, levels, entries, s => do
    let (keys, rest) ← readPath nestingLimit s
    match skipBlanks rest with
    | '=' :: rest =>
      let (v, rest) ← readValue fuel levels (skipBlanks rest)
      let (path, key) := splitPath keys
      let entries ← entries.set key v path
      match skipBlanks rest with
      | ',' :: rest => readPairs fuel levels entries rest
      | '}' :: rest => return (entries, rest)
      | _ => none
    | _ => none
end

/-! ### Lines -/

/-- A document between two lines: what has been set, and the table that is open. -/
structure Builder where
  root : Entries := []
  path : List String := []

/-- A heading, behind its opening brackets. -/
def readHeading (isArray : Bool) (b : Builder) (s : List Char) : Option (Builder × List Char) := do
  let (keys, rest) ← readPath nestingLimit s
  let (path, key) := splitPath keys
  if isArray then
    let ']' :: ']' :: rest := rest | none
    let root ← b.root.modify (·.openRow key) path
    return (⟨root, keys⟩, rest)
  else
    let ']' :: rest := rest | none
    let root ← b.root.modify (·.openTable key) path
    return (⟨root, keys⟩, rest)

/-- A line that sets a key. -/
def readPair (b : Builder) (s : List Char) : Option (Builder × List Char) := do
  let (keys, rest) ← readPath nestingLimit s
  let '=' :: rest := rest | none
  let rest := skipBlanks rest
  let (v, rest) ← readValue (2 * rest.length + 2) nestingLimit rest
  let (path, key) := splitPath keys
  let root ← b.root.modify (fun entries => entries.set key v path) b.path
  return ({ b with root }, rest)

/-- The lines of a document, at most `fuel` of them. -/
def readLines : Nat → Builder → List Char → Option Entries
  | 0, _, _ => none
  | fuel + 1, b, s =>
    match skipBlanks s with
    | [] => some b.root
    | '[' :: '[' :: rest => do
      let (b, rest) ← readHeading true b rest
      readLines fuel b (← finishLine? rest)
    | '[' :: rest => do
      let (b, rest) ← readHeading false b rest
      readLines fuel b (← finishLine? rest)
    | rest =>
      match finishLine? rest with
      | some rest => readLines fuel b rest
      | none => do
        let (b, rest) ← readPair b rest
        readLines fuel b (← finishLine? rest)

/-- The table that a document stands for, if it is one. -/
def read (text : String) : Option (List (String × Value)) :=
  let s := match text.toList with
    | '\uFEFF' :: rest => rest
    | s => s
  (readLines (s.length + 1) {} s).map entryValues

end HostInventory.Toml
