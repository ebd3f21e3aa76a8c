import HostInventory.Log.Directive
import HostInventory.Pattern.Usable
import HostInventory.Text.Decimal
import HostInventory.Text.Letter

/-! The log filter.

A filter is a list of rules. A rule has a threshold, and may ask for a part of the
program whose name starts an event's own, and for fields that an event has to carry;
a rule that asks for a span or for the value of a field judges no event. Of the rules
that judge an event the one with the longest name decides, of those the one that
asks for most fields, of those the one whose field is last by name, and of rules that
ask for the same the last one. An event that no rule judges does not pass.

A rule is read from the text between two commas. The places of its marks are found in
that text without the blanks around it, and its parts are cut out of the whole text at
the same byte positions; so blanks in front of a rule shift its parts, and a part that
would begin or end inside a character is a fault of its own. -/
namespace HostInventory.Log

structure Rule where
  target : Option String := none
  span : Option String := none
  /-- Names of fields, and whether a value is asked for. -/
  fields : List (String × Bool) := []
  level : Severity := .trace
deriving DecidableEq, Repr

namespace Rule

/-- The fields that every event has. -/
def commonFields : List String := ["message"]

/-- The rule decides on events. -/
def isStatic (r : Rule) : Bool :=
  r.span.isNone && r.fields.all fun f => !f.2

/-- The rule is about this event. -/
def judges (r : Rule) (e : Event) : Bool :=
  r.isStatic && (r.target.getD "").toList.isPrefixOf e.source.toList &&
    r.fields.all fun f => (e.fields ++ commonFields).contains f.1

/-- How much a rule asks for: whether it has a name, the length of it, and how many
fields. -/
def weight (r : Rule) : Nat × Nat × Nat :=
  match r.target with
  | none => (0, 0, r.fields.length)
  | some t => (1, t.utf8ByteSize, r.fields.length)

def fieldNames (r : Rule) : List String :=
  r.fields.map Prod.fst

/-- The rule `r` gives way to the later rule `later`. -/
def yieldsTo (r later : Rule) : Bool :=
  let (a, b, c) := r.weight
  let (a', b', c') := later.weight
  a < a' || (a = a' && (b < b' || (b = b' &&
    (c < c' || (c = c' && !decide (later.fieldNames < r.fieldNames))))))

end Rule

abbrev Filter := List Rule

namespace Filter

/-- The rule that decides on an event. -/
def ruleFor (f : Filter) (e : Event) : Option Rule :=
  (f.filter fun r => r.judges e).foldl
    (fun best r =>
      match best with
      | none => some r
      | some b => if b.yieldsTo r then some r else some b)
    none

def passes (f : Filter) (e : Event) : Bool :=
  match f.ruleFor e with
  | none => false
  | some r => r.level ≤ e.severity

end Filter

/-! ### Reading rules -/

/-- The threshold that a word names, in any case of letters or as a digit. -/
def readLevel (s : List Char) : Option Severity :=
  match Text.readNumeral Text.wordBound64 s with
  | some n => [Severity.off, .error, .warn, .info, .debug, .trace][n]?
  | none =>
    if s.isEmpty then some .error
    else
      let word := String.ofList (s.map Char.toLower)
      [Severity.trace, .debug, .info, .warn, .error, .off].find? fun l => l.name = word

/-- The threshold behind an equals sign; none at all is the lowest. -/
def readRuleLevel (s : List Char) : Option Severity :=
  if s.isEmpty then some .trace else readLevel s

/-- A value that a field may be asked for: a number or a pattern. -/
def isFieldValue (s : List Char) : Bool :=
  (Text.readFloat s).isSome || Pattern.isPattern s

/-- A field in braces: a name, and perhaps a value behind an equals sign, which ends at
the next one. -/
def readField (s : List Char) : Option (String × Bool) :=
  if s.isEmpty then none
  else
    match Text.pieces (· == '=') s with
    | name :: value :: _ => if isFieldValue value then some (String.ofList name, true) else none
    | _ => some (String.ofList s, false)

/-- A character that a rule may start with, if it does not start with a bracket. -/
def startsRule (c : Char) : Bool :=
  ['-', ':', '_'].contains c || Text.isLetterOrNumber c

/-- What a rule comes to, or why it is none. -/
abbrev RuleReading := Except SettingsError

/-- A fault unless there is something. -/
def orBadFilter {α : Type} : Option α → RuleReading α
  | some a => .ok a
  | none => .error .badFilter

/-- The part of a rule between two positions. -/
def cutOut (s : List Char) (a b : Nat) : RuleReading (List Char) :=
  (Text.part s a b).mapError .ruleCut

/-- The threshold from a position on, behind an equals sign. -/
def readLevelFrom (s : List Char) (a : Nat) (r : Rule) : RuleReading Rule := do
  let word ← (Text.partFrom s a).mapError .ruleCut
  let level ← orBadFilter (readRuleLevel word)
  return { r with level }

/-- The end of a rule behind its brackets; `ahead` begins at position `a`. -/
def readAfterSpan (s ahead : List Char) (a : Nat) (r : Rule) : RuleReading Rule :=
  match ahead with
  | [] => .ok r
  | '=' :: _ => readLevelFrom s (a + 1) r
  | _ => .error .badFilter

/-- The rest of a rule behind the brace of its field; `ahead` begins at position `a`. -/
def readFields (s ahead : List Char) (a : Nat) (r : Rule) : RuleReading Rule := do
  let inField := ahead.takeWhile (· != '\x7d')
  let stop := a + Text.byteLength inField
  match ahead.drop inField.length with
  | [] => .error .badFilter
  | _ :: ahead =>
    let f ← orBadFilter (readField (← cutOut s a stop))
    match ahead with
    | ']' :: ahead => readAfterSpan s ahead (stop + 2) { r with fields := [f] }
    | _ => .error .badFilter

/-- The rest of a rule behind its opening bracket; `ahead` begins at position `a`. -/
def readSpan (s ahead : List Char) (a : Nat) (r : Rule) : RuleReading Rule := do
  let inName := ahead.takeWhile fun c => c != ']' && c != '\x7b'
  let stop := a + Text.byteLength inName
  match ahead.drop inName.length with
  | [] => .error .badFilter
  | c :: ahead =>
    let name ← cutOut s a stop
    if c = ']' then readAfterSpan s ahead (stop + 1) { r with span := some (String.ofList name) }
    else
      let span := if name.isEmpty then none else some (String.ofList name)
      readFields s ahead (stop + 1) { r with span }

/-- A rule that starts with a word; `body` is the rule without the blanks around it. A
word alone is a threshold if it names one, and else a part of the program at the lowest
threshold. -/
def readNamed (s body : List Char) : RuleReading Rule := do
  let inName := body.takeWhile fun c => c != '=' && c != '['
  let stop := Text.byteLength inName
  match body.drop inName.length with
  | [] =>
    match readLevel s with
    | some level => return { level }
    | none => return { target := some (String.ofList s) }
  | c :: ahead =>
    let r : Rule := { target := some (String.ofList (← cutOut s 0 stop)) }
    if c = '=' then readLevelFrom s (stop + 1) r else readSpan s ahead (stop + 1) r

def readRule (s : List Char) : RuleReading Rule :=
  match Text.trim s with
  | [] => .error .badFilter
  | '[' :: ahead => readSpan s ahead 1 {}
  | c :: rest => if startsRule c then readNamed s (c :: rest) else .error .badFilter

/-- The rules of a text, with commas between them. -/
def readFilter (text : String) : RuleReading Filter :=
  (Text.pieces (· == ',') text.toList).mapM readRule

/-- Filtering by rules. -/
def filtering : Filtering Filter where
  read := readFilter
  passes := Filter.passes

/-- The filter that the program runs with. -/
def buildFilter (log : LogSettings) (s : Switches) (environment : Option String) :
    Except SettingsError Filter :=
  filtering.build log s environment

end HostInventory.Log
