import HostInventory.Settings.Load

/-! Thresholds as directives.

The settings and the switches of the command line make one threshold for everything
and one for each part of the program that has its own. Asking for more never raises
a threshold. Asking for quiet puts the one for everything to `error`, silence too, and
raises that of a part to `error` at least. A directive is written as its threshold,
behind the part's name and an equals sign if it is about a part; names are checked
first, so that no name can hold a comma or an equals sign. What becomes of the text is
left open (`Filtering`). -/
namespace HostInventory.Log

/-- The switches of the command line that are about the log. -/
structure Switches where
  verbosity : Nat := 0
  quiet : Bool := false
deriving DecidableEq, Repr

/-- The threshold for everything. -/
def effectiveLevel (log : LogSettings) (s : Switches) : Severity :=
  if s.quiet then .error
  else
    match s.verbosity with
    | 0 => log.level
    | 1 => log.level.lower .debug
    | _ => .trace

/-- The threshold for a part of the program with its own. -/
def partLevel (s : Switches) (own : Severity) : Severity :=
  if s.quiet then own.upper .error else own

/-! ### Names of parts -/

/-- The segments of a name between pairs of colons. -/
def segments : List Char → List (List Char)
  | ':' :: ':' :: rest => [] :: segments rest
  | c :: rest =>
    match segments rest with
    | [] => [[c]]
    | segment :: others => (c :: segment) :: others
  | [] => [[]]

/-- Characters of a segment. -/
def isSegmentChar (c : Char) : Bool :=
  c.isAlphanum || c = '_'

/-- A name is segments that are not empty and hold letters, digits and underscores of
ASCII only. -/
def isModulePath (name : String) : Bool :=
  (segments name.toList).all fun segment => !segment.isEmpty && segment.all isSegmentChar

/-! ### Directives -/

/-- A threshold for a part of the program, or for all of it. -/
structure Directive where
  part : Option String
  level : Severity
deriving DecidableEq, Repr

def Directive.text (d : Directive) : String :=
  match d.part with
  | none => d.level.name
  | some part => s!"{part}={d.level.name}"

/-- The directive for everything and then one for each part, in the order of names. -/
def directives (log : LogSettings) (s : Switches) : Except SettingsError (List Directive) :=
  match log.modules.find? fun m => !isModulePath m.1 with
  | some m => .error (.notModule m.1)
  | none =>
    .ok (⟨none, effectiveLevel log s⟩ ::
      log.modules.map fun m => ⟨some m.1, partLevel s m.2⟩)

/-! ### The filter of the settings -/

/-- A way to filter the log: how a filter is read from a text of directives, and which events it
lets pass. -/
structure Filtering (F : Type) where
  read : String → Except SettingsError F
  passes : F → Event → Bool

/-- The pieces of the environment's own directives that are not blank. -/
def environmentDirectives (text : String) : List String :=
  ((Text.pieces (· == ',') text.toList).filter fun piece => !(Text.trim piece).isEmpty).map
    String.ofList

/-- The text that the filter is read from: the directives of the settings, and behind
them those of the environment. -/
def filterText (ds : List Directive) (environment : Option String) : String :=
  ",".intercalate (ds.map Directive.text ++ (environment.map environmentDirectives).getD [])

/-- The filter of the settings under the switches, with the environment's directives on
top. -/
def Filtering.build {F : Type} (how : Filtering F) (log : LogSettings) (s : Switches)
    (environment : Option String) : Except SettingsError F := do
  let ds ← directives log s
  how.read (filterText ds environment)

end HostInventory.Log
