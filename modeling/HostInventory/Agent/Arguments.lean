import HostInventory.FileTree.Path
import HostInventory.Log.Directive
import HostInventory.Text.Numeral

/-! The command line.

Options are taken from left to right, and the first thing that settles the matter
does so: a request for help or for the version, or a fault. A value may stand behind
its option, or in the same word with or without an equals sign; a word that starts
with a dash is no value unless it is a dash alone. Only the switch for more log
output may be repeated. -/
namespace HostInventory.Agent

structure Arguments where
  settings : Option FileTree.Path := none
  /-- Seconds between two updates. -/
  interval : Option Nat := none
  /-- How many updates to stop after. -/
  count : Option Nat := none
  json : Bool := false
  verbosity : Nat := 0
  quiet : Bool := false
deriving DecidableEq, Repr

/-- What a command line asks for. -/
inductive Request
  | help
  | version
  | misuse
  | run (arguments : Arguments)
deriving DecidableEq, Repr

namespace Arguments

/-- The most that the verbosity switch counts to. -/
def verbosityLimit : Nat := 255

inductive Opt
  | settings | interval | count | json | verbose | quiet | help | version
deriving DecidableEq, Repr

def Opt.ofLetter? : Char → Option Opt
  | 'c' => some .settings
  | 'i' => some .interval
  | 'n' => some .count
  | 'v' => some .verbose
  | 'q' => some .quiet
  | 'h' => some .help
  | 'V' => some .version
  | _ => none

def Opt.ofWord? : String → Option Opt
  | "config" => some .settings
  | "interval" => some .interval
  | "count" => some .count
  | "json" => some .json
  | "verbose" => some .verbose
  | "quiet" => some .quiet
  | "help" => some .help
  | "version" => some .version
  | _ => none

def Opt.takesValue : Opt → Bool
  | .settings | .interval | .count => true
  | _ => false

/-- The arguments with a value for an option that has none yet. -/
def setValue (a : Arguments) (o : Opt) (value : String) : Option Arguments :=
  match o with
  | .settings =>
    if a.settings.isSome || value = "" then none else some { a with settings := some ⟨value⟩ }
  | .interval => do
    let n ← Text.readNumeral Text.wordBound64 value.toList
    if a.interval.isSome || n = 0 then none else some { a with interval := some n }
  | .count => do
    let n ← Text.readNumeral Text.wordBound64 value.toList
    if a.count.isSome then none else some { a with count := some n }
  | _ => none

/-- The arguments with a switch thrown; some switches settle the matter. -/
def setSwitch (a : Arguments) (o : Opt) : Except Request Arguments :=
  match o with
  | .help => .error .help
  | .version => .error .version
  | .verbose => .ok { a with verbosity := min verbosityLimit (a.verbosity + 1) }
  | .quiet => if a.quiet then .error .misuse else .ok { a with quiet := true }
  | .json => if a.json then .error .misuse else .ok { a with json := true }
  | _ => .error .misuse

/-- Letters behind a dash: switches, and then perhaps an option with what is left of
the word as its value. Answers with the option that still waits for a value. -/
def readLetters (a : Arguments) : List Char → Except Request (Arguments × Option Opt)
  | [] => .ok (a, none)
  | c :: rest =>
    match Opt.ofLetter? c with
    | none => .error .misuse
    | some o =>
      if o.takesValue then
        match rest with
        | [] => .ok (a, some o)
        | _ =>
          let value := if rest.head? = some '=' then rest.tail else rest
          match a.setValue o (String.ofList value) with
          | some a => .ok (a, none)
          | none => .error .misuse
      else do
        let a ← a.setSwitch o
        readLetters a rest

/-- A word behind two dashes, perhaps with a value behind an equals sign. -/
def readWord (a : Arguments) (s : List Char) : Except Request (Arguments × Option Opt) :=
  let (word, value) := match Text.splitFirst '=' s with
    | some (word, value) => (word, some value)
    | none => (s, none)
  match Opt.ofWord? (String.ofList word), value with
  | none, _ => .error .misuse
  | some o, none => if o.takesValue then .ok (a, some o) else (a.setSwitch o).map fun a => (a, none)
  | some o, some value =>
    if o.takesValue then
      match a.setValue o (String.ofList value) with
      | some a => .ok (a, none)
      | none => .error .misuse
    else .error .misuse

/-- The words of a command line from left to right; `waiting` is the option that the
next word is the value of. -/
def readWords (a : Arguments) (waiting : Option Opt) : List String → Request
  | [] => if waiting.isSome then .misuse else .run a
  | word :: rest =>
    match waiting, word.toList with
    | some o, s =>
      if s.head? = some '-' && s ≠ ['-'] then .misuse
      else
        match a.setValue o word with
        | some a => readWords a none rest
        | none => .misuse
    | none, ['-', '-'] => if rest.isEmpty then .run a else .misuse
    | none, '-' :: '-' :: s =>
      match readWord a s with
      | .ok (a, waiting) => readWords a waiting rest
      | .error request => request
    | none, '-' :: c :: s =>
      match readLetters a (c :: s) with
      | .ok (a, waiting) => readWords a waiting rest
      | .error request => request
    | none, _ => .misuse

end Arguments

/-- What is printed on a request for help. -/
def Request.usage : String :=
  "\n".intercalate
    ["System inventory agent", "",
      "Usage: syspald [OPTIONS]", "",
      "Options:",
      "  -c, --config <PATH>        Path to a TOML configuration file",
      "  -i, --interval <INTERVAL>  Update interval in seconds (overrides the configuration)",
      "  -n, --count <COUNT>        Stop after this many updates",
      "      --json                 Print every snapshot as a JSON line on stdout",
      "  -v, --verbose...           Increase logging verbosity (-v for debug, -vv for trace)",
      "  -q, --quiet                Quiet mode - only show errors",
      "  -h, --help                 Print help",
      "  -V, --version              Print version"]

def Request.read (words : List String) : Request :=
  Arguments.readWords {} none words

/-- The switches that are about the log. -/
def Arguments.logSwitches (a : Arguments) : Log.Switches :=
  ⟨a.verbosity, a.quiet⟩

end HostInventory.Agent
