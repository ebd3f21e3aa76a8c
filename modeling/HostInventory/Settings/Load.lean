import HostInventory.FileTree.Provider
import HostInventory.Settings.Basic
import HostInventory.Text.Part
import HostInventory.Toml.Document

/-! Settings read from a document.

A group of settings is a table, whose unknown keys are refused, or an array of its
settings in order; what is missing has its default. A choice is named by a text, or
by a table with the name as its only key and nothing under it. -/
namespace HostInventory

/-- Why settings could not be loaded or applied. -/
inductive SettingsError
  | unreadable (path : FileTree.Path) (cause : FileTree.Error)
  | malformed
  /-- A name that is no path of a part of the program. -/
  | notModule (name : String)
  /-- The thresholds make no filter. -/
  | badFilter
  /-- A part of a rule would begin or end inside a character. -/
  | ruleCut (cut : Text.Cut)
deriving DecidableEq, Repr

/-- The wording, where it is this library's own. -/
def SettingsError.message? : SettingsError → Option String
  | .unreadable path cause => some s!"failed to read config {path.spelling}: {cause.message}"
  | .malformed => none
  | .notModule name =>
    some s!"invalid log directive '{name}': expected a module path such as syspal::collector"
  | .badFilter => none
  | .ruleCut _ => none

namespace Settings

open Toml (Value)
open Enumeration (RemovalPolicy)

/-! ### Values of settings -/

def readText : Value → Option String
  | .text s => some s
  | _ => none

def readPath (v : Value) : Option FileTree.Path :=
  (readText v).map FileTree.Path.mk

def readBool : Value → Option Bool
  | .boolean b => some b
  | _ => none

def readCount : Value → Option Nat
  | .integer n => if 0 ≤ n then some n.toNat else none
  | _ => none

def readTexts : Value → Option (List String)
  | .array items => items.mapM readText
  | _ => none

/-- The name of a choice. -/
def readName : Value → Option String
  | .text s => some s
  | .table [(name, .table [])] => some name
  | .table [(name, .array [])] => some name
  | _ => none

def readPolicy (v : Value) : Option RemovalPolicy := do
  let name ← readName v
  [RemovalPolicy.remove, .markStale, .retain].find? fun p => p.name = name

def readSeverity (v : Value) : Option Log.Severity := do
  let name ← readName v
  if name = "warning" then some .warn
  else
    [Log.Severity.trace, .debug, .info, .warn, .error, .off].find? fun s => s.name = name

/-- A list of named values with one more, in the order of the names. -/
def insertNamed {α : Type} (entry : String × α) : List (String × α) → List (String × α)
  | [] => [entry]
  | other :: rest =>
    if entry.1 < other.1 then entry :: other :: rest else other :: insertNamed entry rest

def readModules : Value → Option (List (String × Log.Severity))
  | .table entries => do
    let entries ← entries.mapM fun entry => (readSeverity entry.2).map fun s => (entry.1, s)
    return entries.foldl (fun sorted entry => insertNamed entry sorted) []
  | _ => none

/-! ### Groups of settings -/

/-- The values of a group by name. -/
abbrev Group := String → Option Value

/-- A group with the given names. -/
def readGroup (names : List String) : Value → Option Group
  | .table entries =>
    if entries.all fun entry => names.contains entry.1 then some fun name => entries.lookup name
    else none
  | .array items => some fun name => (names.idxOf? name).bind fun i => items[i]?
  | _ => none

/-- A setting of a group, or its default. -/
def Group.get {α : Type} (g : Group) (name : String) (reader : Value → Option α) (default : α) :
    Option α :=
  match g name with
  | none => some default
  | some v => reader v

def readPaths (v : Value) : Option Paths := do
  let g ← readGroup ["proc", "sys", "etc", "usr", "dpkg_status"] v
  let base : Paths := {}
  return {
    proc := ← g.get "proc" readPath base.proc
    sys := ← g.get "sys" readPath base.sys
    etc := ← g.get "etc" readPath base.etc
    usr := ← g.get "usr" readPath base.usr
    packages := ← g.get "dpkg_status" readPath base.packages }

def readLog (v : Value) : Option LogSettings := do
  let g ← readGroup ["level", "modules"] v
  let base : LogSettings := {}
  return {
    level := ← g.get "level" readSeverity base.level
    modules := ← g.get "modules" readModules base.modules }

def readCollect (v : Value) : Option Nat := do
  let g ← readGroup ["interval_secs"] v
  let base : Settings := {}
  g.get "interval_secs" readCount base.interval

def readRemoval (default : RemovalPolicy) (v : Value) : Option RemovalPolicy := do
  let g ← readGroup ["removal"] v
  g.get "removal" readPolicy default

def readDisk (v : Value) : Option DiskSettings := do
  let g ← readGroup ["removal", "ignored_filesystems"] v
  let base : DiskSettings := {}
  return {
    removal := ← g.get "removal" readPolicy base.removal
    ignored := ← g.get "ignored_filesystems" readTexts base.ignored }

def readNetwork (v : Value) : Option NetworkSettings := do
  let g ← readGroup ["removal", "include_non_running"] v
  let base : NetworkSettings := {}
  return {
    removal := ← g.get "removal" readPolicy base.removal
    all := ← g.get "include_non_running" readBool base.all }

def ofTable (entries : List (String × Value)) : Option Settings := do
  let g ← readGroup ["paths", "log", "collect", "cpu", "disk", "network", "software"]
    (.table entries)
  let base : Settings := {}
  return {
    paths := ← g.get "paths" readPaths base.paths
    log := ← g.get "log" readLog base.log
    interval := ← g.get "collect" readCollect base.interval
    cpu := ← g.get "cpu" (readRemoval base.cpu) base.cpu
    disk := ← g.get "disk" readDisk base.disk
    network := ← g.get "network" readNetwork base.network
    software := ← g.get "software" (readRemoval base.software) base.software }

/-- The settings that a document stands for. -/
def ofText (text : String) : Except SettingsError Settings :=
  match (Toml.read text).bind ofTable with
  | some s => .ok s
  | none => .error .malformed

/-- The settings in a file. -/
def load (host : FileTree.Provider) (path : FileTree.Path) : Except SettingsError Settings :=
  match host.read path with
  | .error cause => .error (.unreadable path cause)
  | .ok text => ofText text

end Settings
end HostInventory
