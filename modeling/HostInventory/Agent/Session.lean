import HostInventory.Agent.Arguments
import HostInventory.Inventory.Snapshot
import HostInventory.Log.Filter

/-! A session of the agent.

A session sets up an inventory, and with each tick takes a snapshot of it, which from
the second tick on is preceded by an update. It ends after the number of ticks asked
for, releasing the inventory. Whatever ends a session by a fault still releases it. -/
namespace HostInventory.Agent

open Enumeration FileTree

/-- The name of the program and its version. -/
def version : String := "syspald 0.1.0"

/-- The part of the program that the agent itself speaks as. -/
def source : String := "syspald"

structure Session where
  settings : Settings
  /-- Seconds between two ticks. -/
  interval : Nat
  /-- How many ticks to end after. -/
  limit : Option Nat
  inventory : Inventory := {}
  ticks : Nat := 0

namespace Session

/-- The session that settings and a command line ask for. -/
def of (a : Arguments) (settings : Settings) : Session where
  settings
  interval := max 1 (a.interval.getD settings.interval)
  limit := a.count

def say (severity : Log.Severity) (text : String) : Outcome Unit :=
  Outcome.say ⟨severity, source, text, []⟩

/-- Sets up the inventory. -/
def start (s : Session) (host : Provider) : Outcome Session := do
  say .info s!"{version} starting"
  let paths := s.settings.paths
  say .info
    s!"Config: interval={s.interval}s, proc={paths.proc.spelling}, sys={paths.sys.spelling}"
  let inventory ← s.inventory.init s.settings host
  say .info "Starting update loop"
  return { s with inventory }

/-- One round. -/
def tick (s : Session) (host : Provider) : Outcome (Session × Snapshot) := do
  let inventory ← if s.ticks = 0 then pure s.inventory else s.inventory.update s.settings host true
  let s := { s with inventory, ticks := s.ticks + 1 }
  let snapshot ← Outcome.ofExcept (inventory.snapshot s.settings)
  say .info s!"Snapshot #{s.ticks}: {snapshot.describe}"
  if inventory.updated then say .debug "Timing:"
  return (s, snapshot)

/-- The ticks asked for have been made. -/
def isOver (s : Session) : Bool :=
  match s.limit with
  | some n => n ≤ s.ticks
  | none => false

/-- Releases the inventory. -/
def stop (s : Session) : Outcome Unit := do
  say .info "Shutting down..."
  let _ ← s.inventory.cleanup s.settings
  say .info "syspald stopped"

end Session

/-! ### A whole run -/

/-- What a run prints, in order. -/
inductive Output
  | log (e : Log.Event)
  | snapshot (s : Snapshot)

/-- How a run ends: what it printed, its exit code, the version if that was asked for,
and what it could not go on because of. -/
structure Ending where
  exit : Nat
  outputs : List Output := []
  version : Option String := none
  error : Option SettingsError := none

def exitMisuse : Nat := 2

def exitFault : Nat := 101

/-- The exit code for settings that cannot be used. -/
def exitCode : SettingsError → Nat
  | .ruleCut _ => exitFault
  | _ => exitMisuse

/-- The settings and the log filter of a command line. -/
def prepare (a : Arguments) (environment : Option String) (host : Provider) :
    Except SettingsError (Settings × Log.Filter) := do
  let settings ← match a.settings with
    | some path => Settings.load host path
    | none => pure {}
  let filter ← Log.buildFilter settings.log a.logSwitches environment
  return (settings, filter)

/-- The events of a journal that pass a filter. -/
def visible (filter : Log.Filter) (events : List Log.Event) : List Output :=
  (events.filter filter.passes).map .log

/-- A session of a single tick from its start to its end. -/
def runOnce (a : Arguments) (settings : Settings) (filter : Log.Filter) (host : Provider) :
    Ending :=
  let abandon (s : Session) (before : List Output) : Ending :=
    ⟨exitFault, before ++ visible filter (s.inventory.drop s.settings).events, none, none⟩
  let s := Session.of a settings
  let started := s.start host
  let before := visible filter started.events
  match started.value with
  | .error _ => abandon s before
  | .ok s =>
    let ticked := s.tick host
    let before := before ++ visible filter ticked.events
    match ticked.value with
    | .error _ => abandon s before
    | .ok (s, snapshot) =>
      let before := before ++ if a.json then [.snapshot snapshot] else []
      ⟨0, before ++ visible filter s.stop.events, none, none⟩

/-- The agent on a command line, ended after the first tick. -/
def run (words : List String) (environment : Option String) (host : Provider) : Ending :=
  match Request.read words with
  | .help => { exit := 0 }
  | .version => { exit := 0, version := some version }
  | .misuse => { exit := exitMisuse }
  | .run a =>
    match prepare a environment host with
    | .error e => { exit := exitCode e, error := some e }
    | .ok (settings, filter) => runOnce a settings filter host

/-- The line on settings that could not be used, where the wording is this library's
own. -/
def complaint? (e : SettingsError) : Option String :=
  e.message?.map fun text => s!"{source}: {text}"

/-- The line on what a run could not go on because of. -/
def Ending.message? (e : Ending) : Option String :=
  e.error.bind complaint?

end HostInventory.Agent
