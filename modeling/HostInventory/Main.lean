import HostInventory.Agent.Session
import HostInventory.Agent.Sources
import HostInventory.Document.Printer
import HostInventory.FileTree.Answers
import HostInventory.Inventory.Document

/-! The agent as a program.

Each tick asks the host for everything that an update may read, and then runs on the
answers. Log lines and snapshots go to the standard output. -/
namespace HostInventory.Agent

open Enumeration FileTree

/-- Why the host did not answer. -/
def causeOf : IO.Error → FileTree.Error
  | .noFileOrDirectory .. => .noEntry
  | e => .other (toString e)

/-- Asks the host for a file. -/
def askFile (p : Path) : IO (Except FileTree.Error String) := do
  try
    return textOf (← IO.FS.readBinFile p.spelling).toList
  catch e => return .error (causeOf e)

/-- Asks the host for the names in a directory. -/
def askFolder (p : Path) : IO (Except FileTree.Error (List String)) := do
  try
    let entries ← ((← IO.currentDir) / p.spelling).readDir
    return .ok (entries.toList.map fun entry => entry.fileName)
  catch e => return .error (causeOf e)

/-- Asks the host for all that an update may read. -/
def ask (s : Settings) : IO Provider := do
  let names ← askFolder s.interfaces
  let files ← (s.files (names.toOption.getD [])).mapM fun p => return (p, ← askFile p)
  return Answers.provider { files, folders := [(s.interfaces, names)] }

/-- Prints what an operation says for the log, and goes on with what it came to. -/
def perform {α : Type} (filter : Log.Filter) (x : Outcome α) : IO (Except Fault α) := do
  for e in x.events.filter filter.passes do
    IO.println e.line
  return x.value

/-- Waits for a number of seconds. -/
def wait (seconds : Nat) : IO Unit := do
  for _ in [0:seconds] do
    IO.sleep 1000

/-- Releases an inventory after a fault. -/
def abandon (s : Session) (filter : Log.Filter) (fault : Fault) : IO UInt32 := do
  IO.eprintln fault.message
  let _ ← perform filter (s.inventory.drop s.settings)
  return exitFault.toUInt32

/-- A session from its start to its end. -/
def serve (a : Arguments) (settings : Settings) (filter : Log.Filter) : IO UInt32 := do
  let fresh := Session.of a settings
  match ← perform filter (fresh.start (← ask settings)) with
  | .error fault => abandon fresh filter fault
  | .ok started =>
    let mut s := started
    repeat
      match ← perform filter (s.tick (← ask settings)) with
      | .error fault => return ← abandon s filter fault
      | .ok (next, snapshot) =>
        s := next
        if a.json then IO.println (snapshot.document KindName.all).render
        if s.isOver then break
        wait s.interval
    let _ ← perform filter s.stop
    return 0

/-- Carries out what a command line asks for. -/
def carryOut : Request → IO UInt32
  | .help => do
    IO.println Request.usage
    return 0
  | .version => do
    IO.println version
    return 0
  | .misuse => do
    IO.eprintln Request.usage
    return exitMisuse.toUInt32
  | .run a => do
    let files ← a.settings.toList.mapM fun p => return (p, ← askFile p)
    let environment ← IO.getEnv "RUST_LOG"
    match prepare a environment (Answers.provider { files }) with
    | .error e => do
      match e with
      | .ruleCut cut => IO.eprintln cut.message
      | e => if let some line := complaint? e then IO.eprintln line
      return (exitCode e).toUInt32
    | .ok (settings, filter) => serve a settings filter

end HostInventory.Agent

def main (words : List String) : IO UInt32 :=
  HostInventory.Agent.carryOut (HostInventory.Agent.Request.read words)
