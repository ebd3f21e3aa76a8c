import HostInventory.Enumeration.Kind
import HostInventory.FileTree.Provider
import HostInventory.Format.InterfaceFlags
import HostInventory.Format.InterfaceTable

/-! Network interfaces.

An interface is an entry of the directory of interfaces, under its name. Unless all
are wanted, only those that are up and running are listed; the operational state
says whether one is running, and the loopback interface, which has none, counts as
running. An interface whose flags make no sense is not listed. A refresh needs the
flags and the interface's row in the table of counters; everything else may be
missing. -/
namespace HostInventory.Network

open Enumeration FileTree

/-- The operational states of an interface that is running. -/
def isRunning (state : String) : Bool :=
  state = "up" || state = "unknown"

structure Counters where
  rxBytes : Nat := 0
  rxPackets : Nat := 0
  rxErrors : Nat := 0
  rxDropped : Nat := 0
  txBytes : Nat := 0
  txPackets : Nat := 0
  txErrors : Nat := 0
  txDropped : Nat := 0
  collisions : Nat := 0
deriving DecidableEq, Repr

def Counters.ofRow (row : Format.InterfaceTraffic) : Counters where
  rxBytes := row.rxBytes
  rxPackets := row.rxPackets
  rxErrors := row.rxErrors
  rxDropped := row.rxDropped
  txBytes := row.txBytes
  txPackets := row.txPackets
  txErrors := row.txErrors
  txDropped := row.txDropped
  collisions := row.collisions

structure Info where
  name : String
  flags : Nat := 0
  up : Bool := false
  running : Bool := false
  loopback : Bool := false
  state : String := ""
  address : Option String := none
  mtu : Option Nat := none
  counters : Counters := {}
deriving DecidableEq, Repr

/-- Where interfaces are described. -/
structure Places where
  /-- The directory with one entry for each interface. -/
  interfaces : Path
  /-- The table of counters. -/
  counters : Path

def Places.of (proc sys : Path) : Places where
  interfaces := sys / ⟨"class/net"⟩
  counters := proc / ⟨"net/dev"⟩

/-- The directory of one interface. -/
def Places.interface (places : Places) (name : String) : Path :=
  places.interfaces / ⟨name⟩

/-- The flags of an interface. -/
def flags (places : Places) (host : Provider) (name : String) : Except Failure Nat :=
  readAs (host.readValue (places.interface name / ⟨"flags"⟩)) Format.InterfaceFlags.read

/-- The operational state of an interface, empty where it cannot be read. -/
def state (places : Places) (host : Provider) (name : String) : String :=
  (host.value? (places.interface name / ⟨"operstate"⟩)).getD ""

def source : String := "syspal::collector::network"

/-- Whether an interface is up and running, and a remark when its flags make no sense. -/
def isActive (places : Places) (host : Provider) (name : String) : Log.Logged Bool :=
  match flags places host name with
  | .error f => do
    Log.Logged.say ⟨.debug, source, s!"network: skipping {name}: {f.message}", []⟩
    return false
  | .ok flags => return Format.InterfaceFlags.isUp flags && isRunning (state places host name)

/-- The names to list among the names of all interfaces. -/
def select (places : Places) (all : Bool) (host : Provider) :
    List String → Log.Logged (List Identity)
  | [] => return []
  | name :: rest => do
    let wanted ← if all then pure true else isActive places host name
    let rest ← select places all host rest
    return if wanted then ⟨name⟩ :: rest else rest

def discover (places : Places) (all : Bool) (host : Provider) :
    Log.Logged (Except Failure (List Identity)) :=
  match host.list places.interfaces with
  | .error e => return .error (.io e)
  | .ok paths => return .ok (← select places all host (paths.filterMap Path.fileName))

/-- The row of an interface in the table of counters. -/
def row (places : Places) (host : Provider) (name : String) :
    Except Failure Format.InterfaceTraffic := do
  let rows ← readAs (host.read places.counters) Format.InterfaceTable.read
  match rows.find? fun row => row.interface = name with
  | some row => return row
  | none => .error (.gone s!"interface {name} in {places.counters.spelling}")

/-- Rewrites what is reported of an interface item by item, once its flags and its row in the
table of counters are there. -/
def look (places : Places) (host : Provider) (info : Info) : Except (Failure × Info) Info := do
  let flags ← leaving info (flags places host info.name)
  let state := state places host info.name
  let row ← leaving info (row places host info.name)
  let value (item : String) := places.interface info.name / ⟨item⟩
  let info := { info with flags }
  let info := { info with up := Format.InterfaceFlags.isUp flags }
  let info := { info with loopback := Format.InterfaceFlags.isLoopback flags }
  let info := { info with running := isRunning state }
  let info := { info with state }
  let info := { info with address := host.filledValue? (value "address") }
  let info := { info with
    mtu := (host.value? (value "mtu")).bind fun text =>
      Text.readNumeral Text.wordBound32 text.toList }
  return { info with counters := Counters.ofRow row }

def kind (proc sys : Path) (all : Bool) (policy : RemovalPolicy) : Kind Provider Unit Info where
  name := "network"
  policy
  discover host _ := do
    let listing ← discover (Places.of proc sys) all host
    return (leaving () listing).map fun ids => (ids, ())
  instantiate _ _ id := .ok (Instance.fresh id { name := id.text })
  refresh host _ i := pure (.ok (look (Places.of proc sys) host i.data))

end HostInventory.Network
