import HostInventory.Enumeration.Kind
import HostInventory.FileTree.Provider
import HostInventory.Format.PackageDatabase

/-! Installed software.

A package is known by its name, or by its name and architecture where the database
holds that name for more than one architecture. The database is read once for a
listing, and instances are refreshed from what was read then: a change of the file
shows only after the next listing that succeeds. Of several stanzas with one key the
first installed one counts, or else the first. -/
namespace HostInventory.Software

open Enumeration FileTree Format

structure Info where
  name : String
  version : String := ""
  architecture : String := ""
  maintainer : String := ""
  /-- In kibibytes. -/
  installedSize : Nat := 0
  summary : String := ""
  installed : Bool := false
deriving DecidableEq, Repr

def Info.ofPackage (p : Package) : Info where
  name := p.name
  version := p.version
  architecture := p.architecture
  maintainer := p.maintainer
  installedSize := p.installedSize
  summary := p.summary
  installed := p.isInstalled

/-- What is reported about a package, and the key it is looked up by. -/
structure Data where
  key : String
  info : Info
deriving DecidableEq, Repr

/-! ### Keys -/

/-- The database holds the name of this package for another architecture too. -/
def isMultiArch (all : List Package) (p : Package) : Bool :=
  all.any fun q => q.name = p.name && q.architecture ≠ p.architecture

/-- The key of a package in its database. -/
def key (all : List Package) (p : Package) : String :=
  if isMultiArch all p && p.architecture ≠ "" then s!"{p.name}:{p.architecture}" else p.name

def keys (all : List Package) : List String :=
  all.map (key all)

/-- The part of a key before its first colon. -/
def nameOfKey (key : String) : String :=
  match Text.splitFirst ':' key.toList with
  | some (name, _) => String.ofList name
  | none => key

/-! ### Listing -/

/-- The packages of the last listing by their keys. -/
abbrev Snapshot := List (String × Package)

def Snapshot.find? (s : Snapshot) (key : String) : Option Package :=
  s.lookup key

/-- The snapshot with one more package. An installed package takes the place of one
that is not. -/
def Snapshot.add : Snapshot → String → Package → Snapshot
  | [], key, p => [(key, p)]
  | entry :: rest, key, p =>
    if entry.1 = key then
      if p.isInstalled && !entry.2.isInstalled then (key, p) :: rest else entry :: rest
    else entry :: Snapshot.add rest key p

/-- A listing in the making: the keys of installed packages, last first, and the
snapshot. -/
structure Listing where
  listed : List Identity := []
  snapshot : Snapshot := []

def Listing.add (l : Listing) (entry : String × Package) : Listing :=
  let (key, p) := entry
  let listed :=
    if p.isInstalled && !l.listed.contains ⟨key⟩ then ⟨key⟩ :: l.listed else l.listed
  ⟨listed, l.snapshot.add key p⟩

def source : String := "syspal::collector::software"

/-- The keys of the installed packages, in the order of their first installed stanza; the
snapshot takes the place of the last one. -/
def discover (database : Path) (host : Provider) (last : Snapshot) :
    Log.Logged (Except (Failure × Snapshot) (List Identity × Snapshot)) :=
  match readAs (host.read database) PackageDatabase.read with
  | .error f => return .error (f, last)
  | .ok all => do
    let l := ((keys all).zip all).foldl Listing.add {}
    let ids := l.listed.reverse
    Log.Logged.say
      ⟨.debug, source, s!"software: {all.length} stanzas, {ids.length} installed", []⟩
    return .ok (ids, l.snapshot)

def instantiate (id : Identity) : Instance Data :=
  Instance.fresh id { key := id.text, info := { name := nameOfKey id.text } }

def look (snapshot : Snapshot) (d : Data) : Except (Failure × Data) Data :=
  match snapshot.find? d.key with
  | some p => .ok { d with info := Info.ofPackage p }
  | none => .error (.gone s!"package {d.key}", d)

def kind (database : Path) (policy : RemovalPolicy) : Kind Provider Snapshot Data where
  name := "software"
  policy
  discover host snapshot := discover database host snapshot
  instantiate _ _ id := .ok (instantiate id)
  refresh _ snapshot i := pure (.ok (look snapshot i.data))
  release _ := []

end HostInventory.Software
