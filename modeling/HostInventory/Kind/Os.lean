import HostInventory.Enumeration.Kind
import HostInventory.FileTree.Provider
import HostInventory.Format.OsRelease
import HostInventory.Format.Uptime

/-! The operating system.

Kernel, distribution, host name and uptime are one instance. The distribution's file
has two places, of which the first readable one counts, and if that one is malformed
the refresh fails; it fails too when neither place nor the kernel's name is readable.
Everything else may be missing. -/
namespace HostInventory.Os

open Enumeration FileTree

structure Info where
  kernel : String := ""
  kernelRelease : String := ""
  hostname : String := ""
  distributionId : String := ""
  distributionName : String := ""
  distributionVersion : String := ""
  prettyName : String := ""
  /-- Seconds since the system started. -/
  uptime : Option Float := none
deriving Repr

/-- Where the operating system is described. -/
structure Places where
  /-- The directory of the kernel's own values. -/
  kernel : Path
  uptime : Path
  /-- The places of the distribution's file, in order of precedence. -/
  releases : List Path

def Places.of (proc etc usr : Path) : Places where
  kernel := proc / ⟨"sys/kernel"⟩
  uptime := proc / ⟨"uptime"⟩
  releases := [etc / ⟨"os-release"⟩, usr / ⟨"lib/os-release"⟩]

/-- The text of the first readable place. -/
def releaseText? (places : Places) (host : Provider) : Option String :=
  places.releases.findSome? fun path => (host.read path).toOption

/-- The distribution, if its file is readable. -/
def release? (places : Places) (host : Provider) : Except Failure (Option Format.OsRelease) :=
  match releaseText? places host with
  | none => .ok none
  | some text => ((Format.OsRelease.read text).map some).mapError Failure.ofFormat

def source : String := "syspal::collector::os"

/-- The uptime, and a remark when its file makes no sense. -/
def uptime? (places : Places) (host : Provider) : Log.Logged (Option Float) :=
  match host.read places.uptime with
  | .error _ => pure none
  | .ok text =>
    match Format.Uptime.read text with
    | .ok seconds => pure (some seconds)
    | .error e => do
      Log.Logged.say ⟨.debug, source, s!"os: ignoring uptime: {e.report}", []⟩
      return none

/-- Puts what is there now in the place of what was there last. -/
def look (places : Places) (host : Provider) (last : Info) :
    Log.Logged (Except Fault (Except (Failure × Info) Info)) :=
  match release? places host with
  | .error f => pure (.ok (.error (f, last)))
  | .ok release =>
    let value (name : String) := host.value? (places.kernel / ⟨name⟩)
    if release.isNone && (value "ostype").isNone then
      pure (.ok (.error (.unavailable "neither os-release nor kernel ostype is readable", last)))
    else do
      let uptime ← uptime? places host
      let release := release.getD {}
      return .ok (.ok {
        kernel := (value "ostype").getD "Linux"
        kernelRelease := (value "osrelease").getD ""
        hostname := (value "hostname").getD ""
        distributionId := release.id
        distributionName := release.name
        distributionVersion := release.versionId
        prettyName := release.prettyName
        uptime })

def kind (proc etc usr : Path) : Kind Provider Unit Info where
  name := "os"
  whole := some (Instance.ofWhole {})
  refresh host _ i := look (Places.of proc etc usr) host i.data

end HostInventory.Os
