import HostInventory.Inventory.Basic

/-! What an inventory reads.

Every file that a kind of resource asks for lies at a place that the settings fix,
but for those below the directory of interfaces, which are fixed by the settings and
the names in that directory. So what a host has to be asked before an update is known
beforehand. -/
namespace HostInventory.Settings

open FileTree (Path)

/-- The directory of interfaces. -/
def interfaces (s : Settings) : Path :=
  (Network.Places.of s.paths.proc s.paths.sys).interfaces

/-- The files that do not depend on the interfaces there are. -/
def fixedFiles (s : Settings) : List Path :=
  let os := Os.Places.of s.paths.proc s.paths.etc s.paths.usr
  [s.paths.proc / ⟨"meminfo"⟩] ++
    [os.kernel / ⟨"ostype"⟩, os.kernel / ⟨"osrelease"⟩, os.kernel / ⟨"hostname"⟩, os.uptime] ++
    os.releases ++
    ["bios_vendor", "bios_version", "bios_date", "bios_release", "sys_vendor", "product_name",
      "board_vendor", "board_name"].map (fun name => s.paths.sys / ⟨"class/dmi/id"⟩ / ⟨name⟩) ++
    [s.paths.proc / ⟨"stat"⟩, s.paths.proc / ⟨"mounts"⟩] ++
    [(Network.Places.of s.paths.proc s.paths.sys).counters, s.paths.packages]

/-- The files of one interface. -/
def interfaceFiles (s : Settings) (name : String) : List Path :=
  let interface := (Network.Places.of s.paths.proc s.paths.sys).interface name
  ["flags", "operstate", "address", "mtu"].map fun item => interface / ⟨item⟩

/-- The files that an update reads on a host with these interfaces. -/
def files (s : Settings) (names : List String) : List Path :=
  s.fixedFiles ++ names.flatMap s.interfaceFiles

end HostInventory.Settings
