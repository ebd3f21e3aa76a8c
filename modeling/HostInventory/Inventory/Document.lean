import HostInventory.Inventory.Snapshot

/-! Documents of what is known about a host. -/
namespace HostInventory

open Document (optional)

def FileTree.Space.document (s : FileTree.Space) : Document :=
  .record [("block_size", .count s.blockSize), ("total_bytes", .count s.totalBytes),
    ("free_bytes", .count s.freeBytes), ("available_bytes", .count s.availableBytes),
    ("total_inodes", .count s.totalInodes), ("free_inodes", .count s.freeInodes)]

def Memory.Info.document (i : Memory.Info) : Document :=
  .record [("total_kb", .count i.total), ("free_kb", .count i.free),
    ("available_kb", .count i.available), ("buffers_kb", .count i.buffers),
    ("cached_kb", .count i.cached), ("used_kb", .count i.used),
    ("swap_total_kb", .count i.swapTotal), ("swap_free_kb", .count i.swapFree),
    ("swap_used_kb", .count i.swapUsed)]

def Os.Info.document (i : Os.Info) : Document :=
  .record [("os_type", .text i.kernel), ("kernel_release", .text i.kernelRelease),
    ("hostname", .text i.hostname), ("distro_id", .text i.distributionId),
    ("distro_name", .text i.distributionName), ("distro_version", .text i.distributionVersion),
    ("pretty_name", .text i.prettyName), ("uptime_secs", optional Document.ofFloat i.uptime)]

def Bios.Info.document (i : Bios.Info) : Document :=
  .record [("vendor", .text i.vendor), ("version", .text i.version),
    ("release_date", .text i.releaseDate), ("release", optional .text i.release),
    ("system_vendor", optional .text i.systemVendor),
    ("product_name", optional .text i.productName),
    ("board_vendor", optional .text i.boardVendor), ("board_name", optional .text i.boardName)]

/-- Every share in percent, and the share of all states but idling and waiting. -/
def Cpu.Usage.document (u : Cpu.Usage) : Document :=
  let percent (ticks : Nat) := Document.ofFloat (u.share ticks).percent
  .record [("user", percent u.user), ("nice", percent u.nice), ("system", percent u.system),
    ("idle", percent u.idle), ("iowait", percent u.iowait), ("irq", percent u.irq),
    ("softirq", percent u.softirq), ("steal", percent u.steal),
    ("busy", Document.ofFloat u.busyPercent)]

def Cpu.Info.document (i : Cpu.Info) : Document :=
  .record [("cpu_id", optional .count i.processor), ("total_ticks", .count i.totalTicks),
    ("usage", optional Cpu.Usage.document i.usage)]

def Disk.Info.document (i : Disk.Info) : Document :=
  .record [("mount_point", .text i.mountPoint), ("device", .text i.device),
    ("fs_type", .text i.kind), ("online", .bool i.online),
    ("space", optional FileTree.Space.document i.space)]

def Network.Counters.document (c : Network.Counters) : Document :=
  .record [("rx_bytes", .count c.rxBytes), ("rx_packets", .count c.rxPackets),
    ("rx_errors", .count c.rxErrors), ("rx_dropped", .count c.rxDropped),
    ("tx_bytes", .count c.txBytes), ("tx_packets", .count c.txPackets),
    ("tx_errors", .count c.txErrors), ("tx_dropped", .count c.txDropped),
    ("collisions", .count c.collisions)]

def Network.Info.document (i : Network.Info) : Document :=
  .record [("name", .text i.name), ("flags", .count i.flags), ("up", .bool i.up),
    ("running", .bool i.running), ("loopback", .bool i.loopback), ("operstate", .text i.state),
    ("mac_address", optional .text i.address), ("mtu", optional .count i.mtu),
    ("counters", i.counters.document)]

def Software.Info.document (i : Software.Info) : Document :=
  .record [("name", .text i.name), ("version", .text i.version),
    ("architecture", .text i.architecture), ("maintainer", .text i.maintainer),
    ("installed_size_kb", .count i.installedSize), ("summary", .text i.summary),
    ("installed", .bool i.installed)]

/-- What is reported about an instance of a kind. -/
def KindName.dataDocument : (k : KindName) → k.Data → Document
  | .memory, d => Memory.Info.document d
  | .os, d => Os.Info.document d
  | .bios, d => Bios.Info.document d
  | .cpu, d => Cpu.Info.document d.info
  | .disk, d => Disk.Info.document d
  | .network, d => Network.Info.document d
  | .software, d => Software.Info.document d.info

def KindName.instanceDocument (k : KindName) (r : InstanceReport k.Data) : Document :=
  .record [("id", optional (fun id => .text id.text) r.id), ("failure", optional .text r.failure),
    ("data", k.dataDocument r.data)]

def KindName.reportDocument (k : KindName) (r : KindReport k.Data) : Document :=
  .record [("total", optional k.instanceDocument r.total),
    ("instances", .row (r.instances.map k.instanceDocument)), ("error", optional .text r.error)]

/-- The reports of some kinds, under their names. -/
def Snapshot.document (s : Snapshot) (kinds : List KindName) : Document :=
  .record (kinds.map fun k => (k.text, k.reportDocument (s k)))

/-! ### Settings -/

def Settings.document (s : Settings) : Document :=
  let path (p : FileTree.Path) := Document.text p.spelling
  .record [
    ("paths", .record [("proc", path s.paths.proc), ("sys", path s.paths.sys),
      ("etc", path s.paths.etc), ("usr", path s.paths.usr),
      ("dpkg_status", path s.paths.packages)]),
    ("log", .record [("level", .text s.log.level.name),
      ("modules", .record (s.log.modules.map fun m => (m.1, .text m.2.name)))]),
    ("collect", .record [("interval_secs", .count s.interval)]),
    ("cpu", .record [("removal", .text s.cpu.name)]),
    ("disk", .record [("removal", .text s.disk.removal.name),
      ("ignored_filesystems", .row (s.disk.ignored.map .text))]),
    ("network", .record [("removal", .text s.network.removal.name),
      ("include_non_running", .bool s.network.all)]),
    ("software", .record [("removal", .text s.software.name)])]

end HostInventory
