import HostInventory.FileTree.Tree

/-! Host states to try things on.

Three trees as rows of edits: a host with four processors, two disks and three
interfaces of which one is down; a container with one of each and neither firmware
tables nor a distribution file; and a host whose provider files are missing or
malformed. -/
namespace HostInventory.FileTree.Scenario

def gibibyte : Nat := 1024 * 1024 * 1024

/-- Lines with their ends. -/
def text (lines : List String) : String :=
  String.join (lines.map (· ++ "\n"))

/-- The attributes of a network interface. -/
def interface (name flags state address mtu : String) : List Tree.Edit :=
  let file (item value : String) : Tree.Edit :=
    .addFile ⟨"/sys/class/net/" ++ name ++ "/" ++ item⟩ (value ++ "\n")
  [file "flags" flags, file "operstate" state, file "address" address, file "mtu" mtu]

/-- Four processors, the disks `/` and `/var`, two interfaces up and one down, four
stanzas of which one is no longer installed. -/
def typicalEdits : List Tree.Edit :=
  [.addFile ⟨"/proc/uptime"⟩ "12345.67 98765.43\n",
    .addFile ⟨"/proc/meminfo"⟩ (text [
      "MemTotal:       16384000 kB",
      "MemFree:         8192000 kB",
      "MemAvailable:   12000000 kB",
      "Buffers:          512000 kB",
      "Cached:          2048000 kB",
      "SwapCached:            0 kB",
      "Active:          4096000 kB",
      "Inactive:        2048000 kB",
      "SwapTotal:       4096000 kB",
      "SwapFree:        4096000 kB",
      "Dirty:              1024 kB",
      "Writeback:             0 kB",
      "Slab:             512000 kB",
      "SReclaimable:     256000 kB"]),
    .addFile ⟨"/proc/stat"⟩ (text [
      "cpu  10000 500 3000 80000 1000 200 100 0 0 0",
      "cpu0 2500 125 750 20000 250 50 25 0 0 0",
      "cpu1 2500 125 750 20000 250 50 25 0 0 0",
      "cpu2 2500 125 750 20000 250 50 25 0 0 0",
      "cpu3 2500 125 750 20000 250 50 25 0 0 0",
      "intr 1000000 50 0 0 0 0 0 0 0 1 0 0 0 100 0 0 1000",
      "ctxt 500000",
      "btime 1700000000",
      "processes 10000",
      "procs_running 2",
      "procs_blocked 0"]),
    .addFile ⟨"/proc/sys/kernel/ostype"⟩ "Linux\n",
    .addFile ⟨"/proc/sys/kernel/osrelease"⟩ "6.5.0-14-generic\n",
    .addFile ⟨"/proc/sys/kernel/hostname"⟩ "web-01\n",
    .addFile ⟨"/etc/os-release"⟩ (text [
      "PRETTY_NAME=\"Ubuntu 22.04.3 LTS\"",
      "NAME=\"Ubuntu\"",
      "VERSION_ID=\"22.04\"",
      "VERSION=\"22.04.3 LTS (Jammy Jellyfish)\"",
      "ID=ubuntu",
      "ID_LIKE=debian"]),
    .addFile ⟨"/sys/class/dmi/id/bios_vendor"⟩ "American Megatrends Inc.\n",
    .addFile ⟨"/sys/class/dmi/id/bios_version"⟩ "F.42\n",
    .addFile ⟨"/sys/class/dmi/id/bios_date"⟩ "03/15/2023\n",
    .addFile ⟨"/sys/class/dmi/id/bios_release"⟩ "5.17\n",
    .addFile ⟨"/sys/class/dmi/id/sys_vendor"⟩ "HP\n",
    .addFile ⟨"/sys/class/dmi/id/product_name"⟩ "ProLiant DL360 Gen10\n",
    .addFile ⟨"/sys/class/dmi/id/board_vendor"⟩ "HP\n",
    .addFile ⟨"/sys/class/dmi/id/board_name"⟩ "ProLiant DL360 Gen10\n",
    .addFile ⟨"/proc/mounts"⟩ (text [
      "/dev/sda1 / ext4 rw,relatime,errors=remount-ro 0 0",
      "proc /proc proc rw,nosuid,nodev,noexec,relatime 0 0",
      "sysfs /sys sysfs rw,nosuid,nodev,noexec,relatime 0 0",
      "tmpfs /run tmpfs rw,nosuid,nodev,size=1638400k,mode=755 0 0",
      "cgroup2 /sys/fs/cgroup cgroup2 rw,nosuid,nodev,noexec,relatime 0 0",
      "/dev/sda2 /var xfs rw,relatime,attr2,inode64 0 0"]),
    .setSpace ⟨"/"⟩ ⟨4096, 100 * gibibyte, 60 * gibibyte, 55 * gibibyte, 6553600, 5000000⟩,
    .setSpace ⟨"/var"⟩
      ⟨4096, 200 * gibibyte, 150 * gibibyte, 150 * gibibyte, 13107200, 13000000⟩] ++
    interface "eth0" "0x1003" "up" "52:54:00:12:34:56" "1500" ++
    interface "eth1" "0x1002" "down" "52:54:00:ab:cd:ef" "1500" ++
    interface "lo" "0x9" "unknown" "00:00:00:00:00:00" "65536" ++
    [.addFile ⟨"/proc/net/dev"⟩ (text [
      "Inter-|   Receive                                                |  Transmit",
      " face |bytes    packets errs drop fifo frame compressed multicast|bytes    packets errs drop fifo colls carrier compressed",
      "    lo: 1234567     1234    0    0    0     0          0         0  1234567     1234    0    0    0     0       0          0",
      "  eth0: 98765432   65432    0    0    0     0          0       100 12345678   23456    0    0    0     0       0          0",
      "  eth1:        0       0    0    0    0     0          0         0        0       0    0    0    0     0       0          0"]),
    .addFile ⟨"/var/lib/dpkg/status"⟩ (text [
      "Package: bash",
      "Status: install ok installed",
      "Priority: required",
      "Installed-Size: 1864",
      "Maintainer: Ubuntu Developers <ubuntu-devel-discuss@lists.ubuntu.com>",
      "Architecture: amd64",
      "Version: 5.1-6ubuntu1",
      "Description: GNU Bourne Again SHell",
      " Bash is an sh-compatible command language interpreter.",
      "",
      "Package: coreutils",
      "Status: install ok installed",
      "Installed-Size: 7112",
      "Maintainer: Ubuntu Developers <ubuntu-devel-discuss@lists.ubuntu.com>",
      "Architecture: amd64",
      "Version: 8.32-4.1ubuntu1",
      "Description: GNU core utilities",
      "",
      "Package: old-tool",
      "Status: deinstall ok config-files",
      "Version: 0.9-1",
      "Architecture: all",
      "",
      "Package: zlib1g",
      "Status: install ok installed",
      "Installed-Size: 164",
      "Architecture: amd64",
      "Version: 1:1.2.11.dfsg-2ubuntu9",
      "Description: compression library - runtime"])]

/-- One processor, the root disk, the loopback interface and an empty package
database. -/
def minimalEdits : List Tree.Edit :=
  [.addFile ⟨"/proc/uptime"⟩ "100.00 50.00\n",
    .addFile ⟨"/proc/meminfo"⟩ (text [
      "MemTotal:        1024000 kB",
      "MemFree:          512000 kB",
      "MemAvailable:     768000 kB",
      "Buffers:           32000 kB",
      "Cached:           128000 kB",
      "SwapTotal:             0 kB",
      "SwapFree:              0 kB"]),
    .addFile ⟨"/proc/stat"⟩ (text [
      "cpu  100 0 50 1000 0 0 0 0 0 0",
      "cpu0 100 0 50 1000 0 0 0 0 0 0",
      "btime 1700000000"]),
    .addFile ⟨"/proc/sys/kernel/ostype"⟩ "Linux\n",
    .addFile ⟨"/proc/sys/kernel/osrelease"⟩ "6.1.0\n",
    .addFile ⟨"/proc/sys/kernel/hostname"⟩ "container\n",
    .addFile ⟨"/proc/mounts"⟩ "overlay / overlay rw,relatime 0 0\n",
    .setSpace ⟨"/"⟩ ⟨4096, 10 * gibibyte, 8 * gibibyte, 8 * gibibyte, 655360, 600000⟩] ++
    interface "lo" "0x9" "unknown" "00:00:00:00:00:00" "65536" ++
    [.addFile ⟨"/proc/net/dev"⟩ (text [
      "Inter-|   Receive                                                |  Transmit",
      " face |bytes    packets errs drop fifo frame compressed multicast|bytes    packets errs drop fifo colls carrier compressed",
      "    lo:     100       1    0    0    0     0          0         0      100       1    0    0    0     0       0          0"]),
    .addFile ⟨"/var/lib/dpkg/status"⟩ ""]

/-- No total in the memory table, a processor label without a number, a package
database without fields, and nothing about disks and interfaces. -/
def brokenEdits : List Tree.Edit :=
  [.addFile ⟨"/proc/meminfo"⟩ "MemFree:   1000 kB\n",
    .addFile ⟨"/proc/stat"⟩ (text [
      "cpu  1 2 3 4",
      "cpuX 1 2 3 4"]),
    .addFile ⟨"/proc/uptime"⟩ "garbage\n",
    .addFile ⟨"/var/lib/dpkg/status"⟩ "Package bash without colon\n"]

def typical : Tree := Tree.run {} typicalEdits

def minimal : Tree := Tree.run {} minimalEdits

def broken : Tree := Tree.run {} brokenEdits

end HostInventory.FileTree.Scenario
