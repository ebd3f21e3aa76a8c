import HostInventory.Enumeration.Kind
import HostInventory.FileTree.Provider

/-! Firmware and board.

The firmware's tables are one instance. Without a readable vendor there is no table
worth reporting and the refresh fails; any other value may be missing, and an empty
one counts as missing. -/
namespace HostInventory.Bios

open Enumeration FileTree

structure Info where
  vendor : String := ""
  version : String := ""
  releaseDate : String := ""
  /-- The firmware's own release, if it has one. -/
  release : Option String := none
  systemVendor : Option String := none
  productName : Option String := none
  boardVendor : Option String := none
  boardName : Option String := none
deriving DecidableEq, Repr

/-- Puts the table in a directory of single values in the place of the last one. -/
def look (tables : Path) (host : Provider) (last : Info) : Except (Failure × Info) Info := do
  let value (name : String) := host.filledValue? (tables / ⟨name⟩)
  let vendor ← leaving last ((host.readValue (tables / ⟨"bios_vendor"⟩)).mapError .io)
  return {
    vendor
    version := (value "bios_version").getD ""
    releaseDate := (value "bios_date").getD ""
    release := value "bios_release"
    systemVendor := value "sys_vendor"
    productName := value "product_name"
    boardVendor := value "board_vendor"
    boardName := value "board_name" }

def kind (sys : Path) : Kind Provider Unit Info where
  name := "bios"
  whole := some (Instance.ofWhole {})
  refresh host _ i := pure (.ok (look (sys / ⟨"class/dmi/id"⟩) host i.data))

end HostInventory.Bios
