import HostInventory.Format.Error
import HostInventory.Text.Blank
import HostInventory.Text.Decimal

/-! The seconds since the system started: the first word of the text, whatever
follows it. -/
namespace HostInventory.Format.Uptime

def read (text : String) : Except Error Float :=
  match (Text.words text.toList).head?.bind Text.readFloat with
  | some seconds => .ok seconds
  | none => .error .uptime

end HostInventory.Format.Uptime
