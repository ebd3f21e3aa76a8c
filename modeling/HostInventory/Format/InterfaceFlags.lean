import HostInventory.Format.Error
import HostInventory.Text.Blank

/-! The flags of a network interface: a 32-bit word in hexadecimal, with or without
the mark of that base, alone in its text but for blanks. -/
namespace HostInventory.Format.InterfaceFlags

/-- The numeral without the mark of the base. -/
def dropMark : List Char → List Char
  | '0' :: 'x' :: rest => rest
  | '0' :: 'X' :: rest => rest
  | s => s

def read (text : String) : Except Error Nat :=
  let body := Text.trim text.toList
  match Text.readHexadecimal Text.wordBound32 (dropMark body) with
  | .ok n => .ok n
  | .error fault => .error (.interfaceFlags (String.ofList body) fault)

/-- The interface is administratively up. -/
def isUp (flags : Nat) : Bool :=
  flags % 2 = 1

/-- The interface leads back to the host itself. -/
def isLoopback (flags : Nat) : Bool :=
  flags / 8 % 2 = 1

end HostInventory.Format.InterfaceFlags
