import HostInventory.FileTree.Error
import HostInventory.Format.Error

/-! Why a resource could not be listed, built or refreshed. -/
namespace HostInventory

inductive Failure
  /-- A provider file or directory could not be read. -/
  | io (cause : FileTree.Error)
  /-- What was read makes no sense. -/
  | parse (text : String)
  /-- The resource is not there any more. -/
  | gone (what : String)
  /-- The kind of resource has no such operation. -/
  | notSupported (text : String)
  /-- The provider is there and holds nothing usable. -/
  | unavailable (text : String)
deriving DecidableEq, Repr

namespace Failure

def message : Failure → String
  | .io cause => s!"I/O error: {cause.message}"
  | .parse text => s!"parse error: {text}"
  | .gone what => s!"{what} disappeared"
  | .notSupported text => s!"not supported: {text}"
  | .unavailable text => s!"unavailable: {text}"

/-- A text was refused by its reader. -/
def ofFormat (e : Format.Error) : Failure :=
  .parse e.message

end Failure

/-- What may fail, on a state: where it does, the state is left as it is at that point. -/
def leaving {σ α : Type} (state : σ) (x : Except Failure α) : Except (Failure × σ) α :=
  x.mapError fun f => (f, state)

@[simp] theorem leaving_ok {σ α : Type} (state : σ) (a : α) : leaving state (.ok a) = .ok a := rfl

@[simp] theorem leaving_error {σ α : Type} (state : σ) (f : Failure) :
    (leaving state (.error f) : Except (Failure × σ) α) = .error (f, state) := rfl

/-- What fails first leaves the state as it was, and what comes behind it leaves what it leaves. -/
theorem leaving_bind_eq_error {σ α β : Type} {state left : σ} {x : Except Failure α}
    {g : α → Except (Failure × σ) β} {f : Failure} :
    (leaving state x >>= g) = .error (f, left) ↔
      (x = .error f ∧ left = state) ∨ ∃ a, x = .ok a ∧ g a = .error (f, left) := by
  cases x with
  | error f' => simp [bind, Except.bind, eq_comm]
  | ok a => simp [bind, Except.bind]

/-- Reads a provider file and then its text; either may fail. -/
def readAs {α : Type} (source : Except FileTree.Error String)
    (reader : String → Except Format.Error α) : Except Failure α :=
  match source with
  | .error e => .error (.io e)
  | .ok text => (reader text).mapError Failure.ofFormat

end HostInventory
