import HostInventory.Enumeration.Fault
import HostInventory.Log.Event

/-! Outcomes with a journal.

An operation on an enumeration calls its kind and its instances and says things
for the log. The journal of an outcome holds both, in order, also when the
operation ends in a fault: what came before the fault has happened. A call is noted
where it is made (`Outcome.calling`), so none is made without a note. -/
namespace HostInventory.Enumeration

/-- What an enumeration asks of its kind and its instances. -/
inductive Call
  | discover
  | instantiate (id : Identity)
  | update (subject : Subject)
  /-- An instance is released; the handle says which one. -/
  | cleanup (handle : Handle)
  | present (subject : Subject)
  | absent (subject : Subject)
  /-- The kind itself is released. -/
  | release
deriving DecidableEq, Repr

inductive Note
  | call (c : Call)
  | event (e : Log.Event)
deriving DecidableEq, Repr

structure Outcome (α : Type) where
  journal : List Note
  value : Except Fault α

namespace Outcome

variable {α β : Type}

/-- One operation after another; a fault ends both. -/
protected def bind (x : Outcome α) (f : α → Outcome β) : Outcome β :=
  match x.value with
  | .ok a => ⟨x.journal ++ (f a).journal, (f a).value⟩
  | .error fault => ⟨x.journal, .error fault⟩

instance : Monad Outcome where
  pure a := ⟨[], .ok a⟩
  bind := Outcome.bind

/-- Makes a call: notes it, and does what is called. -/
def calling (c : Call) (x : Outcome α) : Outcome α := ⟨.call c :: x.journal, x.value⟩

def say (e : Log.Event) : Outcome Unit := ⟨[.event e], .ok ()⟩

def fault (f : Fault) : Outcome α := ⟨[], .error f⟩

def ofLogged (x : Log.Logged α) : Outcome α := ⟨x.events.map .event, .ok x.value⟩

/-- Takes a value that may itself be a fault. -/
def ofExcept : Except Fault α → Outcome α
  | .ok a => pure a
  | .error f => fault f

/-- The calls of a journal. -/
def calls (x : Outcome α) : List Call :=
  x.journal.filterMap fun
    | .call c => some c
    | .event _ => none

/-- The log events of a journal. -/
def events (x : Outcome α) : List Log.Event :=
  x.journal.filterMap fun
    | .call _ => none
    | .event e => some e

@[simp] theorem value_pure (a : α) : (pure a : Outcome α).value = .ok a := rfl

@[simp] theorem calls_pure (a : α) : (pure a : Outcome α).calls = [] := rfl

@[simp] theorem value_fault (f : Fault) : (fault f : Outcome α).value = .error f := rfl

@[simp] theorem fault_bind (f : Fault) (g : α → Outcome β) : fault f >>= g = fault f := rfl

@[simp] theorem map_fault (f : Fault) (g : α → β) : g <$> (fault f : Outcome α) = fault f := rfl

@[simp] theorem ofExcept_ok (a : α) : ofExcept (.ok a) = pure a := rfl

@[simp] theorem ofExcept_error (f : Fault) : (ofExcept (.error f) : Outcome α) = fault f := rfl

@[simp] theorem value_ofExcept (x : Except Fault α) : (ofExcept x).value = x := by
  cases x <;> rfl

@[simp] theorem value_calling (c : Call) (x : Outcome α) : (calling c x).value = x.value := rfl

@[simp] theorem calls_calling (c : Call) (x : Outcome α) :
    (calling c x).calls = c :: x.calls := rfl

/-- What is done with the answer to a call is done behind the note of it. -/
@[simp] theorem calling_bind (c : Call) (x : Outcome α) (f : α → Outcome β) :
    calling c x >>= f = calling c (x >>= f) := by
  show Outcome.bind (calling c x) f = calling c (Outcome.bind x f)
  unfold Outcome.bind calling
  cases x.value <;> rfl

@[simp] theorem map_calling (c : Call) (x : Outcome α) (g : α → β) :
    g <$> calling c x = calling c (g <$> x) :=
  calling_bind c x (pure ∘ g)

@[simp] theorem value_say_bind (e : Log.Event) (f : Unit → Outcome α) :
    (say e >>= f).value = (f ()).value := rfl

@[simp] theorem calls_say_bind (e : Log.Event) (f : Unit → Outcome α) :
    (say e >>= f).calls = (f ()).calls := rfl

@[simp] theorem value_ofLogged_bind (x : Log.Logged α) (f : α → Outcome β) :
    (ofLogged x >>= f).value = (f x.value).value := rfl

/-- What is said for the log is no call. -/
@[simp] theorem calls_ofLogged_bind (x : Log.Logged α) (f : α → Outcome β) :
    (ofLogged x >>= f).calls = (f x.value).calls := by
  show List.filterMap _ (x.events.map Note.event ++ (f x.value).journal) = _
  rw [List.filterMap_append, List.filterMap_map]
  have : x.events.filterMap ((fun | .call c => some c | .event _ => none) ∘ Note.event) =
      ([] : List Call) := List.filterMap_eq_nil_iff.2 fun _ _ => rfl
  rw [this]
  rfl

theorem ofLogged_map (g : α → β) (x : Log.Logged α) : ofLogged (g <$> x) = g <$> ofLogged x := by
  show (⟨(x.events ++ []).map .event, .ok (g x.value)⟩ : Outcome β) =
    ⟨x.events.map .event ++ [], .ok (g x.value)⟩
  rw [List.append_nil, List.append_nil]

theorem ofExcept_map (g : α → β) (x : Except Fault α) : ofExcept (x.map g) = g <$> ofExcept x := by
  cases x <;> rfl

theorem bind_of_ok {x : Outcome α} {a : α} (h : x.value = .ok a) (f : α → Outcome β) :
    x >>= f = ⟨x.journal ++ (f a).journal, (f a).value⟩ := by
  show Outcome.bind x f = _
  simp only [Outcome.bind, h]

theorem bind_of_error {x : Outcome α} {e : Fault} (h : x.value = .error e) (f : α → Outcome β) :
    x >>= f = ⟨x.journal, .error e⟩ := by
  show Outcome.bind x f = _
  simp only [Outcome.bind, h]

theorem value_bind_of_ok {x : Outcome α} {a : α} (h : x.value = .ok a) (f : α → Outcome β) :
    (x >>= f).value = (f a).value := by
  rw [bind_of_ok h]

theorem value_bind_of_error {x : Outcome α} {e : Fault} (h : x.value = .error e)
    (f : α → Outcome β) : (x >>= f).value = .error e := by
  rw [bind_of_error h]

/-- What comes of two operations depends on the journal of neither. -/
theorem value_bind_congr {x y : Outcome α} (h : x.value = y.value) (f : α → Outcome β) :
    (x >>= f).value = (y >>= f).value := by
  cases hy : y.value with
  | ok a => rw [value_bind_of_ok (h.trans hy), value_bind_of_ok hy]
  | error e => rw [value_bind_of_error (h.trans hy), value_bind_of_error hy]

theorem calls_bind_of_ok {x : Outcome α} {a : α} (h : x.value = .ok a) (f : α → Outcome β) :
    (x >>= f).calls = x.calls ++ (f a).calls := by
  rw [bind_of_ok h]
  exact List.filterMap_append

/-- An operation ends well exactly when both of its halves do. -/
theorem value_bind_eq_ok {x : Outcome α} {f : α → Outcome β} {b : β} :
    (x >>= f).value = .ok b ↔ ∃ a, x.value = .ok a ∧ (f a).value = .ok b := by
  cases h : x.value with
  | ok a => simp [bind_of_ok h]
  | error e => simp [bind_of_error h]

theorem toOption_eq_some {x : Outcome α} {a : α} :
    x.value.toOption = some a ↔ x.value = .ok a := by
  cases x.value <;> simp [Except.toOption]

instance : LawfulMonad Outcome := LawfulMonad.mk' Outcome
  (by
    intro α x
    rcases x with ⟨j, _ | a⟩ <;> simp [Functor.map, Outcome.bind])
  (by
    intro α β a f
    simp [bind, Outcome.bind, pure])
  (by
    intro α β γ x f g
    rcases x with ⟨j, _ | a⟩
    · rfl
    · simp only [bind, Outcome.bind]
      cases (f a).value <;> simp [List.append_assoc])

theorem value_map_eq_ok {x : Outcome α} {f : α → β} {b : β} :
    (f <$> x).value = .ok b ↔ ∃ a, x.value = .ok a ∧ f a = b := by
  rw [← bind_pure_comp, value_bind_eq_ok]
  simp

end Outcome
end HostInventory.Enumeration
