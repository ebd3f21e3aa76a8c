import HostInventory.Text.Quoted

/-! Severities and log events.

Severities are ordered from the most talkative to silence; a threshold lets through
what is at least as severe as itself, and `off` lets nothing through. An event says
how severe it is, which part of the program it comes from, what it says, and which
named fields it carries beside its text. On a log line the controls that a terminal
would act on are spelled out. -/
namespace HostInventory.Log

inductive Severity
  | trace | debug | info | warn | error | off
deriving DecidableEq, Repr

namespace Severity

def rank : Severity → Nat
  | .trace => 0
  | .debug => 1
  | .info => 2
  | .warn => 3
  | .error => 4
  | .off => 5

instance : LE Severity := ⟨fun a b => a.rank ≤ b.rank⟩

instance (a b : Severity) : Decidable (a ≤ b) := inferInstanceAs (Decidable (a.rank ≤ b.rank))

/-- The more talkative of two severities. -/
def lower (a b : Severity) : Severity := if a ≤ b then a else b

/-- The more silent of two severities. -/
def upper (a b : Severity) : Severity := if a ≤ b then b else a

def name : Severity → String
  | .trace => "trace"
  | .debug => "debug"
  | .info => "info"
  | .warn => "warn"
  | .error => "error"
  | .off => "off"

/-- The word that stands in front of a log line. -/
def heading : Severity → String
  | .trace => "TRACE"
  | .debug => "DEBUG"
  | .info => "INFO"
  | .warn => "WARN"
  | .error => "ERROR"
  | .off => "OFF"

theorem lower_le_left (a b : Severity) : a.lower b ≤ a := by
  cases a <;> cases b <;> decide

theorem lower_le_right (a b : Severity) : a.lower b ≤ b := by
  cases a <;> cases b <;> decide

theorem left_le_upper (a b : Severity) : a ≤ a.upper b := by
  cases a <;> cases b <;> decide

theorem right_le_upper (a b : Severity) : b ≤ a.upper b := by
  cases a <;> cases b <;> decide

theorem le_refl (a : Severity) : a ≤ a := Nat.le_refl a.rank

theorem le_trans {a b c : Severity} (h : a ≤ b) (h' : b ≤ c) : a ≤ c := Nat.le_trans h h'

end Severity

structure Event where
  severity : Severity
  /-- The part of the program that speaks, as a path of names. -/
  source : String
  text : String
  /-- Fields beside the text. -/
  fields : List String := []
deriving DecidableEq, Repr

/-- A character of a text as a log line shows it: a control that may begin or make up a
command to a terminal is spelled out, those beyond ASCII by their code points. -/
def shownChar (c : Char) : List Char :=
  match c with
  | '\x1b' => "\\x1b".toList
  | '\x07' => "\\x07".toList
  | '\x08' => "\\x08".toList
  | '\x0c' => "\\x0c".toList
  | '\x7f' => "\\x7f".toList
  | c =>
    if 0x80 ≤ c.toNat ∧ c.toNat ≤ 0x9F then
      ['\\', 'u', '\x7b'] ++ Text.hexadecimal c.toNat ++ ['\x7d']
    else [c]

/-- What an event says, as a log line shows it. -/
def Event.shownText (e : Event) : String :=
  String.ofList (e.text.toList.flatMap shownChar)

/-- An event as a line: its heading, flush right in five columns, and its text. -/
def Event.line (e : Event) : String :=
  let heading := e.severity.heading
  String.ofList (List.replicate (5 - heading.length) ' ') ++ heading ++ " " ++ e.shownText

/-- A value and the events on the way to it, in order. -/
structure Logged (α : Type) where
  events : List Event
  value : α

namespace Logged

variable {α β : Type}

instance : Monad Logged where
  pure a := ⟨[], a⟩
  bind x f := ⟨x.events ++ (f x.value).events, (f x.value).value⟩

/-- Says one thing. -/
def say (e : Event) : Logged Unit := ⟨[e], ()⟩

@[simp] theorem value_pure (a : α) : (pure a : Logged α).value = a := rfl

@[simp] theorem value_bind (x : Logged α) (f : α → Logged β) :
    (x >>= f).value = (f x.value).value := rfl

instance : LawfulMonad Logged := LawfulMonad.mk' Logged
  (by
    intro α x
    simp [Functor.map])
  (by
    intro α β a f
    simp [bind, pure])
  (by
    intro α β γ x f g
    simp [bind, List.append_assoc])

@[simp] theorem value_map (f : α → β) (x : Logged α) : (f <$> x).value = f x.value := rfl

end Logged
end HostInventory.Log
