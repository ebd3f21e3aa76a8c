import HostInventory.Kind.Memory
import HostInventory.Proofs.Enumeration.Update

/-! Updates of memory.

The only sum that is formed of the figures of the memory table is that of what is free or
could be freed, and only where the table does not say what is available. An update with a
refresh ends in a fault exactly when that sum does not fit into 64 bits (`Overflows`). -/
namespace HostInventory.Memory

open Enumeration FileTree

/-- What is available has to be summed up, and the sum does not fit into 64 bits. -/
def Overflows (table : Path) (host : Provider) : Prop :=
  ∃ text, host.read table = .ok text ∧ (Format.MemInfo.read text).hasTotal = true ∧
    (Format.MemInfo.read text).available = 0 ∧
    Text.wordBound64 ≤ (Format.MemInfo.read text).free + (Format.MemInfo.read text).buffers +
      (Format.MemInfo.read text).cached

/-- The sum is refused exactly when all of it does not fit, whichever part is added last. -/
theorem available?_eq_none {m : Format.MemInfo} : available? m = none ↔
    m.available = 0 ∧ Text.wordBound64 ≤ m.free + m.buffers + m.cached := by
  unfold available?
  by_cases ha : m.available > 0
  · rw [if_pos ha]
    constructor
    · exact nofun
    · intro h
      omega
  · rw [if_neg ha]
    by_cases hb : m.free + m.buffers < Text.wordBound64
    · by_cases hc : m.free + m.buffers + m.cached < Text.wordBound64
      · simp only [addBelow64?, hb, if_true, Option.bind_some, hc]
        constructor
        · exact nofun
        · intro h
          omega
      · simp only [addBelow64?, hb, if_true, Option.bind_some, hc, if_false]
        exact ⟨fun _ => by omega, fun _ => trivial⟩
    · simp only [addBelow64?, hb, if_false, Option.bind_none]
      exact ⟨fun _ => by omega, fun _ => trivial⟩

/-- A look ends in a fault exactly when the sum does not fit. -/
theorem look_eq_error {table : Path} {host : Provider} {last : Info} {fault : Fault} :
    (look table host last).value = .error fault ↔ fault = .overflow ∧ Overflows table host := by
  unfold look
  cases hr : host.read table with
  | error e =>
    refine ⟨nofun, ?_⟩
    rintro ⟨-, text, htext, -⟩
    rw [hr] at htext
    cases htext
  | ok text =>
    have hover : Overflows table host ↔ (Format.MemInfo.read text).hasTotal = true ∧
        available? (Format.MemInfo.read text) = none := by
      rw [available?_eq_none]
      constructor
      · rintro ⟨text', htext, h⟩
        rw [hr] at htext
        cases htext
        exact h
      · exact fun h => ⟨text, hr, h⟩
    rw [hover]
    cases ht : (Format.MemInfo.read text).hasTotal with
    | false => simp [ht]
    | true =>
      cases ha : available? (Format.MemInfo.read text) with
      | none =>
        simp only [ht, ha, Bool.not_true, Bool.false_eq_true, if_false, Log.Logged.value_pure,
          and_self, and_true, Except.error.injEq]
        exact eq_comm
      | some available =>
        simp only [ht, ha, Bool.not_true, Bool.false_eq_true, if_false, reduceCtorEq, and_false]

theorem kind_truthful (proc : Path) : (kind proc).Truthful :=
  .of_discover fun _ _ => rfl

/-- Memory, which is always there as a whole, is updated unless the sum does not fit. -/
theorem update_reports {proc : Path} {e : Enumeration Unit Info} (hp : e.phase = .initialized)
    {host : Provider} (hover : ¬Overflows (proc / ⟨"meminfo"⟩) host) :
    ∃ r e', (e.update (kind proc) host true).value = .ok (.ok r, e') := by
  have hd : ((kind proc).discover host e.cache).value = .ok ([], ()) := rfl
  have hn : (kind proc).Names host () [] := kind_truthful proc host () [] () rfl
  refine ⟨_, _, update_with_refresh hp hd hn fun i _ => ?_⟩
  cases hv : (look (proc / ⟨"meminfo"⟩) host i.data).value with
  | ok r => exact ⟨r, hv⟩
  | error fault => exact absurd (look_eq_error.1 hv).2 hover

theorem update_returns {proc : Path} {e : Enumeration Unit Info} (hp : e.phase = .initialized)
    {host : Provider} (hover : ¬Overflows (proc / ⟨"meminfo"⟩) host) :
    ∃ x, (e.update (kind proc) host true).value = .ok x := by
  obtain ⟨r, e', hv⟩ := update_reports hp hover
  exact ⟨_, hv⟩

theorem update_overflows {proc : Path} {e : Enumeration Unit Info} (hp : e.phase = .initialized)
    (ht : e.total.isSome = true) {host : Provider} (hover : Overflows (proc / ⟨"meminfo"⟩) host) :
    (e.update (kind proc) host true).value = .error .overflow := by
  have hd : ((kind proc).discover host e.cache).value = .ok ([], ()) := rfl
  have hn : (kind proc).Names host () [] := kind_truthful proc host () [] () rfl
  obtain ⟨i, hi⟩ := Option.isSome_iff_exists.1 ht
  have hfault : ¬∀ i ∈ (e.reconciled (kind proc) host () []).instances,
      (kind proc).Faultless host () i := by
    intro h
    obtain ⟨r, hr⟩ := h i (List.mem_append_left _ (Option.mem_toList.2 hi))
    have hl : (look (proc / ⟨"meminfo"⟩) host i.data).value = .ok r := hr
    rw [look_eq_error.2 ⟨rfl, hover⟩] at hl
    cases hl
  obtain ⟨_, -, fault, hl, hv⟩ := update_of_fault hp hd hn hfault
  rw [hv, (look_eq_error.1 hl).1]

end HostInventory.Memory
