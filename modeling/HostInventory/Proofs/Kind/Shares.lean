import HostInventory.Proofs.Kind.Samples
import Mathlib.Algebra.Order.BigOperators.Group.List
import Mathlib.Algebra.Order.Field.Rat
import Mathlib.Tactic.Linarith
import Mathlib.Tactic.Positivity

/-! What the shares of a processor's time add up to.

The shares are taken here without rounding. Each of them measures the rise of one counter
against the rise of the counters' sum, and a counter that has fallen counts as one that has not
moved. So the ticks by which counters have fallen (`setback`) are missing from the elapsed time
but not from the states: the shares add up to a hundred percent and the setback's own share, no
share is larger than that, and `busy` falls short of the shares it stands for by as much, as far
as it can (`shares_of_sample`). They are shares of the time, in the sense of `Usage.Whole`,
exactly when no counter has fallen. -/
namespace HostInventory

/-- The share of the whole in percent, without rounding. -/
def Ratio.exact (r : Ratio) : ℚ :=
  r.percentOf (fun n => (n : ℚ)) 100

namespace Cpu

open Format

namespace Usage

/-- The ticks in each state, in the order of the counters. -/
def states (u : Usage) : List Nat :=
  [u.user, u.nice, u.system, u.idle, u.iowait, u.irq, u.softirq, u.steal]

/-- The ticks in each state but idling and waiting. -/
def busyStates (u : Usage) : List Nat :=
  [u.user, u.nice, u.system, u.irq, u.softirq, u.steal]

def exactShare (u : Usage) (ticks : Nat) : ℚ :=
  (u.share ticks).exact

def exactBusy (u : Usage) : ℚ :=
  u.busyOf 0 100 Ratio.exact

/-- The states share the elapsed time among them, and what is busy is what they say. -/
structure Whole (u : Usage) : Prop where
  bounded : ∀ ticks ∈ u.states, 0 ≤ u.exactShare ticks ∧ u.exactShare ticks ≤ 100
  complete : (u.states.map u.exactShare).sum = 100
  busy : u.exactBusy = (u.busyStates.map u.exactShare).sum

end Usage

/-- The ticks by which counters have fallen from one sample to another. -/
def setback (before now : CpuTicks) : Nat :=
  (List.zipWith (· - ·) before.counters now.counters).sum

/-! ### Ticks -/

/-- What rises less what falls is the difference of the sums. -/
theorem sum_add_falls {before now : List Nat} (h : before.length = now.length) :
    now.sum + (List.zipWith (· - ·) before now).sum =
      before.sum + (List.zipWith (· - ·) now before).sum := by
  induction before generalizing now with
  | nil =>
    obtain rfl := List.length_eq_zero_iff.1 h.symm
    rfl
  | cons b before ih =>
    cases now with
    | nil => cases h
    | cons n now =>
      have hrest := ih (Nat.succ.inj h)
      simp only [List.zipWith_cons_cons, List.sum_cons]
      omega

/-- Nothing falls exactly when each number is at least what it was. -/
theorem falls_eq_zero {before now : List Nat} (h : before.length = now.length) :
    (List.zipWith (· - ·) before now).sum = 0 ↔ List.Forall₂ (· ≤ ·) before now := by
  induction before generalizing now with
  | nil =>
    obtain rfl := List.length_eq_zero_iff.1 h.symm
    simp
  | cons b before ih =>
    cases now with
    | nil => cases h
    | cons n now =>
      rw [List.zipWith_cons_cons, List.sum_cons, List.forall₂_cons, ← ih (Nat.succ.inj h)]
      omega

theorem setback_eq_zero {before now : CpuTicks} :
    setback before now = 0 ↔ List.Forall₂ (· ≤ ·) before.counters now.counters :=
  falls_eq_zero rfl

section Difference
variable {before now : CpuTicks} {u : Usage}
  (h : Usage.between before before.counters.sum now now.counters.sum = some u)
include h

/-- Each state has the rise of its counter, and the elapsed time is that of the sum. -/
theorem states_of_between : before.counters.sum < now.counters.sum ∧
    u.elapsed = now.counters.sum - before.counters.sum ∧
    u.states = List.zipWith (· - ·) now.counters before.counters := by
  have hlt := between_isSome.1 (Option.isSome_iff_exists.2 ⟨u, h⟩)
  rw [Usage.between, if_neg (by omega)] at h
  cases h
  exact ⟨hlt, rfl, rfl⟩

theorem elapsed_pos : 0 < u.elapsed := by
  obtain ⟨hlt, helapsed, -⟩ := states_of_between h
  omega

/-- The states together have the elapsed time and the setback. -/
theorem sum_states : u.states.sum = u.elapsed + setback before now := by
  obtain ⟨hlt, helapsed, hstates⟩ := states_of_between h
  have hsum : now.counters.sum + setback before now =
      before.counters.sum + (List.zipWith (· - ·) now.counters before.counters).sum :=
    sum_add_falls rfl
  rw [hstates, helapsed]
  omega

end Difference

/-! ### Shares -/

namespace Usage

theorem exactShare_eq (u : Usage) (ticks : Nat) : u.exactShare ticks = ticks * 100 / u.elapsed :=
  rfl

theorem exactShare_nonneg (u : Usage) (ticks : Nat) : 0 ≤ u.exactShare ticks := by
  rw [exactShare_eq]
  positivity

theorem exactShare_add (u : Usage) (a b : Nat) :
    u.exactShare (a + b) = u.exactShare a + u.exactShare b := by
  rw [exactShare_eq, exactShare_eq, exactShare_eq, Nat.cast_add, add_mul, add_div]

/-- The shares of some counts add up to the share of their sum. -/
theorem sum_exactShare (u : Usage) (counts : List Nat) :
    (counts.map u.exactShare).sum = u.exactShare counts.sum := by
  induction counts with
  | nil => simp [exactShare_eq]
  | cons n rest ih => rw [List.map_cons, List.sum_cons, List.sum_cons, ih, exactShare_add]

theorem exactShare_elapsed {u : Usage} (h : 0 < u.elapsed) : u.exactShare u.elapsed = 100 := by
  have hne : (u.elapsed : ℚ) ≠ 0 := by exact_mod_cast h.ne'
  rw [exactShare_eq, mul_comm, mul_div_assoc, div_self hne, mul_one]

theorem exactShare_eq_zero {u : Usage} (h : 0 < u.elapsed) {ticks : Nat} :
    u.exactShare ticks = 0 ↔ ticks = 0 := by
  have hne : (u.elapsed : ℚ) ≠ 0 := by exact_mod_cast h.ne'
  rw [exactShare_eq, div_eq_zero_iff, or_iff_left hne, mul_eq_zero,
    or_iff_left (by norm_num : (100 : ℚ) ≠ 0), Nat.cast_eq_zero]

theorem exactShare_mono (u : Usage) {a b : Nat} (h : a ≤ b) : u.exactShare a ≤ u.exactShare b := by
  obtain ⟨c, rfl⟩ := Nat.exists_eq_add_of_le h
  rw [exactShare_add]
  exact le_add_of_nonneg_right (u.exactShare_nonneg c)

/-- No state has more than all together. -/
theorem exactShare_le (u : Usage) {ticks : Nat} (h : ticks ∈ u.states) :
    u.exactShare ticks ≤ u.exactShare u.states.sum :=
  u.exactShare_mono (List.single_le_sum (fun n _ => n.zero_le) ticks h)

/-- All states are the busy ones, idling and waiting. -/
theorem sum_states_eq (u : Usage) : u.states.sum = u.busyStates.sum + u.idle + u.iowait := by
  simp only [states, busyStates, List.sum_cons, List.sum_nil]
  omega

/-- Busy is what idling and waiting leave of a hundred percent, and at least nothing. -/
theorem exactBusy_eq (u : Usage) :
    u.exactBusy = max 0 (100 - u.exactShare u.idle - u.exactShare u.iowait) := by
  show (if 100 - u.exactShare u.idle - u.exactShare u.iowait < 0 then 0 else _) = _
  split
  · next h => exact (max_eq_left h.le).symm
  · next h => exact (max_eq_right (not_lt.1 h)).symm

end Usage

section Difference
variable {before now : CpuTicks} {u : Usage}
  (h : Usage.between before before.counters.sum now now.counters.sum = some u)
include h

theorem exactShare_states :
    u.exactShare u.states.sum = 100 + u.exactShare (setback before now) := by
  rw [sum_states h, u.exactShare_add, Usage.exactShare_elapsed (elapsed_pos h)]

theorem exactBusy_of_between : u.exactBusy =
    max 0 (u.exactShare u.busyStates.sum - u.exactShare (setback before now)) := by
  have hall := exactShare_states h
  rw [u.sum_states_eq, u.exactShare_add, u.exactShare_add] at hall
  rw [u.exactBusy_eq]
  congr 1
  linarith

theorem whole_iff : u.Whole ↔ List.Forall₂ (· ≤ ·) before.counters now.counters := by
  rw [← setback_eq_zero, ← Usage.exactShare_eq_zero (elapsed_pos h)]
  have hall := exactShare_states h
  constructor
  · intro hwhole
    have hcomplete := hwhole.complete
    rw [u.sum_exactShare, hall] at hcomplete
    linarith
  · intro hzero
    rw [hzero, add_zero] at hall
    refine ⟨fun ticks hticks => ?_, (u.sum_exactShare _).trans hall, ?_⟩
    · exact ⟨u.exactShare_nonneg ticks, hall ▸ u.exactShare_le hticks⟩
    · rw [exactBusy_of_between h, hzero, sub_zero, u.sum_exactShare]
      exact max_eq_right (u.exactShare_nonneg _)

end Difference

/-- A sample that follows another is measured against it. -/
theorem between_of_sample {d d' : Data} {before now : CpuTicks}
    (hprevious : d.previous = some before) (hsample : d.sample? now = some d') :
    d'.info.usage = Usage.between before before.counters.sum now now.counters.sum := by
  obtain ⟨hnone, -⟩ | ⟨before', hsome, husage⟩ := usage_of_sample hsample
  · rw [hnone] at hprevious
    cases hprevious
  · obtain rfl : before' = before := Option.some.inj (hsome.symm.trans hprevious)
    exact husage

/-- **Shares add up to the time, and what counters have lost comes on top.** The shares of the
states lie between nothing and a hundred percent with the setback's share on top, and add up to
that. They are shares of the time exactly when no counter has fallen. -/
theorem shares_of_sample {d d' : Data} {before now : CpuTicks} {u : Usage}
    (hprevious : d.previous = some before) (hsample : d.sample? now = some d')
    (husage : d'.info.usage = some u) :
    (∀ ticks ∈ u.states, 0 ≤ u.exactShare ticks ∧
      u.exactShare ticks ≤ 100 + u.exactShare (setback before now)) ∧
    (u.states.map u.exactShare).sum = 100 + u.exactShare (setback before now) ∧
    u.exactBusy =
      max 0 ((u.busyStates.map u.exactShare).sum - u.exactShare (setback before now)) ∧
    (u.Whole ↔ List.Forall₂ (· ≤ ·) before.counters now.counters) := by
  have hbetween := (between_of_sample hprevious hsample).symm.trans husage
  rw [u.sum_exactShare, u.sum_exactShare, ← exactShare_states hbetween]
  refine ⟨fun ticks hticks => ?_, rfl, exactBusy_of_between hbetween, whole_iff hbetween⟩
  exact ⟨u.exactShare_nonneg ticks, u.exactShare_le hticks⟩

/-- A second with a bit of everything, and nothing that falls. -/
theorem shares_of_sample_risen : ∃ d d' u,
    (d : Data).previous = some { idle := 100, iowait := 5 } ∧
    d.sample? { user := 30, system := 10, idle := 150, iowait := 15 } = some d' ∧
    d'.info.usage = some u ∧ u.exactShare u.user = 30 ∧ u.Whole := by
  let before : CpuTicks := { idle := 100, iowait := 5 }
  let now : CpuTicks := { user := 30, system := 10, idle := 150, iowait := 15 }
  let d : Data := { info := { processor := some 0, totalTicks := 105 }, previous := some before }
  let u : Usage := ⟨100, 30, 0, 10, 50, 10, 0, 0, 0⟩
  let d' : Data :=
    { info := { processor := some 0, totalTicks := 205, usage := some u }, previous := some now }
  have hsample : d.sample? now = some d' := by decide +kernel
  have hrise : List.Forall₂ (· ≤ ·) before.counters now.counters := by decide
  have hwhole : u.Whole := (shares_of_sample rfl hsample rfl).2.2.2.2 hrise
  refine ⟨d, d', u, rfl, hsample, rfl, ?_, hwhole⟩
  rw [Usage.exactShare_eq]
  norm_num [u]

/-- The kernel has taken back ten ticks of waiting: of the ten ticks that have elapsed the users
have twenty. -/
theorem share_above_hundred_after_fall : ∃ d d' u,
    (d : Data).previous = some { iowait := 10 } ∧ d.sample? { user := 20 } = some d' ∧
    d'.info.usage = some u ∧ u.exactShare u.user = 200 ∧ ¬u.Whole := by
  let before : CpuTicks := { iowait := 10 }
  let now : CpuTicks := { user := 20 }
  let d : Data := { info := { processor := none, totalTicks := 10 }, previous := some before }
  let u : Usage := ⟨10, 20, 0, 0, 0, 0, 0, 0, 0⟩
  let d' : Data :=
    { info := { processor := none, totalTicks := 20, usage := some u }, previous := some now }
  have hsample : d.sample? now = some d' := by decide +kernel
  have huser : u.exactShare u.user = 200 := by
    rw [Usage.exactShare_eq]
    norm_num [u]
  refine ⟨d, d', u, rfl, hsample, rfl, huser, fun hwhole => ?_⟩
  have hle := (hwhole.bounded u.user List.mem_cons_self).2
  rw [huser] at hle
  norm_num at hle

end Cpu
end HostInventory
