import HostInventory.Proofs.Enumeration.Release

/-! After the cleanup.

A cleaned up enumeration stays cleaned up and holds nothing under an identity, whatever is done
with it. It admits three operations (`Operation.IsLate`): a cleanup and taking out an identity,
which do nothing, and, unlike `add`, the installation of a whole. A whole that is installed late
is released when another takes its place; the last one stays, for a later cleanup does nothing
(`run_of_cleanedUp`). -/
namespace HostInventory.Enumeration

variable {Env Cache Data : Type}

/-- The instance that an operation installs for the whole. -/
def Operation.whole? : Operation Env Data → Option (Instance Data)
  | .setTotal i => some i
  | _ => none

/-- The operations that a cleaned up enumeration admits. -/
def Operation.IsLate : Operation Env Data → Prop
  | .setTotal i => i.subject = .whole
  | .remove _ | .cleanup => True
  | _ => False

/-- The instances that a run installs for the whole, in order. -/
def wholes (steps : List (Step Env Cache Data)) : List (Instance Data) :=
  steps.filterMap fun step => step.operation.whole?

/-- What is left once everything was cleaned up, but for a whole. -/
structure Spent (e : Enumeration Cache Data) : Prop where
  phase : e.phase = .cleanedUp
  held : e.held = []

/-! ### One operation -/

namespace Spent

variable {e e' : Enumeration Cache Data} {step : Step Env Cache Data}

/-- A cleaned up enumeration refuses everything else. -/
theorem isLate_of_apply (h : Spent e) {x : List Handle × Enumeration Cache Data}
    (hv : (e.apply step).value = .ok x) : step.operation.IsLate := by
  obtain ⟨k, operation⟩ := step
  have hdone := apply_cases hv
  have hnot : e.phase ≠ .initialized := by
    rw [h.phase]
    nofun
  cases operation
  case init =>
    have hp := (init_cases hdone.1).1
    rw [h.phase] at hp
    cases hp
  case setTotal i => exact (setTotal_cases hdone.1).1
  case add i =>
    obtain ⟨isNew, hm, -⟩ := hdone
    simp [add, h.phase] at hm
  case remove id => trivial
  case updateEnumeration env =>
    obtain ⟨r, hm, -⟩ := hdone
    exact absurd (updateEnumeration_cases hm).1 hnot
  case updateInstances env =>
    obtain ⟨count, hm, -⟩ := hdone
    exact absurd (updateInstances_cases hm).1 hnot
  case update env refresh =>
    obtain ⟨r, hm, -⟩ := hdone
    obtain ⟨found, m, hm', -⟩ := update_cases hm
    exact absurd (updateEnumeration_cases hm').1 hnot
  case cleanup => trivial

/-- What it admits installs a whole, and releases the one before, or does nothing. -/
theorem apply_of_isLate (h : Spent e) (hl : step.operation.IsLate) :
    (∃ i, step.operation.whole? = some i ∧
        (e.apply step).value = .ok ([i.handle], { e with total := some i }) ∧
        (e.apply step).calls = e.total.toList.map fun i => Call.cleanup i.handle) ∨
      (step.operation.whole? = none ∧ e.apply step = pure ([], e)) := by
  obtain ⟨k, operation⟩ := step
  cases operation
  case setTotal i =>
    have hi : i.subject = .whole := hl
    have hv : (e.setTotal k i).value = .ok { e with total := some i } := by
      rw [setTotal, if_neg (not_not.2 hi)]
      cases e.total <;> rfl
    refine .inl ⟨i, rfl, ?_, ?_⟩
    · rw [apply, Outcome.value_bind_of_ok hv]
      rfl
    · rw [apply_calls]
      exact (setTotal_cases hv).2.2
  case remove id =>
    have hr : e.remove id = pure (false, e) := remove_of_not_mem (by simp [ids, h.held])
    refine .inr ⟨rfl, ?_⟩
    simp only [apply, hr, pure_bind]
  case cleanup =>
    refine .inr ⟨rfl, ?_⟩
    simp only [apply, cleanup_of_cleanedUp k h.phase, pure_bind]
  all_goals exact hl.elim

/-- An operation that ends well leaves it cleaned up. -/
theorem apply (h : Spent e) {taken : List Handle} (hv : (e.apply step).value = .ok (taken, e')) :
    Spent e' := by
  obtain ⟨i, -, hm, -⟩ | ⟨-, hm⟩ := h.apply_of_isLate (h.isLate_of_apply hv)
  · rw [hm] at hv
    cases hv
    exact ⟨h.phase, h.held⟩
  · rw [hm] at hv
    cases hv
    exact h

end Spent

/-- A cleanup, and nothing else, leads to a cleaned up enumeration. -/
theorem spent_of_apply {e e' : Enumeration Cache Data} (h : e.WellFormed)
    (he : e.phase = .cleanedUp → Spent e) {step : Step Env Cache Data} {taken : List Handle}
    (hv : (e.apply step).value = .ok (taken, e')) (hp' : e'.phase = .cleanedUp) : Spent e' := by
  by_cases hp : e.phase = .cleanedUp
  · exact (he hp).apply hv
  · obtain ⟨k, operation⟩ := step
    by_cases hop : operation = .cleanup
    · subst hop
      have hm := (apply_cases hv).1
      rw [(cleanup_eq hp).1] at hm
      cases hm
      exact ⟨rfl, rfl⟩
    · exact absurd hp' ((apply_keeps h hop hv).1 hp)

/-! ### Runs -/

theorem spent_of_run {e e' : Enumeration Cache Data} (h : e.WellFormed)
    (he : e.phase = .cleanedUp → Spent e) {steps : List (Step Env Cache Data)}
    {history : List Event} (hv : (e.run steps).value = .ok (history, e'))
    (hp : e'.phase = .cleanedUp) : Spent e' := by
  induction steps generalizing e history with
  | nil =>
    obtain ⟨rfl, rfl⟩ := Prod.mk.inj (Except.ok.inj hv)
    exact he hp
  | cons step rest ih =>
    obtain ⟨taken, m, history', hm, hr, -⟩ := run_cons_cases hv
    exact ih (transition_of_apply h hm).wellFormed (spent_of_apply h he hm) hr

namespace Spent

variable {e : Enumeration Cache Data} {later : List (Step Env Cache Data)}

/-- It stays cleaned up. -/
theorem run {e' : Enumeration Cache Data} (h : Spent e) {history : List Event}
    (hv : (e.run later).value = .ok (history, e')) : Spent e' := by
  induction later generalizing e history with
  | nil =>
    obtain ⟨rfl, rfl⟩ := Prod.mk.inj (Except.ok.inj hv)
    exact h
  | cons step rest ih =>
    obtain ⟨taken, m, history', hm, hr, -⟩ := run_cons_cases hv
    exact ih (h.apply hm) hr

theorem isLate_of_run (h : Spent e) {x : List Event × Enumeration Cache Data}
    (hv : (e.run later).value = .ok x) : ∀ step ∈ later, step.operation.IsLate := by
  induction later generalizing e x with
  | nil => nofun
  | cons step rest ih =>
    obtain ⟨taken, m, history', hm, hr, -⟩ := run_cons_cases hv
    exact List.forall_mem_cons.2 ⟨h.isLate_of_apply hm, ih (h.apply hm) hr⟩

/-- Of the wholes in a row, each is released for the next one, and the last one stays. -/
theorem run_of_isLate (h : Spent e) (hl : ∀ step ∈ later, step.operation.IsLate) :
    (∃ history, (e.run later).value =
        .ok (history, { e with total := (e.total.toList ++ wholes later).getLast? })) ∧
      (e.run later).calls =
        (e.total.toList ++ wholes later).dropLast.map fun i => Call.cleanup i.handle := by
  induction later generalizing e with
  | nil =>
    obtain ⟨phase, total, held, cache⟩ := e
    cases total <;> exact ⟨⟨[], rfl⟩, rfl⟩
  | cons step rest ih =>
    obtain ⟨hstep, hrest⟩ := List.forall_mem_cons.1 hl
    obtain ⟨i, hi, hm, hc⟩ | ⟨hi, hm⟩ := h.apply_of_isLate hstep
    · obtain ⟨⟨history, hr⟩, hc'⟩ := ih (e := { e with total := some i }) ⟨h.phase, h.held⟩ hrest
      obtain ⟨hv, hcalls⟩ := run_cons_of_ok hm hr
      have hw : wholes (step :: rest) = i :: wholes rest := List.filterMap_cons_some hi
      refine ⟨⟨events (e.apply step).releases [i.handle] ++ history, ?_⟩, ?_⟩
      · rw [hv, hw, List.getLast?_append_of_ne_nil _ (List.cons_ne_nil _ _)]
        rfl
      · rw [hcalls, hc, hc', hw, List.dropLast_append_of_ne_nil (List.cons_ne_nil _ _),
          List.map_append]
        rfl
    · obtain ⟨⟨history, hr⟩, hc'⟩ := ih h hrest
      have hv := run_cons_of_ok (congrArg Outcome.value hm) hr
      have hw : wholes (step :: rest) = wholes rest := List.filterMap_cons_none hi
      rw [hw]
      refine ⟨⟨_, hv.1⟩, hv.2.trans ?_⟩
      rw [hm, hc']
      rfl

end Spent

/-- **A cleaned up enumeration stays so, but for the whole.** It goes on exactly by cleanups, by
taking out identities and by installing wholes. Of the wholes installed after the cleanup each is
released when the next one comes; the last one is held, and no number of cleanups releases it. -/
theorem run_of_cleanedUp {cache : Cache} {steps : List (Step Env Cache Data)}
    {history : List Event} {e : Enumeration Cache Data}
    (hv : (run { cache } steps).value = .ok (history, e)) (hp : e.phase = .cleanedUp)
    (later : List (Step Env Cache Data)) :
    ((∃ x, (e.run later).value = .ok x) ↔ ∀ step ∈ later, step.operation.IsLate) ∧
      ∀ history' e', (e.run later).value = .ok (history', e') →
        e'.phase = .cleanedUp ∧ e'.ids = [] ∧
        e'.total = (e.total.toList ++ wholes later).getLast? ∧
        (e.run later).calls =
          (e.total.toList ++ wholes later).dropLast.map (fun i => .cleanup i.handle) ∧
        ∀ (k : Kind Env Cache Data) (n : Nat),
          e'.run (List.replicate n ⟨k, .cleanup⟩) = pure ([], e') := by
  have hspent : Spent e := spent_of_run (.empty cache) nofun hv hp
  refine ⟨⟨fun ⟨x, hx⟩ => hspent.isLate_of_run hx, fun hl => ?_⟩, ?_⟩
  · obtain ⟨history', hr⟩ := (hspent.run_of_isLate hl).1
    exact ⟨_, hr⟩
  · intro history' e' hr
    obtain ⟨⟨history'', hr'⟩, hc⟩ := hspent.run_of_isLate (hspent.isLate_of_run hr)
    rw [hr] at hr'
    obtain ⟨-, rfl⟩ := Prod.mk.inj (Except.ok.inj hr')
    have hspent' : Spent { e with total := (e.total.toList ++ wholes later).getLast? } :=
      ⟨hspent.phase, hspent.held⟩
    refine ⟨hspent'.phase, ?_, rfl, hc, fun k n => run_cleanups_of_cleanedUp k hspent'.phase n⟩
    rw [ids, hspent'.held, List.map_nil]

/-- Two wholes are installed after the cleanup, and the first is released for the second. -/
theorem run_of_cleanedUp_replaced :
    let k := Probe.kind .remove true
    let steps : List (Step Probe.Script Unit Probe.Data) :=
      [⟨k, .init⟩, ⟨k, .update { live := [⟨"a"⟩] } true⟩, ⟨k, .cleanup⟩]
    let later : List (Step Probe.Script Unit Probe.Data) :=
      [⟨k, .setTotal (Instance.ofWhole { tag := 1 })⟩, ⟨k, .remove ⟨"a"⟩⟩,
        ⟨k, .setTotal (Instance.ofWhole { tag := 2 })⟩, ⟨k, .cleanup⟩]
    ∃ history e history' e', (run { cache := () } steps).value = .ok (history, e) ∧
      e.phase = .cleanedUp ∧ e.total = none ∧ (e.run later).value = .ok (history', e') ∧
      e'.phase = .cleanedUp ∧ e'.ids = [] ∧ e'.total = some (Instance.ofWhole { tag := 2 }) ∧
      (e.run later).calls = [.cleanup ⟨.whole, 0⟩] := by
  intro k steps later
  have hread : (run { cache := () } steps).value.toOption.map (fun x => (x.2.phase, x.2.total)) =
      some (.cleanedUp, none) := by decide +kernel
  have hlate : ∀ step ∈ later, step.operation.IsLate := by
    simp [later, Operation.IsLate, Instance.ofWhole]
  cases hv : (run { cache := () } steps).value with
  | error fault =>
    rw [hv] at hread
    cases hread
  | ok x =>
    rw [hv] at hread
    obtain ⟨hp, htotal⟩ := Prod.mk.inj (Option.some.inj hread)
    obtain ⟨hreturns, hafter⟩ := run_of_cleanedUp hv hp later
    obtain ⟨⟨history', e'⟩, hr⟩ := hreturns.2 hlate
    obtain ⟨hp', hids, ht, hc, -⟩ := hafter history' e' hr
    rw [htotal] at ht hc
    exact ⟨x.1, x.2, history', e', rfl, hp, htotal, hr, hp', hids, ht, hc⟩

/-- A whole is accepted after the cleanup and is still held at the end of the enumeration's
life, when the cleanup has been called twice more. -/
theorem accepted_after_cleanup_not_released :
    let k := Probe.kind .remove false
    let i := Instance.ofWhole { tag := 1 }
    ∃ e, (run { cache := () } (life [⟨k, .init⟩, ⟨k, .cleanup⟩, ⟨k, .setTotal i⟩] k 1)).value =
        .ok ([.accepted i.handle], e) ∧
      e.phase = .cleanedUp ∧ e.total = some i ∧
      (run { cache := () } (life [⟨k, .init⟩, ⟨k, .cleanup⟩, ⟨k, .setTotal i⟩] k 1)).calls =
        [.release] :=
  ⟨_, rfl, rfl, rfl, rfl⟩

end HostInventory.Enumeration
