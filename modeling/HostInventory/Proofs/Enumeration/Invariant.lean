import HostInventory.Proofs.Enumeration.Run

/-! What holds of every instance.

A kind keeps a property of instances when it gives it to those that it builds and no look at
one, and no word on its presence, takes it away (`Kind.Keeps`). If callers bring only instances
with the property, then every instance has it after any run (`All.run`). An instance is looked
at by refreshes only, so an operation that has looked at one leaves a refreshed enumeration
(`refreshed_of_update_call`). -/
namespace HostInventory.Enumeration

variable {Env Cache Data : Type}

/-- The instance that a caller brings with an operation. -/
def Operation.brought? : Operation Env Data → Option (Instance Data)
  | .setTotal i | .add i => some i
  | _ => none

/-- The property holds of what the kind builds and is kept by what it does. -/
structure Kind.Keeps (k : Kind Env Cache Data) (P : Instance Data → Prop) : Prop where
  whole : ∀ i, k.whole = some i → P i
  built : ∀ env cache id i, k.instantiate env cache id = .ok i → P i
  told : ∀ present i, P i → P { i with data := (k.setPresent present i.data).value }
  lookedAt : ∀ env cache i, P i → P (k.lookedAt env cache i).2

section Operations
variable {P : Instance Data → Prop} {e e' : Enumeration Cache Data} {k : Kind Env Cache Data}

theorem All.empty (phase : Phase) (cache : Cache) :
    All P ({ phase, cache } : Enumeration Cache Data) :=
  nofun

theorem All.setTotal (h : e.All P) {i : Instance Data} (hi : P i)
    (hv : (e.setTotal k i).value = .ok e') : e'.All P := by
  obtain ⟨-, rfl, -⟩ := setTotal_cases hv
  obtain ⟨-, hheld⟩ := all_iff.1 h
  exact all_iff.2 ⟨fun j hj => Option.some.inj hj ▸ hi, hheld⟩

theorem All.kept_reconciled (h : e.All P) (hk : k.Keeps P) {env : Env} {cache : Cache}
    {listing : List Identity} : (e.reconciled k env cache listing).All P :=
  h.reconciled hk.told fun id _ i hi => hk.built env cache id i hi

/-- One operation keeps what the kind keeps. -/
theorem All.apply (h : e.All P) {step : Step Env Cache Data} (hk : step.kind.Keeps P)
    (hbrought : ∀ i, step.operation.brought? = some i → P i) {taken : List Handle}
    (hv : (e.apply step).value = .ok (taken, e')) : e'.All P := by
  obtain ⟨htotal, hheld⟩ := all_iff.1 h
  obtain ⟨k, operation⟩ := step
  have hdone := apply_cases hv
  cases operation
  case init =>
    obtain ⟨-, ⟨-, rfl, -⟩ | ⟨i, m, hw, hm, rfl, -⟩⟩ := init_cases hdone.1
    · exact h
    · have hset : m.All P := h.setTotal (hk.whole i hw) hm
      exact hset
  case setTotal i => exact h.setTotal (hbrought i rfl) hdone.1
  case add i =>
    obtain ⟨isNew, hm, -⟩ := hdone
    obtain ⟨id, -, ⟨-, -, rfl⟩ | ⟨-, -, rfl⟩⟩ := add_cases hm
    · exact h
    · refine all_iff.2 ⟨htotal, fun entry hentry => ?_⟩
      rcases List.mem_append.1 hentry with hentry | hentry
      · exact hheld entry hentry
      · rw [List.mem_singleton.1 hentry]
        exact hbrought i rfl
  case remove id =>
    obtain ⟨found, hm, -⟩ := hdone
    rw [remove_value] at hm
    obtain ⟨-, rfl⟩ := Prod.mk.inj (Except.ok.inj hm)
    exact all_iff.2 ⟨htotal, fun entry hentry => hheld entry (List.mem_filter.1 hentry).1⟩
  case updateEnumeration env =>
    obtain ⟨r, hm, -⟩ := hdone
    obtain ⟨-, ⟨f, cache, -, -, rfl⟩ | ⟨listing, cache, -, -, -, rfl⟩⟩ :=
      updateEnumeration_cases hm
    · exact h
    · exact h.kept_reconciled hk
  case updateInstances env =>
    obtain ⟨count, hm, -⟩ := hdone
    obtain ⟨-, -, -, rfl⟩ := updateInstances_cases hm
    exact h.refreshed (hk.lookedAt env e.cache)
  case update env refresh =>
    obtain ⟨r, hm, -⟩ := hdone
    exact h.update hm hk.told (hk.built env) (hk.lookedAt env)
  case cleanup =>
    obtain ⟨hm, -⟩ := hdone
    by_cases hp : e.phase = .cleanedUp
    · rw [cleanup_of_cleanedUp k hp] at hm
      cases hm
      exact h
    · rw [(cleanup_eq hp).1] at hm
      cases hm
      exact All.empty _ (k.release e.cache)

end Operations

/-- **Whatever a kind keeps holds of every instance after any run.** -/
theorem All.run {P : Instance Data → Prop} {e e' : Enumeration Cache Data} (h : e.All P)
    {steps : List (Step Env Cache Data)} (hk : ∀ step ∈ steps, step.kind.Keeps P)
    (hbrought : ∀ step ∈ steps, ∀ i, step.operation.brought? = some i → P i)
    {history : List Event} (hv : (e.run steps).value = .ok (history, e')) : e'.All P := by
  induction steps generalizing e history with
  | nil =>
    obtain ⟨rfl, rfl⟩ := Prod.mk.inj (Except.ok.inj hv)
    exact h
  | cons step rest ih =>
    obtain ⟨hstep, hrest⟩ := List.forall_mem_cons.1 hk
    obtain ⟨hi, hbrought⟩ := List.forall_mem_cons.1 hbrought
    obtain ⟨taken, m, history', hm, hr, -⟩ := run_cons_cases hv
    exact ih (h.apply hstep hi hm) hrest hbrought hr

/-! ### What was looked at -/

/-- Matching what is held to what is there looks at no instance. -/
theorem update_not_mem_updateEnumeration_calls {e e' : Enumeration Cache Data}
    {k : Kind Env Cache Data} {env : Env} (h : e.WellFormed) {r : Except Failure Reconciliation}
    (hv : (e.updateEnumeration k env).value = .ok (r, e')) (s : Subject) :
    Call.update s ∉ (e.updateEnumeration k env).calls := by
  obtain ⟨hp, ⟨f, cache, hd, -, -⟩ | ⟨listing, cache, hd, hn, -, -⟩⟩ :=
    updateEnumeration_cases hv
  · simp [(updateEnumeration_of_error hp hd).2]
  · have hpolicy : Call.update s ∉ e.policyCalls k listing := by
      intro hs
      obtain ⟨_, hs⟩ | ⟨_, hs | hs⟩ := mem_policyCalls hs <;> cases hs
    simp [updateEnumeration_calls hp hd hn h, hpolicy]

/-- An operation that looks at an instance is a refresh, or ends with one. -/
theorem refreshed_of_update_call {e e' : Enumeration Cache Data} (h : e.WellFormed)
    {step : Step Env Cache Data} {taken : List Handle}
    (hv : (e.apply step).value = .ok (taken, e')) {s : Subject}
    (hs : Call.update s ∈ (e.apply step).calls) :
    ∃ m env, e' = refreshed m step.kind env := by
  obtain ⟨k, operation⟩ := step
  have hdone := apply_cases hv
  rw [apply_calls] at hs
  cases operation
  case init =>
    obtain ⟨-, ⟨-, -, hc⟩ | ⟨i, m, -, hm, -, hc⟩⟩ := init_cases hdone.1
    · simp [hc] at hs
    · simp [hc, (setTotal_cases hm).2.2] at hs
  case setTotal i => simp [(setTotal_cases hdone.1).2.2] at hs
  case add i => cases hs
  case remove id => simp [remove_calls] at hs
  case updateEnumeration env =>
    obtain ⟨r, hm, -⟩ := hdone
    exact absurd hs (update_not_mem_updateEnumeration_calls h hm s)
  case updateInstances env =>
    obtain ⟨count, hm, -⟩ := hdone
    obtain ⟨-, -, -, rfl⟩ := updateInstances_cases hm
    exact ⟨e, env, rfl⟩
  case update env refresh =>
    obtain ⟨r, hm, -⟩ := hdone
    obtain ⟨found, m, hm', -, ⟨-, -, hc⟩ | ⟨-, -, count, hi, -⟩⟩ := update_cases hm
    · simp only [hc] at hs
      exact absurd hs (update_not_mem_updateEnumeration_calls h hm' s)
    · obtain ⟨-, -, -, rfl⟩ := updateInstances_cases hi
      exact ⟨m, env, rfl⟩
  case cleanup =>
    by_cases hp : e.phase = .cleanedUp
    · simp [cleanup_of_cleanedUp k hp] at hs
    · simp [(cleanup_eq hp).2] at hs

end HostInventory.Enumeration
