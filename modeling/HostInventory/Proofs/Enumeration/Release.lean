import HostInventory.Proofs.Enumeration.Run

/-! Every instance is released once.

The history of a run balances with what is held: an instance that was accepted is released before
another one with its subject is accepted, or it is held (`Balanced`). Nothing is lost either: what
was accepted is what was released and what is held (`conserved_of_run`). One operation keeps the
balance, so a run does, and a cleanup leaves nothing over. The kind is released by the cleanup
that ends the enumeration's use and by nothing else, so its release is the last call of all
(`released_exactly_once`). -/
namespace HostInventory.Enumeration

variable {Env Cache Data : Type}

/-- Instances that were accepted one after another, each released before the next. -/
def lives (closed : List Handle) : List Event :=
  closed.flatMap fun a => [.accepted a, .released a]

/-- Of some instances, those with a subject. -/
def about (s : Subject) (handles : List Handle) : List Handle :=
  handles.filter fun a => a.subject = s

/-- For each subject, what was accepted and not released is what is held. -/
def Balanced (e : Enumeration Cache Data) (history : List Event) : Prop :=
  ∀ s, ∃ closed, history.filter (fun event => event.subject = s) =
    lives closed ++ (about s e.handles).map .accepted

theorem lives_concat (closed : List Handle) (a : Handle) :
    lives (closed ++ [a]) = lives closed ++ [.accepted a, .released a] := by
  rw [lives, List.flatMap_append, List.flatMap_singleton]
  rfl

/-! ### One operation -/

/-- At most one instance with a subject is held. -/
theorem WellFormed.length_about {e : Enumeration Cache Data} (h : e.WellFormed) (s : Subject) :
    (about s e.handles).length ≤ 1 := by
  have hnodup := h.nodup_subjects
  rw [subjects_eq_map_handles] at hnodup
  have hcount := List.nodup_iff_count_le_one.1 hnodup s
  rw [List.count_eq_countP, List.countP_map, List.countP_eq_length_filter] at hcount
  simpa only [about, Function.comp_def, beq_eq_decide] using hcount

theorem filter_events (released taken : List Handle) (s : Subject) :
    (events released taken).filter (fun event => event.subject = s) =
      events (about s released) (about s taken) := by
  rw [events, List.filter_append, List.filter_map, List.filter_map]
  rfl

/-- One thing at most can be arranged in one way only. -/
theorem eq_of_perm_of_length_le_one {l l' : List Handle} (h : l.Perm l') (hl : l'.length ≤ 1) :
    l = l' := by
  match l', hl with
  | [], _ => exact List.perm_nil.1 h
  | [a], _ => exact List.perm_singleton.1 h

/-- Of a subject an operation either lets nothing go, and holds what was there and what is new, or
it lets go of what was there, and holds what is new. -/
theorem Transition.of_subject {e m : Enumeration Cache Data} (h : e.WellFormed)
    {released taken : List Handle} (ht : Transition e m released taken) (s : Subject) :
    (about s released = [] ∧ about s m.handles = about s e.handles ++ about s taken) ∨
      ∃ a, about s released = [a] ∧ about s e.handles = [a] ∧
        about s m.handles = about s taken := by
  have hconserved :
      (about s e.handles ++ about s taken).Perm (about s released ++ about s m.handles) := by
    simpa only [about, List.filter_append] using ht.conserved.filter fun a => decide (a.subject = s)
  have hheld : (about s released).Subperm (about s e.handles) := ht.was_held.filter _
  have hafter := ht.wellFormed.length_about s
  cases hr : about s released with
  | nil =>
    rw [hr, List.nil_append] at hconserved
    exact .inl ⟨rfl, (eq_of_perm_of_length_le_one hconserved hafter).symm⟩
  | cons a others =>
    have hbefore := h.length_about s
    rw [hr] at hheld hconserved
    have hsame : a :: others = about s e.handles := by
      refine eq_of_perm_of_length_le_one (hheld.perm_of_length_le ?_) hbefore
      exact Nat.le_trans hbefore (Nat.succ_le_succ others.length.zero_le)
    obtain rfl : others = [] := by
      rw [← hsame] at hbefore
      exact List.length_eq_zero_iff.1 (Nat.le_zero.1 (Nat.le_of_succ_le_succ hbefore))
    rw [← hsame] at hconserved
    have hnew := (List.perm_cons a).1 hconserved
    exact .inr ⟨a, rfl, hsame.symm, (eq_of_perm_of_length_le_one hnew hafter).symm⟩

/-- An operation keeps the balance. -/
theorem Balanced.step {e m : Enumeration Cache Data} {history : List Event}
    (hb : Balanced e history) (h : e.WellFormed) {released taken : List Handle}
    (ht : Transition e m released taken) : Balanced m (history ++ events released taken) := by
  intro s
  obtain ⟨closed, hclosed⟩ := hb s
  rw [List.filter_append, hclosed, filter_events]
  obtain ⟨hr, hm⟩ | ⟨a, hr, he, hm⟩ := ht.of_subject h s
  · refine ⟨closed, ?_⟩
    rw [hr, hm, List.map_append, List.append_assoc]
    rfl
  · -- The instance that was held is released, so one more life is complete.
    refine ⟨closed ++ [a], ?_⟩
    rw [hr, he, hm, lives_concat, List.append_assoc, List.append_assoc]
    rfl

/-! ### Runs -/

theorem Balanced.run {e e' : Enumeration Cache Data} {before : List Event}
    (hb : Balanced e before) (h : e.WellFormed) {steps : List (Step Env Cache Data)}
    {history : List Event} (hv : (e.run steps).value = .ok (history, e')) :
    Balanced e' (before ++ history) := by
  induction steps generalizing e before history with
  | nil =>
    obtain ⟨rfl, rfl⟩ := Prod.mk.inj (Except.ok.inj hv)
    rwa [List.append_nil]
  | cons step rest ih =>
    obtain ⟨taken, m, history', hm, hr, rfl⟩ := run_cons_cases hv
    have ht := transition_of_apply h hm
    rw [← List.append_assoc]
    exact ih (hb.step h ht) ht.wellFormed hr

theorem released_events (released taken : List Handle) :
    (events released taken).filterMap Event.released? = released := by
  have hnone : (taken.map Event.accepted).filterMap Event.released? = [] := by
    simp [Event.released?]
  rw [events, List.filterMap_append, hnone, List.append_nil, List.filterMap_map]
  exact List.filterMap_some

theorem accepted_events (released taken : List Handle) :
    (events released taken).filterMap Event.accepted? = taken := by
  have hnone : (released.map Event.released).filterMap Event.accepted? = [] := by
    simp [Event.accepted?]
  rw [events, List.filterMap_append, hnone, List.nil_append, List.filterMap_map]
  exact List.filterMap_some

/-- What was held and what was accepted is what was released and what is held. -/
theorem conserved_of_run {e e' : Enumeration Cache Data} (h : e.WellFormed)
    {steps : List (Step Env Cache Data)} {history : List Event}
    (hv : (e.run steps).value = .ok (history, e')) :
    (e.handles ++ history.filterMap Event.accepted?).Perm
      (history.filterMap Event.released? ++ e'.handles) := by
  induction steps generalizing e history with
  | nil =>
    obtain ⟨rfl, rfl⟩ := Prod.mk.inj (Except.ok.inj hv)
    rw [List.filterMap_nil, List.filterMap_nil, List.append_nil, List.nil_append]
  | cons step rest ih =>
    obtain ⟨taken, m, history', hm, hr, rfl⟩ := run_cons_cases hv
    have ht := transition_of_apply h hm
    rw [List.filterMap_append, List.filterMap_append, accepted_events, released_events,
      ← List.append_assoc e.handles, List.append_assoc (e.apply step).releases]
    calc e.handles ++ taken ++ history'.filterMap Event.accepted?
      _ |>.Perm ((e.apply step).releases ++ m.handles ++ history'.filterMap Event.accepted?) :=
        ht.conserved.append_right _
      _ = (e.apply step).releases ++ (m.handles ++ history'.filterMap Event.accepted?) :=
        List.append_assoc ..
      _ |>.Perm ((e.apply step).releases ++
          (history'.filterMap Event.released? ++ e'.handles)) :=
        (ih ht.wellFormed hr).append_left _

/-- The releases in a history are the cleanups that were called. -/
theorem released_of_run {e e' : Enumeration Cache Data} {steps : List (Step Env Cache Data)}
    {history : List Event} (hv : (e.run steps).value = .ok (history, e')) :
    history.filterMap Event.released? = (e.run steps).releases := by
  induction steps generalizing e history with
  | nil =>
    obtain ⟨rfl, rfl⟩ := Prod.mk.inj (Except.ok.inj hv)
    rfl
  | cons step rest ih =>
    obtain ⟨taken, m, history', hm, hr, rfl⟩ := run_cons_cases hv
    simp only [Outcome.releases, (run_cons_of_ok hm hr).2, List.filterMap_append] at ih ⊢
    rw [← ih hr]
    exact congrArg (· ++ _) (released_events _ taken)

/-! ### The kind -/

/-- A call in which a policy deals with a held instance does not release the kind. -/
theorem release_not_mem_policyCalls (e : Enumeration Cache Data) (k : Kind Env Cache Data)
    (listing : List Identity) : Call.release ∉ e.policyCalls k listing := by
  intro h
  obtain ⟨_, h⟩ | ⟨_, h | h⟩ := mem_policyCalls h <;> cases h

section Operations
variable {e e' : Enumeration Cache Data} {k : Kind Env Cache Data}

theorem updateEnumeration_keeps (h : e.WellFormed) {env : Env} {r : Except Failure Reconciliation}
    (hv : (e.updateEnumeration k env).value = .ok (r, e')) :
    e'.phase = e.phase ∧ Call.release ∉ (e.updateEnumeration k env).calls := by
  obtain ⟨hp, ⟨f, cache, hd, rfl, rfl⟩ | ⟨listing, cache, hd, hn, rfl, rfl⟩⟩ :=
    updateEnumeration_cases hv
  · rw [(updateEnumeration_of_error hp hd).2]
    exact ⟨rfl, by simp⟩
  · rw [updateEnumeration_calls hp hd hn h]
    refine ⟨rfl, ?_⟩
    simp [release_not_mem_policyCalls]

theorem updateInstances_keeps {env : Env} {count : RefreshCount}
    (hv : (e.updateInstances k env).value = .ok (count, e')) :
    e'.phase = e.phase ∧ Call.release ∉ (e.updateInstances k env).calls := by
  obtain ⟨hp, hf, -, rfl⟩ := updateInstances_cases hv
  rw [(updateInstances_eq hp hf).2]
  exact ⟨rfl, by simp⟩

end Operations

/-- Only a cleanup releases the kind and ends the use of an enumeration. -/
theorem apply_keeps {e e' : Enumeration Cache Data} (h : e.WellFormed)
    {step : Step Env Cache Data} (hop : step.operation ≠ .cleanup) {taken : List Handle}
    (hv : (e.apply step).value = .ok (taken, e')) :
    (e.phase ≠ .cleanedUp → e'.phase ≠ .cleanedUp) ∧ Call.release ∉ (e.apply step).calls := by
  obtain ⟨k, operation⟩ := step
  have hdone := apply_cases hv
  rw [apply_calls]
  cases operation
  case init =>
    obtain ⟨hm, -⟩ := hdone
    obtain ⟨-, ⟨-, rfl, hc⟩ | ⟨i, m, -, hm', rfl, hc⟩⟩ := init_cases hm
    · simp only [hc]
      exact ⟨fun _ => nofun, List.not_mem_nil⟩
    · simp only [hc, (setTotal_cases hm').2.2]
      exact ⟨fun _ => nofun, by simp⟩
  case setTotal i =>
    obtain ⟨-, rfl, hc⟩ := setTotal_cases hdone.1
    simp only [hc]
    exact ⟨id, by simp⟩
  case add i =>
    obtain ⟨isNew, hm, -⟩ := hdone
    obtain ⟨_, -, ⟨-, -, rfl⟩ | ⟨-, -, rfl⟩⟩ := add_cases hm
    · exact ⟨id, List.not_mem_nil⟩
    · exact ⟨id, List.not_mem_nil⟩
  case remove id =>
    obtain ⟨found, hm, -⟩ := hdone
    rw [remove_value] at hm
    obtain ⟨-, rfl⟩ := Prod.mk.inj (Except.ok.inj hm)
    simp only [remove_calls]
    exact ⟨fun hp => hp, by simp⟩
  case updateEnumeration env =>
    obtain ⟨r, hm, -⟩ := hdone
    obtain ⟨hp, hc⟩ := updateEnumeration_keeps h hm
    exact ⟨fun hne => hp ▸ hne, hc⟩
  case updateInstances env =>
    obtain ⟨count, hm, -⟩ := hdone
    obtain ⟨hp, hc⟩ := updateInstances_keeps hm
    exact ⟨fun hne => hp ▸ hne, hc⟩
  case update env refresh =>
    obtain ⟨r, hm, -⟩ := hdone
    obtain ⟨found, m, hm', -, ⟨-, rfl, hc⟩ | ⟨-, -, count, hi, hc⟩⟩ := update_cases hm
    · obtain ⟨hp, hc'⟩ := updateEnumeration_keeps h hm'
      simp only [hc]
      exact ⟨fun hne => hp ▸ hne, hc'⟩
    · obtain ⟨hp, hc'⟩ := updateEnumeration_keeps h hm'
      obtain ⟨hp', hc''⟩ := updateInstances_keeps hi
      simp only [hc, List.mem_append]
      exact ⟨fun hne => hp' ▸ hp ▸ hne, fun hin => hin.elim hc' hc''⟩
  case cleanup => exact absurd rfl hop

theorem run_keeps {e e' : Enumeration Cache Data} (h : e.WellFormed)
    {steps : List (Step Env Cache Data)} (hops : ∀ step ∈ steps, step.operation ≠ .cleanup)
    {history : List Event} (hv : (e.run steps).value = .ok (history, e'))
    (hp : e.phase ≠ .cleanedUp) :
    e'.phase ≠ .cleanedUp ∧ Call.release ∉ (e.run steps).calls := by
  induction steps generalizing e history with
  | nil =>
    obtain ⟨rfl, rfl⟩ := Prod.mk.inj (Except.ok.inj hv)
    exact ⟨hp, List.not_mem_nil⟩
  | cons step rest ih =>
    obtain ⟨taken, m, history', hm, hr, rfl⟩ := run_cons_cases hv
    obtain ⟨hstep, hrest⟩ := List.forall_mem_cons.1 hops
    obtain ⟨hphase, hcalls⟩ := apply_keeps h hstep hm
    obtain ⟨hp', hcalls'⟩ := ih (transition_of_apply h hm).wellFormed hrest hr (hphase hp)
    rw [(run_cons_of_ok hm hr).2, List.mem_append]
    exact ⟨hp', fun hin => hin.elim hcalls hcalls'⟩

/-! ### The end of a life -/

/-- Operations, `n` cleanups behind them, and the one at the end of the enumeration's life. -/
def life (steps : List (Step Env Cache Data)) (k : Kind Env Cache Data) (n : Nat) :
    List (Step Env Cache Data) :=
  steps ++ List.replicate (n + 1) ⟨k, .cleanup⟩

/-- Cleanups of a released enumeration do nothing. -/
theorem run_cleanups_of_cleanedUp {e : Enumeration Cache Data} (k : Kind Env Cache Data)
    (hp : e.phase = .cleanedUp) (n : Nat) :
    run e (List.replicate n ⟨k, .cleanup⟩) = pure ([], e) := by
  induction n with
  | zero => rfl
  | succ n ih =>
    have hone : e.apply ⟨k, .cleanup⟩ = pure ([], e) := by
      simp only [apply, cleanup_of_cleanedUp k hp, pure_bind]
    simp only [List.replicate_succ, run, hone, pure_bind, ih]
    rfl

/-- The first cleanup releases everything that is held, and then the kind. -/
theorem run_cleanups {e : Enumeration Cache Data} (k : Kind Env Cache Data)
    (hp : e.phase ≠ .cleanedUp) (n : Nat) :
    (run e (List.replicate (n + 1) ⟨k, .cleanup⟩)).value =
        .ok (e.handles.map .released, { phase := .cleanedUp, cache := k.release e.cache }) ∧
      (run e (List.replicate (n + 1) ⟨k, .cleanup⟩)).calls =
        e.handles.map .cleanup ++ [.release] := by
  obtain ⟨hv, hc⟩ := cleanup_eq (k := k) hp
  have hone : (e.apply ⟨k, .cleanup⟩).value =
      .ok ([], { phase := .cleanedUp, cache := k.release e.cache }) := by
    simp only [apply, Outcome.value_bind_of_ok hv, Outcome.value_pure]
  have hcalls : (e.apply ⟨k, .cleanup⟩).calls = e.handles.map Call.cleanup ++ [.release] := by
    rw [apply_calls]
    exact hc
  have hreleases : (e.apply ⟨k, .cleanup⟩).releases = e.handles := by
    rw [Outcome.releases, apply_calls]
    exact releases_cleanup k hp
  have hrest := run_cleanups_of_cleanedUp (e := { phase := .cleanedUp, cache := k.release e.cache })
    k rfl n
  obtain ⟨hv', hc'⟩ := run_cons_of_ok hone (congrArg Outcome.value hrest)
  rw [List.replicate_succ, hv', hc', hreleases, hcalls, hrest]
  exact ⟨by simp [events], by simp⟩

/-- **Every instance is released exactly once**, by the end of the enumeration's life: for each
subject acceptance and release go by turns, the instance accepted being the one released. The
releases are the cleanups called, the kind is released in the last call of all, and an instance
refused as a duplicate leaves everything as it was. -/
theorem released_exactly_once {cache : Cache} {steps : List (Step Env Cache Data)}
    (hops : ∀ step ∈ steps, step.operation ≠ .cleanup) {accepted : List Event}
    {e : Enumeration Cache Data} (hv : (run { cache } steps).value = .ok (accepted, e))
    (k : Kind Env Cache Data) (n : Nat) :
    ∃ history e', (run { cache } (life steps k n)).value = .ok (history, e') ∧
      accepted <+: history ∧
      history.filterMap Event.released? = (run { cache } (life steps k n)).releases ∧
      (∀ s, ∃ closed : List Handle, history.filter (fun event => event.subject = s) =
        closed.flatMap fun a => [.accepted a, .released a]) ∧
      (history.filterMap Event.accepted?).Perm (history.filterMap Event.released?) ∧
      (∃ before, (run { cache } (life steps k n)).calls = before ++ [.release] ∧
        Call.release ∉ before) ∧
      ∀ (k : Kind Env Cache Data) (i : Instance Data) (m m' : Enumeration Cache Data),
        m.add k i = .ok (false, m') → m' = m ∧ (m.apply ⟨k, .add i⟩).calls = [] := by
  have hempty : WellFormed ({ cache } : Enumeration Cache Data) := .empty cache
  have hphase : ({ cache } : Enumeration Cache Data).phase ≠ .cleanedUp := nofun
  have hstart : Balanced ({ cache } : Enumeration Cache Data) [] := fun s => ⟨[], rfl⟩
  obtain ⟨hp, hcalls⟩ := run_keeps hempty hops hv hphase
  obtain ⟨hend, hendCalls⟩ := run_cleanups k hp n
  obtain ⟨hlife, hlifeCalls⟩ := run_append hv hend
  have hnone : handles ({ phase := .cleanedUp, cache := k.release e.cache } :
      Enumeration Cache Data) = [] := rfl
  refine ⟨_, _, hlife, List.prefix_append _ _, released_of_run hlife, ?_, ?_, ?_, ?_⟩
  · intro s
    obtain ⟨closed, hclosed⟩ := hstart.run hempty hlife s
    refine ⟨closed, ?_⟩
    rw [hnone] at hclosed
    exact hclosed.trans (List.append_nil _)
  · have hconserved := conserved_of_run hempty hlife
    rw [hnone, List.append_nil] at hconserved
    exact hconserved
  · refine ⟨(run { cache } steps).calls ++ e.handles.map Call.cleanup, ?_, ?_⟩
    · rw [life, hlifeCalls, hendCalls, List.append_assoc]
    · rw [List.mem_append, not_or]
      exact ⟨hcalls, by simp⟩
  · intro k i m m' hadd
    obtain ⟨_, -, ⟨-, -, rfl⟩ | ⟨hnew, -, -⟩⟩ := add_cases hadd
    · exact ⟨rfl, apply_calls m' k (.add i)⟩
    · cases hnew

/-- The whole is replaced by another one; `a` vanishes, comes back as a new instance and is
taken out; `b` is there to the end. -/
theorem released_exactly_once_replaced :
    let k := Probe.kind .remove true
    let steps : List (Step Probe.Script Unit Probe.Data) := [⟨k, .init⟩,
      ⟨k, .add { Instance.fresh ⟨"a"⟩ {} with serial := 2 }⟩,
      ⟨k, .setTotal { Instance.ofWhole {} with serial := 1 }⟩,
      ⟨k, .update { live := [⟨"a"⟩, ⟨"b"⟩] } true⟩, ⟨k, .updateEnumeration { live := [⟨"b"⟩] }⟩,
      ⟨k, .update { live := [⟨"a"⟩, ⟨"b"⟩] } false⟩, ⟨k, .remove ⟨"a"⟩⟩]
    let whole : Handle := ⟨.whole, 0⟩
    let otherWhole : Handle := ⟨.whole, 1⟩
    let a : Handle := ⟨.named ⟨"a"⟩, 2⟩
    let otherA : Handle := ⟨.named ⟨"a"⟩, 0⟩
    let b : Handle := ⟨.named ⟨"b"⟩, 0⟩
    (∀ step ∈ steps, step.operation ≠ .cleanup) ∧
    ∃ history e, (run { cache := () } (life steps k 1)).value = .ok (history, e) ∧
      history = [.accepted whole, .accepted a, .released whole, .accepted otherWhole, .accepted b,
        .released a, .accepted otherA, .released otherA, .released otherWhole, .released b] ∧
      (∀ s, ∃ closed : List Handle, history.filter (fun event => event.subject = s) =
        closed.flatMap fun a => [.accepted a, .released a]) ∧
      (history.filterMap Event.accepted?).Perm (history.filterMap Event.released?) := by
  intro k steps whole otherWhole a otherA b
  have hops : ∀ step ∈ steps, step.operation ≠ .cleanup := by simp [steps]
  have hok : (run { cache := () } steps).value.toOption.isSome = true := by decide +kernel
  have hread : (run { cache := () } (life steps k 1)).value.toOption.map Prod.fst =
      some [.accepted whole, .accepted a, .released whole, .accepted otherWhole, .accepted b,
        .released a, .accepted otherA, .released otherA, .released otherWhole, .released b] := by
    decide +kernel
  refine ⟨hops, ?_⟩
  cases hv : (run { cache := () } steps).value with
  | error fault =>
    rw [hv] at hok
    cases hok
  | ok x =>
    obtain ⟨history, e, hlife, -, -, hturns, hsame, -⟩ := released_exactly_once hops hv k 1
    rw [hlife] at hread
    exact ⟨history, e, hlife, Option.some.inj hread, hturns, hsame⟩

end HostInventory.Enumeration
