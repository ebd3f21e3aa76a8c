import HostInventory.Proofs.Enumeration.Transition
import HostInventory.Proofs.Enumeration.Update

/-! One operation on an enumeration.

Whatever a caller does, and whatever the kind is at the time, an operation that ends
without a fault is a transition: what it cleans up is what it lets go of, and what it says it
has added is what it takes in (`transition_of_apply`). So what holds over a run of operations
is an induction with a single case. -/
namespace HostInventory.Enumeration

variable {Env Cache Data : Type}

/-- What a caller does with an enumeration. -/
inductive Operation (Env Data : Type)
  | init
  | setTotal (i : Instance Data)
  | add (i : Instance Data)
  | remove (id : Identity)
  | updateEnumeration (env : Env)
  | updateInstances (env : Env)
  | update (env : Env) (refresh : Bool)
  | cleanup

/-- An operation and the kind as it is when it is called. -/
structure Step (Env Cache Data : Type) where
  kind : Kind Env Cache Data
  operation : Operation Env Data

/-- The new instances of a reconciliation, if there was one, as they are held after it. -/
def addedBy (r : Except Failure Reconciliation) (e : Enumeration Cache Data) : List Handle :=
  match r with
  | .ok r => r.added.filterMap fun id => (e.find? id).map Instance.handle
  | .error _ => []

/-- Does an operation, and answers with the instances it took in. -/
def apply (e : Enumeration Cache Data) (step : Step Env Cache Data) :
    Outcome (List Handle × Enumeration Cache Data) :=
  let k := step.kind
  match step.operation with
  | .init => do
    let e ← e.init k
    return (k.whole.toList.map Instance.handle, e)
  | .setTotal i => do
    let e ← e.setTotal k i
    return ([i.handle], e)
  | .add i => do
    let (isNew, e) ← Outcome.ofExcept (e.add k i)
    return (if isNew then [i.handle] else [], e)
  | .remove id => do
    let (_, e) ← e.remove id
    return ([], e)
  | .updateEnumeration env => do
    let (r, e) ← e.updateEnumeration k env
    return (addedBy r e, e)
  | .updateInstances env => do
    let (_, e) ← e.updateInstances k env
    return ([], e)
  | .update env refresh => do
    let (r, e) ← e.update k env refresh
    return (addedBy (r.map UpdateReport.reconciliation) e, e)
  | .cleanup => do
    let e ← e.cleanup k
    return ([], e)

/-- The instance that a call cleans up. -/
def Call.released? : Call → Option Handle
  | .cleanup a => some a
  | _ => none

/-- The instances that were cleaned up, in order. -/
def Outcome.releases {α : Type} (x : Outcome α) : List Handle :=
  x.calls.filterMap Call.released?

/-- Nothing is called to give an answer. -/
theorem Outcome.calls_answer {α β : Type} (x : Outcome α) (f : α → β) :
    (x >>= fun a => pure (f a)).calls = x.calls := by
  cases hv : x.value with
  | ok a => rw [calls_bind_of_ok hv, calls_pure, List.append_nil]
  | error fault =>
    rw [bind_of_error hv]
    rfl

theorem released_map_cleanup {α : Type} (l : List α) (f : α → Handle) :
    (l.map fun a => Call.cleanup (f a)).filterMap Call.released? = l.map f := by
  rw [List.filterMap_map]
  show (l.filterMap fun a => some (f a)) = l.map f
  rw [List.filterMap_eq_map']

/-! ### Setting up, adding and taking out -/

section Operations
variable {e e' : Enumeration Cache Data} {k : Kind Env Cache Data}

theorem setTotal_cases {i : Instance Data} (hv : (e.setTotal k i).value = .ok e') :
    i.subject = .whole ∧ e' = { e with total := some i } ∧
      (e.setTotal k i).calls = e.total.toList.map fun i => Call.cleanup i.handle := by
  unfold setTotal at hv ⊢
  by_cases hi : i.subject = .whole
  · refine ⟨hi, ?_⟩
    cases ht : e.total <;> simp only [hi, ht, ne_eq, not_true_eq_false, if_false] at hv ⊢
    · exact ⟨(Except.ok.inj hv).symm, rfl⟩
    · exact ⟨(Except.ok.inj hv).symm, rfl⟩
  · simp [hi] at hv

theorem init_cases (hv : (e.init k).value = .ok e') :
    e.phase = .uninitialized ∧
      ((k.whole = none ∧ e' = { e with phase := .initialized } ∧ (e.init k).calls = []) ∨
        ∃ i m, k.whole = some i ∧ (e.setTotal k i).value = .ok m ∧
          e' = { m with phase := .initialized } ∧ (e.init k).calls = (e.setTotal k i).calls) := by
  unfold init at hv ⊢
  by_cases hp : e.phase = .uninitialized
  · refine ⟨hp, ?_⟩
    simp only [hp, ne_eq, not_true_eq_false, if_false, Outcome.value_say_bind,
      Outcome.calls_say_bind] at hv ⊢
    cases hw : k.whole with
    | none =>
      simp only [hw] at hv
      exact .inl ⟨rfl, (Except.ok.inj hv).symm, rfl⟩
    | some i =>
      simp only [hw] at hv
      obtain ⟨m, hm, hv⟩ := Outcome.value_bind_eq_ok.1 hv
      refine .inr ⟨i, m, rfl, hm, (Except.ok.inj hv).symm, ?_⟩
      simp only [Outcome.calls_bind_of_ok hm, Outcome.calls_pure, List.append_nil]
  · simp [hp] at hv

theorem add_cases {i : Instance Data} {isNew : Bool} (hv : e.add k i = .ok (isNew, e')) :
    ∃ id, i.subject = .named id ∧
      ((isNew = false ∧ id ∈ e.ids ∧ e' = e) ∨
        (isNew = true ∧ id ∉ e.ids ∧ e' = { e with held := e.held ++ [(id, i)] })) := by
  have hp : e.phase ≠ .cleanedUp := by
    intro hp
    simp [add, hp] at hv
  cases hi : i.subject with
  | whole => simp [add, hp, hi] at hv
  | named id =>
    refine ⟨id, rfl, ?_⟩
    cases hb : e.isHeld id with
    | true =>
      rw [add_of_isHeld hp hi hb] at hv
      obtain ⟨rfl, rfl⟩ := Prod.mk.inj (Except.ok.inj hv)
      exact .inl ⟨rfl, isHeld_iff.1 hb, rfl⟩
    | false =>
      rw [add_of_not_isHeld hp hi hb] at hv
      obtain ⟨rfl, rfl⟩ := Prod.mk.inj (Except.ok.inj hv)
      refine .inr ⟨rfl, ?_, rfl⟩
      rw [← isHeld_iff, hb]
      exact Bool.false_ne_true

theorem forM_cleanup_value (is : List (Instance Data)) :
    (is.forM fun i => Outcome.calling (.cleanup i.handle) (pure ())).value = .ok () := by
  induction is with
  | nil => rfl
  | cons i rest ih => exact ih

theorem forM_cleanup_calls (is : List (Instance Data)) :
    (is.forM fun i => Outcome.calling (.cleanup i.handle) (pure ())).calls =
      is.map fun i => Call.cleanup i.handle := by
  induction is with
  | nil => rfl
  | cons i rest ih => exact congrArg (Call.cleanup i.handle :: ·) ih

/-- Everything is cleaned up, the whole first and the kind last. -/
theorem cleanup_eq (hp : e.phase ≠ .cleanedUp) :
    (e.cleanup k).value = .ok { phase := .cleanedUp, cache := k.release e.cache } ∧
      (e.cleanup k).calls = e.handles.map Call.cleanup ++ [.release] := by
  have hv := forM_cleanup_value (e.total.toList ++ e.held.map Prod.snd)
  have hc := forM_cleanup_calls (e.total.toList ++ e.held.map Prod.snd)
  have hhandles : e.handles.map Call.cleanup =
      (e.total.toList ++ e.held.map Prod.snd).map fun i => Call.cleanup i.handle := by
    rw [handles, List.map_map]
    rfl
  simp only [cleanup, hp, if_false, Outcome.value_say_bind, Outcome.calls_say_bind,
    Outcome.value_bind_of_ok hv, Outcome.calls_bind_of_ok hv, hc, hhandles, Outcome.calling_bind,
    pure_bind, Outcome.value_calling, Outcome.calls_calling, Outcome.value_pure,
    Outcome.calls_pure, and_self]

/-! ### What each operation lets go of and takes in -/

theorem transition_setTotal (h : e.WellFormed) {i : Instance Data}
    (hv : (e.setTotal k i).value = .ok e') :
    Transition e e' (e.setTotal k i).releases [i.handle] := by
  obtain ⟨hi, rfl, hc⟩ := setTotal_cases hv
  rw [Outcome.releases, hc, released_map_cleanup]
  exact .install h hi

theorem transition_init (h : e.WellFormed) (hv : (e.init k).value = .ok e') :
    Transition e e' (e.init k).releases (k.whole.toList.map Instance.handle) := by
  obtain ⟨-, ⟨hw, rfl, hc⟩ | ⟨i, m, hw, hm, rfl, hc⟩⟩ := init_cases hv
  · rw [hw, Outcome.releases, hc]
    exact .unchanged ⟨h.distinct, h.named, h.whole⟩ rfl rfl
  · rw [hw, Outcome.releases, hc]
    have ht := transition_setTotal h hm
    have hwf := ht.wellFormed
    exact ht.before_unchanged ⟨hwf.distinct, hwf.named, hwf.whole⟩ rfl rfl

theorem transition_add (h : e.WellFormed) {i : Instance Data} {isNew : Bool}
    (hv : e.add k i = .ok (isNew, e')) :
    Transition e e' [] (if isNew then [i.handle] else []) := by
  obtain ⟨id, hi, ⟨rfl, -, rfl⟩ | ⟨rfl, hfree, rfl⟩⟩ := add_cases hv
  · exact .unchanged h rfl rfl
  · have hnamed : ∀ entry ∈ [(id, i)], entry.2.subject = .named entry.1 := by simpa using hi
    exact .append h hnamed (List.nodup_singleton id) (by simpa using hfree)

theorem transition_remove (h : e.WellFormed) {id : Identity} {found : Bool}
    (hv : (e.remove id).value = .ok (found, e')) : Transition e e' (e.remove id).releases [] := by
  rw [remove_value] at hv
  obtain ⟨-, rfl⟩ := Prod.mk.inj (Except.ok.inj hv)
  have hcall : (e.remove id).releases =
      (e.held.filter fun entry => !decide (entry.1 ≠ id)).map fun entry => entry.2.handle := by
    rw [Outcome.releases, remove_calls, released_map_cleanup, ← Option.toList_map, h.map_find?]
    simp only [ne_eq, decide_not, Bool.not_not]
  rw [hcall]
  exact .filter h fun x => decide (x ≠ id)

theorem releases_cleanup (k : Kind Env Cache Data) (hp : e.phase ≠ .cleanedUp) :
    (e.cleanup k).releases = e.handles := by
  have hmap := released_map_cleanup e.handles id
  rw [List.map_id] at hmap
  rw [Outcome.releases, (cleanup_eq hp).2, List.filterMap_append]
  exact (List.append_nil _).trans hmap

theorem transition_cleanup (h : e.WellFormed) (hv : (e.cleanup k).value = .ok e') :
    Transition e e' (e.cleanup k).releases [] := by
  by_cases hp : e.phase = .cleanedUp
  · rw [cleanup_of_cleanedUp k hp] at hv ⊢
    cases hv
    exact .unchanged h rfl rfl
  · rw [(cleanup_eq hp).1] at hv
    cases hv
    rw [releases_cleanup k hp]
    exact .release h _ _

/-- A policy lets go of what has vanished or of nothing. -/
theorem transition_survivors (h : e.WellFormed) (k : Kind Env Cache Data)
    (listing : List Identity) :
    Transition e { e with held := e.survivors k listing }
      ((e.policyCalls k listing).filterMap Call.released?) [] := by
  cases hpol : k.policy with
  | remove =>
    have hr : (e.policyCalls k listing).filterMap Call.released? =
        (e.held.filter fun entry => !decide (entry.1 ∈ listing)).map fun entry =>
          entry.2.handle := by
      simp only [policyCalls, hpol, released_map_cleanup, decide_not]
    rw [hr]
    simp only [survivors, hpol]
    exact .filter h fun id => decide (id ∈ listing)
  | markStale =>
    have hr : (e.policyCalls k listing).filterMap Call.released? = [] := by
      simp only [policyCalls, hpol, List.filterMap_eq_nil_iff, List.mem_map]
      rintro c ⟨entry, -, rfl⟩
      split <;> rfl
    have hids : (e.held.map (told k listing)).map Prod.fst = e.ids := by
      rw [List.map_map]
      rfl
    rw [hr]
    simp only [survivors, hpol]
    refine .unchanged ⟨?_, ?_, h.whole⟩ hids ?_
    · exact (congrArg List.Nodup hids).mpr h.distinct
    · intro entry hm
      obtain ⟨old, hold, rfl⟩ := List.mem_map.1 hm
      exact h.named old hold
    · simp only [handles, instances, List.map_append, List.map_map]
      rfl
  | retain =>
    simp only [policyCalls, survivors, hpol]
    exact .unchanged h rfl rfl

/-- Behind what survives, what was built is taken in. -/
theorem transition_reconciled (h : e.WellFormed) {env : Env} {cache : Cache}
    {listing : List Identity} (hn : k.Names env cache (e.newcomers listing)) :
    Transition e (e.reconciled k env cache listing)
      ((e.policyCalls k listing).filterMap Call.released?)
      ((k.built env cache (e.newcomers listing)).map fun entry => entry.2.handle) := by
  have hfst := map_fst_built k env cache (e.newcomers listing)
  have hpol := transition_survivors h k listing
  have hnd : ((k.built env cache (e.newcomers listing)).map Prod.fst).Nodup := by
    rw [hfst]
    exact (nodup_newcomers e listing).filter _
  have hnew : ∀ id ∈ (k.built env cache (e.newcomers listing)).map Prod.fst, id ∉ e.ids := by
    intro id hid
    rw [hfst] at hid
    exact (mem_newcomers.1 (List.mem_filter.1 hid).1).2
  have hfree : ∀ id ∈ (k.built env cache (e.newcomers listing)).map Prod.fst,
      id ∉ ids { e with held := e.survivors k listing } := by
    intro id hid hin
    obtain ⟨i, hi⟩ := mem_ids.1 hin
    exact hnew id hid (mem_ids_of_mem_survivors hi)
  have hadd := Transition.append hpol.wellFormed hn.subject_of_built hnd hfree
  have hboth := hpol.andThen hadd (by
    intro s hs
    rw [subjectsOf, List.map_map] at hs
    obtain ⟨entry, hm, rfl⟩ := List.mem_map.1 hs
    have hsubject : entry.2.subject = .named entry.1 := hn.subject_of_built entry hm
    show entry.2.subject ∉ e.subjects
    rw [hsubject]
    exact mt h.named_mem_subjects.1 (hnew entry.1 (List.mem_map_of_mem hm)))
  exact hboth.before_unchanged
    ⟨hboth.wellFormed.distinct, hboth.wellFormed.named, hboth.wellFormed.whole⟩ rfl rfl

/-- What was built is found under the identities that were added. -/
theorem addedBy_reconciled (h : e.WellFormed) {env : Env} {cache : Cache}
    {listing : List Identity} (hn : k.Names env cache (e.newcomers listing)) :
    addedBy (.ok (e.reconciliation k env cache listing)) (e.reconciled k env cache listing) =
      (k.built env cache (e.newcomers listing)).map fun entry => entry.2.handle := by
  have hw := (transition_reconciled h hn).wellFormed
  show List.filterMap _ ((e.newcomers listing).filter (k.builds env cache)) = _
  rw [← map_fst_built, List.filterMap_map, ← List.filterMap_eq_map']
  refine List.filterMap_congr fun entry hm => ?_
  have hheld : (entry.1, entry.2) ∈ (e.reconciled k env cache listing).held :=
    List.mem_append_right _ hm
  simp only [Function.comp_apply, hw.find?_eq_some hheld, Option.map_some]

/-- The new instances are those that were added by their identities. -/
theorem subjectsOf_addedBy_reconciled (h : e.WellFormed) {env : Env} {cache : Cache}
    {listing : List Identity} (hn : k.Names env cache (e.newcomers listing)) :
    subjectsOf (addedBy (.ok (e.reconciliation k env cache listing))
      (e.reconciled k env cache listing)) =
      (e.reconciliation k env cache listing).added.map Subject.named := by
  have hadded : (e.reconciliation k env cache listing).added =
      (k.built env cache (e.newcomers listing)).map Prod.fst := (map_fst_built ..).symm
  rw [addedBy_reconciled h hn, hadded, subjectsOf, List.map_map, List.map_map]
  exact List.map_congr_left hn.subject_of_built

/-- What is done to the instances at their places leaves them the same instances. -/
theorem addedBy_map {Data' : Type} {g : Instance Data → Instance Data'}
    (hg : ∀ i, (g i).handle = i.handle) (r : Except Failure Reconciliation)
    (e : Enumeration Cache Data) : addedBy r (e.map g) = addedBy r e := by
  cases r with
  | error f => rfl
  | ok r =>
    refine List.filterMap_congr fun id _ => ?_
    rw [find?_map, Option.map_map]
    exact Option.map_congr fun i _ => hg i

theorem transition_updateEnumeration (h : e.WellFormed) {env : Env}
    {r : Except Failure Reconciliation} (hv : (e.updateEnumeration k env).value = .ok (r, e')) :
    Transition e e' (e.updateEnumeration k env).releases (addedBy r e') := by
  obtain ⟨hp, ⟨f, cache, hd, rfl, rfl⟩ | ⟨listing, cache, hd, hn, rfl, rfl⟩⟩ :=
    updateEnumeration_cases hv
  · rw [Outcome.releases, (updateEnumeration_of_error hp hd).2]
    exact .unchanged ⟨h.distinct, h.named, h.whole⟩ rfl rfl
  · have hr : (e.updateEnumeration k env).releases =
        (e.policyCalls k listing).filterMap Call.released? := by
      have hnone : ((e.newcomers listing).map Call.instantiate).filterMap Call.released? = [] := by
        simp [Call.released?]
      rw [Outcome.releases, updateEnumeration_calls hp hd hn h, List.filterMap_cons_none rfl,
        List.filterMap_append, hnone, List.nil_append]
    rw [hr, addedBy_reconciled h hn]
    exact transition_reconciled h hn

/-- A refresh releases nothing. -/
theorem releases_updateInstances {env : Env} {count : RefreshCount}
    (hv : (e.updateInstances k env).value = .ok (count, e')) :
    (e.updateInstances k env).releases = [] := by
  obtain ⟨hp, hf, -, -⟩ := updateInstances_cases hv
  rw [Outcome.releases, (updateInstances_eq hp hf).2]
  simp [Call.released?]

/-- A refresh looks at the instances at their places. -/
theorem addedBy_of_updateInstances {env : Env} {count : RefreshCount}
    (hv : (e.updateInstances k env).value = .ok (count, e')) (r : Except Failure Reconciliation) :
    addedBy r e' = addedBy r e := by
  obtain ⟨-, -, -, rfl⟩ := updateInstances_cases hv
  exact addedBy_map (lookedAt_handle k env e.cache) r e

theorem transition_updateInstances (h : e.WellFormed) {env : Env} {count : RefreshCount}
    (hv : (e.updateInstances k env).value = .ok (count, e')) :
    Transition e e' (e.updateInstances k env).releases [] := by
  rw [releases_updateInstances hv]
  obtain ⟨-, -, -, rfl⟩ := updateInstances_cases hv
  exact .unchanged (h.refreshed k env) (refreshed_ids e k env) (refreshed_handles e k env)

theorem transition_update (h : e.WellFormed) {env : Env} {refresh : Bool}
    {r : Except Failure UpdateReport} (hv : (e.update k env refresh).value = .ok (r, e')) :
    Transition e e' (e.update k env refresh).releases
      (addedBy (r.map UpdateReport.reconciliation) e') := by
  obtain ⟨found, m, hm, rfl, ⟨-, rfl, hc⟩ | ⟨-, -, count, hi, hc⟩⟩ := update_cases hv
  · rw [Outcome.releases, hc]
    exact transition_updateEnumeration h hm
  · have ht := transition_updateEnumeration h hm
    have hr : (e.update k env refresh).releases = (e.updateEnumeration k env).releases := by
      have hnone : (m.updateInstances k env).calls.filterMap Call.released? = [] :=
        releases_updateInstances hi
      rw [Outcome.releases, hc, List.filterMap_append, hnone, List.append_nil]
      rfl
    rw [hr, addedBy_of_updateInstances hi]
    obtain ⟨-, -, -, rfl⟩ := updateInstances_cases hi
    exact ht.before_unchanged (ht.wellFormed.refreshed k env) (refreshed_ids m k env)
      (refreshed_handles m k env)

end Operations

/-- What has happened when an operation ends without a fault. -/
theorem apply_cases {e e' : Enumeration Cache Data} {k : Kind Env Cache Data}
    {operation : Operation Env Data} {taken : List Handle}
    (hv : (e.apply ⟨k, operation⟩).value = .ok (taken, e')) :
    match operation with
    | .init => (e.init k).value = .ok e' ∧ taken = k.whole.toList.map Instance.handle
    | .setTotal i => (e.setTotal k i).value = .ok e' ∧ taken = [i.handle]
    | .add i => ∃ isNew, e.add k i = .ok (isNew, e') ∧ taken = if isNew then [i.handle] else []
    | .remove id => ∃ found, (e.remove id).value = .ok (found, e') ∧ taken = []
    | .updateEnumeration env =>
      ∃ r, (e.updateEnumeration k env).value = .ok (r, e') ∧ taken = addedBy r e'
    | .updateInstances env =>
      ∃ count, (e.updateInstances k env).value = .ok (count, e') ∧ taken = []
    | .update env refresh =>
      ∃ r, (e.update k env refresh).value = .ok (r, e') ∧
        taken = addedBy (r.map UpdateReport.reconciliation) e'
    | .cleanup => (e.cleanup k).value = .ok e' ∧ taken = [] := by
  cases operation <;> obtain ⟨answer, ha, hv⟩ := Outcome.value_bind_eq_ok.1 hv <;>
    obtain ⟨rfl, rfl⟩ := Prod.mk.inj (Except.ok.inj hv)
  case add i =>
    rw [Outcome.value_ofExcept] at ha
    exact ⟨answer.1, ha, rfl⟩
  case init => exact ⟨ha, rfl⟩
  case setTotal => exact ⟨ha, rfl⟩
  case cleanup => exact ⟨ha, rfl⟩
  all_goals exact ⟨answer.1, ha, rfl⟩

/-- An operation makes the calls of the function it stands for. -/
theorem apply_calls (e : Enumeration Cache Data) (k : Kind Env Cache Data)
    (operation : Operation Env Data) :
    (e.apply ⟨k, operation⟩).calls =
      match operation with
      | .init => (e.init k).calls
      | .setTotal i => (e.setTotal k i).calls
      | .add _ => []
      | .remove id => (e.remove id).calls
      | .updateEnumeration env => (e.updateEnumeration k env).calls
      | .updateInstances env => (e.updateInstances k env).calls
      | .update env refresh => (e.update k env refresh).calls
      | .cleanup => (e.cleanup k).calls := by
  cases operation <;> simp only [apply, Outcome.calls_answer]
  case add i => cases e.add k i <;> rfl

/-- **One operation.** Whatever it is, what it cleans up was there, and what it takes in stands
behind what is left. -/
theorem transition_of_apply {e e' : Enumeration Cache Data} (h : e.WellFormed)
    {step : Step Env Cache Data} {taken : List Handle}
    (hv : (e.apply step).value = .ok (taken, e')) :
    Transition e e' (e.apply step).releases taken := by
  obtain ⟨k, operation⟩ := step
  have hdone := apply_cases hv
  rw [Outcome.releases, apply_calls]
  cases operation
  case init =>
    obtain ⟨hm, rfl⟩ := hdone
    exact transition_init h hm
  case setTotal i =>
    obtain ⟨hm, rfl⟩ := hdone
    exact transition_setTotal h hm
  case add i =>
    obtain ⟨isNew, hm, rfl⟩ := hdone
    exact transition_add h hm
  case remove id =>
    obtain ⟨found, hm, rfl⟩ := hdone
    exact transition_remove h hm
  case updateEnumeration env =>
    obtain ⟨r, hm, rfl⟩ := hdone
    exact transition_updateEnumeration h hm
  case updateInstances env =>
    obtain ⟨count, hm, rfl⟩ := hdone
    exact transition_updateInstances h hm
  case update env refresh =>
    obtain ⟨r, hm, rfl⟩ := hdone
    exact transition_update h hm
  case cleanup =>
    obtain ⟨hm, rfl⟩ := hdone
    exact transition_cleanup h hm

end HostInventory.Enumeration
