import HostInventory.Proofs.Enumeration.Instances
import HostInventory.Proofs.Enumeration.Reconciliation

/-! The refresh of what is held.

A refresh looks at the whole and at every entry, in order and once each, and what becomes
of one instance depends on that instance alone (`lookedAt`). It ends in a fault exactly
when the look at one of the instances does; otherwise the enumeration is the same but for
the data and the failures in it (`updateInstances_cases`). -/
namespace HostInventory.Enumeration

variable {Env Cache Data : Type}

/-- The look at an instance does not end in a fault. -/
def Kind.Faultless (k : Kind Env Cache Data) (env : Env) (cache : Cache) (i : Instance Data) :
    Prop :=
  ∃ r, (k.refresh env cache i.reset).value = .ok r

/-- What a look makes of an instance, and whether it succeeded. -/
def Kind.lookedAt (k : Kind Env Cache Data) (env : Env) (cache : Cache) (i : Instance Data) :
    Bool × Instance Data :=
  match (k.refresh env cache i.reset).value with
  | .ok (.ok data) => (true, { i.reset with data })
  | .ok (.error (f, data)) => (false, Instance.capture { i with data := k.afterFailure data } f)
  | .error _ => (false, i)

/-- The enumeration once every instance in it has been looked at. -/
def refreshed (e : Enumeration Cache Data) (k : Kind Env Cache Data) (env : Env) :
    Enumeration Cache Data :=
  { e with
    total := e.total.map fun i => (k.lookedAt env e.cache i).2
    held := e.held.map fun entry => (entry.1, (k.lookedAt env e.cache entry.2).2) }

/-- The count of a refresh. -/
def refreshCount (e : Enumeration Cache Data) (k : Kind Env Cache Data) (env : Env) :
    RefreshCount :=
  e.instances.foldl (fun count i => count.record (k.lookedAt env e.cache i).1) {}

/-! ### One instance -/

theorem lookedAt_handle (k : Kind Env Cache Data) (env : Env) (cache : Cache)
    (i : Instance Data) : (k.lookedAt env cache i).2.handle = i.handle := by
  unfold Kind.lookedAt
  split <;> rfl

@[simp] theorem lookedAt_subject (k : Kind Env Cache Data) (env : Env) (cache : Cache)
    (i : Instance Data) : (k.lookedAt env cache i).2.subject = i.subject :=
  congrArg Handle.subject (lookedAt_handle k env cache i)

theorem lookedAt_of_ok {k : Kind Env Cache Data} {env : Env} {cache : Cache} {i : Instance Data}
    {d : Data} (h : (k.refresh env cache i.reset).value = .ok (.ok d)) :
    k.lookedAt env cache i = (true, { i.reset with data := d }) := by
  simp only [Kind.lookedAt, h]

theorem lookedAt_of_error {k : Kind Env Cache Data} {env : Env} {cache : Cache}
    {i : Instance Data} {f : Failure} {d : Data}
    (h : (k.refresh env cache i.reset).value = .ok (.error (f, d))) :
    k.lookedAt env cache i = (false, Instance.capture { i with data := k.afterFailure d } f) := by
  simp only [Kind.lookedAt, h]

theorem lookedAt_of_fault {k : Kind Env Cache Data} {env : Env} {cache : Cache}
    {i : Instance Data} {fault : Fault} (h : (k.refresh env cache i.reset).value = .error fault) :
    k.lookedAt env cache i = (false, i) := by
  simp only [Kind.lookedAt, h]

theorem refreshOne_eq {k : Kind Env Cache Data} {env : Env} {cache : Cache} {i : Instance Data}
    (hf : k.Faultless env cache i) :
    (refreshOne k env cache i).value = .ok (k.lookedAt env cache i) ∧
      (refreshOne k env cache i).calls = [.update i.subject] := by
  obtain ⟨r, hr⟩ := hf
  simp only [refreshOne, Kind.lookedAt, hr, Outcome.calling_bind, Outcome.value_calling,
    Outcome.calls_calling, Outcome.value_ofLogged_bind, Outcome.calls_ofLogged_bind,
    Outcome.ofExcept_ok, pure_bind]
  cases r with
  | ok data => exact ⟨rfl, rfl⟩
  | error left => exact ⟨rfl, rfl⟩

theorem refreshOne_of_fault {k : Kind Env Cache Data} {env : Env} {cache : Cache}
    {i : Instance Data} {fault : Fault} (h : (k.refresh env cache i.reset).value = .error fault) :
    (refreshOne k env cache i).value = .error fault := by
  simp [refreshOne, h]

/-! ### Every instance -/

theorem refreshTotal_eq {k : Kind Env Cache Data} {env : Env} {cache : Cache}
    {total : Option (Instance Data)} (hf : ∀ i ∈ total, k.Faultless env cache i) :
    (refreshTotal k env cache total).value =
        .ok (total.toList.foldl (fun count i => count.record (k.lookedAt env cache i).1) {},
          total.map fun i => (k.lookedAt env cache i).2) ∧
      (refreshTotal k env cache total).calls = total.toList.map fun i => Call.update i.subject := by
  cases total with
  | none => exact ⟨rfl, rfl⟩
  | some i =>
    obtain ⟨hv, hc⟩ := refreshOne_eq (hf i rfl)
    simp only [refreshTotal, Outcome.value_bind_of_ok hv, Outcome.calls_bind_of_ok hv, hc,
      Outcome.value_pure, Outcome.calls_pure, Option.toList_some, List.foldl_cons, List.foldl_nil,
      Option.map_some, List.map_cons, List.map_nil, List.append_nil, and_self]

theorem refreshHeld_eq {k : Kind Env Cache Data} {env : Env} {cache : Cache}
    {held : List (Identity × Instance Data)} (hf : ∀ entry ∈ held, k.Faultless env cache entry.2)
    (count : RefreshCount) :
    (refreshHeld k env cache count held).value =
        .ok ((held.map Prod.snd).foldl
            (fun count i => count.record (k.lookedAt env cache i).1) count,
          held.map fun entry => (entry.1, (k.lookedAt env cache entry.2).2)) ∧
      (refreshHeld k env cache count held).calls =
        held.map fun entry => Call.update entry.2.subject := by
  induction held generalizing count with
  | nil => exact ⟨rfl, rfl⟩
  | cons entry rest ih =>
    obtain ⟨hv, hc⟩ := refreshOne_eq (hf entry List.mem_cons_self)
    obtain ⟨hv', hc'⟩ := ih (fun entry hm => hf entry (List.mem_cons_of_mem _ hm))
      (count.record (k.lookedAt env cache entry.2).1)
    simp only [refreshHeld, Outcome.value_bind_of_ok hv, Outcome.calls_bind_of_ok hv, hc,
      Outcome.value_bind_of_ok hv', Outcome.calls_bind_of_ok hv', hc', Outcome.value_pure,
      Outcome.calls_pure, List.map_cons, List.foldl_cons, List.append_nil, List.singleton_append,
      and_self]

/-- The first look that ends in a fault ends the refresh in the same one. -/
theorem refreshHeld_of_fault {k : Kind Env Cache Data} {env : Env} {cache : Cache}
    {held : List (Identity × Instance Data)}
    (hf : ¬∀ entry ∈ held, k.Faultless env cache entry.2) (count : RefreshCount) :
    ∃ entry ∈ held, ∃ fault, (k.refresh env cache entry.2.reset).value = .error fault ∧
      (refreshHeld k env cache count held).value = .error fault := by
  induction held generalizing count with
  | nil => exact absurd (fun entry hm => absurd hm List.not_mem_nil) hf
  | cons entry rest ih =>
    cases hr : (k.refresh env cache entry.2.reset).value with
    | error fault =>
      refine ⟨entry, List.mem_cons_self, fault, hr, ?_⟩
      rw [refreshHeld, Outcome.value_bind_of_error (refreshOne_of_fault hr)]
    | ok r =>
      have hrest : ¬∀ entry ∈ rest, k.Faultless env cache entry.2 :=
        fun h => hf (List.forall_mem_cons.2 ⟨⟨r, hr⟩, h⟩)
      obtain ⟨entry', hm, fault, he, hv⟩ :=
        ih hrest (count.record (k.lookedAt env cache entry.2).1)
      refine ⟨entry', List.mem_cons_of_mem _ hm, fault, he, ?_⟩
      rw [refreshHeld, Outcome.value_bind_of_ok (refreshOne_eq ⟨r, hr⟩).1]
      exact Outcome.value_bind_of_error hv _

section Initialized
variable {e : Enumeration Cache Data} {k : Kind Env Cache Data} {env : Env}
  (hp : e.phase = .initialized)
include hp

/-- When no look ends in a fault, every instance is looked at once, the whole first. -/
theorem updateInstances_eq (hf : ∀ i ∈ e.instances, k.Faultless env e.cache i) :
    (e.updateInstances k env).value = .ok (e.refreshCount k env, e.refreshed k env) ∧
      (e.updateInstances k env).calls = e.instances.map fun i => .update i.subject := by
  have hfirst : ∀ i ∈ e.total, k.Faultless env e.cache i :=
    fun i hi => hf i (List.mem_append_left _ (Option.mem_toList.2 hi))
  have hrest : ∀ entry ∈ e.held, k.Faultless env e.cache entry.2 :=
    fun entry hm => hf entry.2 (List.mem_append_right _ (List.mem_map_of_mem hm))
  have htotal := refreshTotal_eq hfirst
  have hheld := refreshHeld_eq hrest
  simp only [updateInstances, require_eq_ok.2 hp, Outcome.ofExcept_ok, pure_bind,
    Outcome.value_bind_of_ok htotal.1, Outcome.calls_bind_of_ok htotal.1, htotal.2,
    Outcome.value_bind_of_ok (hheld _).1, Outcome.calls_bind_of_ok (hheld _).1, (hheld _).2,
    Outcome.value_pure, Outcome.calls_pure, List.append_nil, refreshCount, refreshed, instances,
    List.foldl_append, List.map_append, List.map_map, Function.comp_def, and_self]

/-- When one does, the refresh ends in the fault of one of the instances. -/
theorem updateInstances_of_fault (hf : ¬∀ i ∈ e.instances, k.Faultless env e.cache i) :
    ∃ i ∈ e.instances, ∃ fault, (k.refresh env e.cache i.reset).value = .error fault ∧
      (e.updateInstances k env).value = .error fault := by
  simp only [updateInstances, require_eq_ok.2 hp, Outcome.ofExcept_ok, pure_bind]
  by_cases htotal : ∀ i ∈ e.total, k.Faultless env e.cache i
  · have hheld : ¬∀ entry ∈ e.held, k.Faultless env e.cache entry.2 := by
      intro hheld
      refine hf fun i hi => ?_
      rcases List.mem_append.1 hi with hi | hi
      · exact htotal i (Option.mem_toList.1 hi)
      · obtain ⟨entry, hm, rfl⟩ := List.mem_map.1 hi
        exact hheld entry hm
    obtain ⟨entry, hm, fault, he, hv⟩ := refreshHeld_of_fault hheld
      (e.total.toList.foldl (fun count i => count.record (k.lookedAt env e.cache i).1) {})
    refine ⟨entry.2, List.mem_append_right _ (List.mem_map_of_mem hm), fault, he, ?_⟩
    rw [Outcome.value_bind_of_ok (refreshTotal_eq htotal).1]
    exact Outcome.value_bind_of_error hv _
  · obtain ⟨i, hi, hi'⟩ : ∃ i, e.total = some i ∧ ¬k.Faultless env e.cache i := by
      simpa using htotal
    cases hr : (k.refresh env e.cache i.reset).value with
    | ok r => exact absurd ⟨r, hr⟩ hi'
    | error fault =>
      refine ⟨i, List.mem_append_left _ (Option.mem_toList.2 hi), fault, hr, ?_⟩
      rw [hi, refreshTotal]
      exact Outcome.value_bind_of_error
        (Outcome.value_bind_of_error (refreshOne_of_fault hr) _) _

end Initialized

/-- What has happened when a refresh ends without a fault. -/
theorem updateInstances_cases {e e' : Enumeration Cache Data} {k : Kind Env Cache Data} {env : Env}
    {count : RefreshCount} (h : (e.updateInstances k env).value = .ok (count, e')) :
    e.phase = .initialized ∧ (∀ i ∈ e.instances, k.Faultless env e.cache i) ∧
      count = e.refreshCount k env ∧ e' = e.refreshed k env := by
  have hp : e.phase = .initialized := by
    unfold updateInstances at h
    obtain ⟨_, hreq, -⟩ := Outcome.value_bind_eq_ok.1 h
    exact require_eq_ok.1 (by simpa using hreq)
  have hf : ∀ i ∈ e.instances, k.Faultless env e.cache i := by
    by_contra hf
    obtain ⟨_, _, fault, _, hv⟩ := updateInstances_of_fault hp hf
    rw [hv] at h
    cases h
  rw [(updateInstances_eq hp hf).1] at h
  obtain ⟨rfl, rfl⟩ := Prod.mk.inj (Except.ok.inj h)
  exact ⟨hp, hf, rfl, rfl⟩

/-! ### What a refresh leaves alone -/

theorem refreshed_eq_map (e : Enumeration Cache Data) (k : Kind Env Cache Data) (env : Env) :
    e.refreshed k env = e.map fun i => (k.lookedAt env e.cache i).2 := rfl

/-- What is there after a refresh has been looked at in it. -/
theorem mem_instances_refreshed {e : Enumeration Cache Data} {k : Kind Env Cache Data} {env : Env}
    {i : Instance Data} (h : i ∈ (e.refreshed k env).instances) :
    ∃ j ∈ e.instances, i = (k.lookedAt env e.cache j).2 := by
  rw [refreshed_eq_map, instances_map] at h
  obtain ⟨j, hj, rfl⟩ := List.mem_map.1 h
  exact ⟨j, hj, rfl⟩

@[simp] theorem refreshed_ids (e : Enumeration Cache Data) (k : Kind Env Cache Data) (env : Env) :
    (e.refreshed k env).ids = e.ids :=
  ids_map _ e

/-- What is found under an identity has been looked at. -/
theorem find?_refreshed (e : Enumeration Cache Data) (k : Kind Env Cache Data) (env : Env)
    (id : Identity) :
    (e.refreshed k env).find? id = (e.find? id).map fun i => (k.lookedAt env e.cache i).2 :=
  find?_map _ e id

@[simp] theorem refreshed_handles (e : Enumeration Cache Data) (k : Kind Env Cache Data)
    (env : Env) : (e.refreshed k env).handles = e.handles :=
  handles_map (lookedAt_handle k env e.cache)

@[simp] theorem refreshed_subjects (e : Enumeration Cache Data) (k : Kind Env Cache Data)
    (env : Env) : (e.refreshed k env).subjects = e.subjects := by
  rw [subjects_eq_map_handles, refreshed_handles, subjects_eq_map_handles]

theorem WellFormed.refreshed {e : Enumeration Cache Data} (h : e.WellFormed)
    (k : Kind Env Cache Data) (env : Env) : (e.refreshed k env).WellFormed :=
  h.map (lookedAt_subject k env e.cache)

end HostInventory.Enumeration
