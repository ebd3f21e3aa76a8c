import HostInventory.Proofs.Enumeration.Refresh

/-! Updates.

An update is a reconciliation and, when that listed something and it is asked for, a refresh
of what came of it (`update_cases`). It ends in a fault only when an instance is built under
another identity than asked for or when the look at one of the instances ends in one, so
where neither can happen it returns (`Kind.Regular.update_returns`); otherwise its fault is
that of an instance (`update_of_fault`). What holds of every instance and is kept by each look
at one is kept by an update (`All.reconciled`, `All.refreshed`). -/
namespace HostInventory.Enumeration

variable {Env Cache Data : Type}

/-- An update is a reconciliation and, if asked for, a refresh of what came of it. -/
theorem update_cases {e e' : Enumeration Cache Data} {k : Kind Env Cache Data} {env : Env}
    {refresh : Bool} {r : Except Failure UpdateReport}
    (h : (e.update k env refresh).value = .ok (r, e')) :
    ∃ found m, (e.updateEnumeration k env).value = .ok (found, m) ∧
      r.map UpdateReport.reconciliation = found ∧
      (((refresh = false ∨ ∃ f, found = .error f) ∧ m = e' ∧
          (e.update k env refresh).calls = (e.updateEnumeration k env).calls) ∨
        (refresh = true ∧ (∃ changes, found = .ok changes) ∧
          ∃ count, (m.updateInstances k env).value = .ok (count, e') ∧
            (e.update k env refresh).calls =
              (e.updateEnumeration k env).calls ++ (m.updateInstances k env).calls)) := by
  unfold update at h ⊢
  obtain ⟨_, hreq, h⟩ := Outcome.value_bind_eq_ok.1 h
  obtain ⟨⟨found, m⟩, hv, h⟩ := Outcome.value_bind_eq_ok.1 h
  have hp : e.phase = .initialized := require_eq_ok.1 (by simpa using hreq)
  refine ⟨found, m, hv, ?_⟩
  simp only [require_eq_ok.2 hp, Outcome.ofExcept_ok, pure_bind, Outcome.calls_bind_of_ok hv]
  cases found with
  | error f =>
    obtain ⟨rfl, rfl⟩ := Prod.mk.inj (Except.ok.inj h)
    refine ⟨rfl, .inl ⟨.inr ⟨f, rfl⟩, rfl, ?_⟩⟩
    rw [Outcome.calls_pure, List.append_nil]
  | ok reconciliation =>
    cases refresh with
    | false =>
      obtain ⟨rfl, rfl⟩ := Prod.mk.inj (Except.ok.inj h)
      refine ⟨rfl, .inl ⟨.inl rfl, rfl, ?_⟩⟩
      exact List.append_nil _
    | true =>
      obtain ⟨⟨count, m'⟩, hi, h⟩ := Outcome.value_bind_eq_ok.1 h
      obtain ⟨rfl, rfl⟩ := Prod.mk.inj (Except.ok.inj h)
      refine ⟨rfl, .inr ⟨rfl, ⟨reconciliation, rfl⟩, count, hi, ?_⟩⟩
      simp only [if_true, Outcome.calls_bind_of_ok hi, Outcome.calls_pure, List.append_nil]

/-! ### Kinds that behave -/

/-- Whatever the kind lists, it builds under its own identity. -/
def Kind.Truthful (k : Kind Env Cache Data) : Prop :=
  ∀ env cache listing cache', (k.discover env cache).value = .ok (listing, cache') →
    k.Names env cache' listing

/-- No operation on the kind ends in a fault. -/
structure Kind.Regular (k : Kind Env Cache Data) : Prop where
  truthful : k.Truthful
  faultless : ∀ env cache i, k.Faultless env cache i

/-- A kind that lists nothing has nothing to be truthful about. -/
theorem Kind.Truthful.of_discover {k : Kind Env Cache Data}
    (h : ∀ env cache, (k.discover env cache).value = .ok ([], cache)) : k.Truthful := by
  intro env cache listing cache' hd id hid
  rw [h env cache] at hd
  cases hd
  exact absurd hid List.not_mem_nil

/-- So is a kind that builds everything, listed or not, under its own identity. -/
theorem Kind.Truthful.of_instantiate {k : Kind Env Cache Data}
    (h : ∀ env cache id i, k.instantiate env cache id = .ok i → i.subject = .named id) :
    k.Truthful :=
  fun env _ _ cache' _ id _ i hi => h env cache' id i hi

/-- Whatever the kind lists it can build, under its own identity. -/
def Kind.Reliable (k : Kind Env Cache Data) : Prop :=
  ∀ env cache listing cache', (k.discover env cache).value = .ok (listing, cache') →
    ∀ id ∈ listing, ∃ i, k.instantiate env cache' id = .ok i ∧ i.subject = .named id

theorem Kind.Reliable.truthful {k : Kind Env Cache Data} (h : k.Reliable) : k.Truthful := by
  intro env cache listing cache' hd id hid i hi
  obtain ⟨j, hj, hsub⟩ := h env cache listing cache' hd id hid
  rw [hj] at hi
  cases hi
  exact hsub

theorem Kind.Reliable.builds {k : Kind Env Cache Data} (h : k.Reliable) {env : Env}
    {cache cache' : Cache} {listing : List Identity}
    (hd : (k.discover env cache).value = .ok (listing, cache')) :
    ∀ id ∈ listing, k.builds env cache' id = true := by
  intro id hid
  obtain ⟨i, hi, -⟩ := h env cache listing cache' hd id hid
  rw [Kind.builds, hi]
  rfl

theorem Kind.Names.newcomers {k : Kind Env Cache Data} {env : Env} {cache : Cache}
    {listing : List Identity} (hn : k.Names env cache listing) (e : Enumeration Cache Data) :
    k.Names env cache (e.newcomers listing) :=
  fun id hid => hn id (mem_newcomers.1 hid).1

section Initialized
variable {e : Enumeration Cache Data} {k : Kind Env Cache Data} {env : Env}
  (hp : e.phase = .initialized)
include hp

theorem update_of_error {f : Failure} {cache : Cache}
    (hd : (k.discover env e.cache).value = .error (f, cache)) (refresh : Bool) :
    (e.update k env refresh).value = .ok (.error f, { e with cache }) := by
  simp only [update, require_eq_ok.2 hp, Outcome.ofExcept_ok, pure_bind,
    Outcome.value_bind_of_ok (updateEnumeration_of_error hp hd).1, Outcome.value_pure]

section Listing
variable {listing : List Identity} {cache : Cache}
  (hd : (k.discover env e.cache).value = .ok (listing, cache)) (hn : k.Names env cache listing)
include hd hn

theorem update_with_refresh
    (hf : ∀ i ∈ (e.reconciled k env cache listing).instances, k.Faultless env cache i) :
    (e.update k env true).value =
      .ok (.ok ⟨e.reconciliation k env cache listing,
          some ((e.reconciled k env cache listing).refreshCount k env)⟩,
        (e.reconciled k env cache listing).refreshed k env) := by
  have hp' : (e.reconciled k env cache listing).phase = .initialized := hp
  simp only [update, require_eq_ok.2 hp, Outcome.ofExcept_ok, pure_bind,
    Outcome.value_bind_of_ok (updateEnumeration_of_ok hp hd (hn.newcomers e)), if_true,
    Outcome.value_bind_of_ok (updateInstances_eq hp' hf).1, Outcome.value_pure]

/-- A refresh that ends in a fault ends the update in the fault of one of the instances. -/
theorem update_of_fault
    (hf : ¬∀ i ∈ (e.reconciled k env cache listing).instances, k.Faultless env cache i) :
    ∃ i ∈ (e.reconciled k env cache listing).instances, ∃ fault,
      (k.refresh env cache i.reset).value = .error fault ∧
        (e.update k env true).value = .error fault := by
  have hp' : (e.reconciled k env cache listing).phase = .initialized := hp
  obtain ⟨i, hi, fault, hl, hv⟩ := updateInstances_of_fault hp' hf
  refine ⟨i, hi, fault, hl, ?_⟩
  simp only [update, require_eq_ok.2 hp, Outcome.ofExcept_ok, pure_bind,
    Outcome.value_bind_of_ok (updateEnumeration_of_ok hp hd (hn.newcomers e)), if_true]
  exact Outcome.value_bind_of_error hv _

end Listing

theorem Kind.Regular.update_returns (hk : k.Regular) :
    ∃ x, (e.update k env true).value = .ok x := by
  cases hd : (k.discover env e.cache).value with
  | error left => exact ⟨_, update_of_error hp hd true⟩
  | ok found =>
    have hn := hk.truthful env e.cache _ _ hd
    exact ⟨_, update_with_refresh hp hd hn fun i _ => hk.faultless env _ i⟩

/-- An update whose listing succeeds answers with a report. -/
theorem Kind.Regular.update_reports (hk : k.Regular) {listing : List Identity} {cache : Cache}
    (hd : (k.discover env e.cache).value = .ok (listing, cache)) (refresh : Bool) :
    ∃ report e', (e.update k env refresh).value = .ok (.ok report, e') := by
  have hn := hk.truthful env e.cache _ _ hd
  cases refresh with
  | true => exact ⟨_, _, update_with_refresh hp hd hn fun i _ => hk.faultless env _ i⟩
  | false =>
    simp only [update, require_eq_ok.2 hp, Outcome.ofExcept_ok, pure_bind,
      Outcome.value_bind_of_ok (updateEnumeration_of_ok hp hd (hn.newcomers e)),
      Bool.false_eq_true, if_false, Outcome.value_pure]
    exact ⟨_, _, rfl⟩

end Initialized

/-- What an update with a refresh has made of an enumeration. -/
theorem update_with_refresh_cases {e e' : Enumeration Cache Data} {k : Kind Env Cache Data}
    {env : Env} {r : Except Failure UpdateReport}
    (h : (e.update k env true).value = .ok (r, e')) :
    (∃ f cache, (k.discover env e.cache).value = .error (f, cache) ∧ e' = { e with cache }) ∨
      ∃ listing cache, (k.discover env e.cache).value = .ok (listing, cache) ∧
        e' = (e.reconciled k env cache listing).refreshed k env := by
  obtain ⟨found, m, hm, -, ⟨hfound, rfl, -⟩ | ⟨-, ⟨changes, rfl⟩, count, hi, -⟩⟩ := update_cases h
  · obtain ⟨-, ⟨f, cache, hd, -, rfl⟩ | ⟨listing, cache, -, -, rfl, -⟩⟩ :=
      updateEnumeration_cases hm
    · exact .inl ⟨f, cache, hd, rfl⟩
    · rcases hfound with hfound | ⟨f, hfound⟩
      · cases hfound
      · cases hfound
  · obtain ⟨-, ⟨f, cache, -, hf, -⟩ | ⟨listing, cache, hd, -, -, rfl⟩⟩ :=
      updateEnumeration_cases hm
    · cases hf
    · obtain ⟨-, -, -, rfl⟩ := updateInstances_cases hi
      exact .inr ⟨listing, cache, hd, rfl⟩

/-- What such an update has made of one whose listing succeeded. -/
theorem refreshed_of_update_ok {e e' : Enumeration Cache Data} {k : Kind Env Cache Data}
    {env : Env} {r : UpdateReport} (h : (e.update k env true).value = .ok (.ok r, e')) :
    e.phase = .initialized ∧ ∃ listing cache,
      (k.discover env e.cache).value = .ok (listing, cache) ∧
      r.reconciliation = e.reconciliation k env cache listing ∧
      (∀ i ∈ (e.reconciled k env cache listing).instances, k.Faultless env cache i) ∧
      e' = (e.reconciled k env cache listing).refreshed k env := by
  obtain ⟨found, m, hm, hr, ⟨hfound, -⟩ | ⟨-, -, count, hi, -⟩⟩ := update_cases h
  · rcases hfound with hfound | ⟨f, rfl⟩
    · cases hfound
    · cases hr
  · obtain ⟨hp, ⟨f, cache, -, rfl, -⟩ | ⟨listing, cache, hd, -, rfl, rfl⟩⟩ :=
      updateEnumeration_cases hm
    · cases hr
    · obtain ⟨-, hf, -, rfl⟩ := updateInstances_cases hi
      exact ⟨hp, listing, cache, hd, Except.ok.inj hr, hf, rfl⟩

/-- An update that answers with a failure leaves the cache that the listing left, and nothing
else has changed. -/
theorem update_error_cases {e e' : Enumeration Cache Data} {k : Kind Env Cache Data} {env : Env}
    {refresh : Bool} {f : Failure} (h : (e.update k env refresh).value = .ok (.error f, e')) :
    ∃ cache, (k.discover env e.cache).value = .error (f, cache) ∧ e' = { e with cache } := by
  obtain ⟨found, m, hm, hfound, ⟨-, rfl, -⟩ | ⟨-, ⟨changes, rfl⟩, -⟩⟩ := update_cases h
  · obtain ⟨-, ⟨f', cache, hd, rfl, rfl⟩ | ⟨listing, cache, -, -, rfl, -⟩⟩ :=
      updateEnumeration_cases hm
    · cases hfound
      exact ⟨cache, hd, rfl⟩
    · cases hfound
  · cases hfound

/-! ### What becomes of entries -/

/-- The second instance is the first, or the first once it has been told whether it is listed. -/
inductive Kind.Told (k : Kind Env Cache Data) (i : Instance Data) : Instance Data → Prop
  | unchanged : k.Told i i
  | told (present : Bool) : k.Told i { i with data := (k.setPresent present i.data).value }

theorem Kind.Told.subject_eq {k : Kind Env Cache Data} {i j : Instance Data} (h : k.Told i j) :
    j.subject = i.subject := by
  cases h <;> rfl

/-- An entry after a reconciliation was there before or has been built. -/
theorem mem_held_reconciled {e : Enumeration Cache Data} {k : Kind Env Cache Data} {env : Env}
    {cache : Cache} {listing : List Identity} {id : Identity} {j : Instance Data}
    (hm : (id, j) ∈ (e.reconciled k env cache listing).held) :
    (∃ i, (id, i) ∈ e.held ∧ k.Told i j) ∨
      (id ∈ e.newcomers listing ∧ k.instantiate env cache id = .ok j) := by
  rcases List.mem_append.1 hm with hm | hm
  · left
    cases hpol : k.policy <;> simp only [survivors, hpol] at hm
    case remove => exact ⟨j, (List.mem_filter.1 hm).1, .unchanged⟩
    case markStale =>
      obtain ⟨⟨id', i⟩, hold, heq⟩ := List.mem_map.1 hm
      cases heq
      exact ⟨i, hold, .told _⟩
    case retain => exact ⟨j, hm, .unchanged⟩
  · exact .inr (mem_built.1 hm)

/-! ### What is kept -/

/-- Every instance in the enumeration, the whole too, is as `P` says. -/
def All (P : Instance Data → Prop) (e : Enumeration Cache Data) : Prop :=
  ∀ i ∈ e.instances, P i

section All
variable {P : Instance Data → Prop} {e : Enumeration Cache Data} {k : Kind Env Cache Data}
  {env : Env}

theorem all_iff : e.All P ↔ (∀ i, e.total = some i → P i) ∧ ∀ entry ∈ e.held, P entry.2 := by
  constructor
  · intro h
    exact ⟨fun i hi => h i (List.mem_append_left _ (Option.mem_toList.2 hi)),
      fun entry hm => h entry.2 (List.mem_append_right _ (List.mem_map_of_mem hm))⟩
  · rintro ⟨htotal, hheld⟩ i hi
    rcases List.mem_append.1 hi with hi | hi
    · exact htotal i (Option.mem_toList.1 hi)
    · obtain ⟨entry, hm, rfl⟩ := List.mem_map.1 hi
      exact hheld entry hm

theorem All.reconciled (h : e.All P) {cache : Cache} {listing : List Identity}
    (hset : ∀ present i, P i → P { i with data := (k.setPresent present i.data).value })
    (hnew : ∀ id ∈ listing, ∀ i, k.instantiate env cache id = .ok i → P i) :
    (e.reconciled k env cache listing).All P := by
  obtain ⟨htotal, hheld⟩ := all_iff.1 h
  refine all_iff.2 ⟨htotal, ?_⟩
  rintro ⟨id, j⟩ hm
  obtain ⟨i, hi, htold⟩ | ⟨hid, hbuilt⟩ := mem_held_reconciled hm
  · cases htold with
    | unchanged => exact hheld (id, j) hi
    | told present => exact hset present i (hheld (id, i) hi)
  · exact hnew id (mem_newcomers.1 hid).1 j hbuilt

theorem All.refreshed (h : e.All P) (hlook : ∀ i, P i → P (k.lookedAt env e.cache i).2) :
    (e.refreshed k env).All P := by
  intro i hi
  obtain ⟨old, hold, rfl⟩ := mem_instances_refreshed hi
  exact hlook old (h old hold)

/-- What each operation on an instance keeps is kept by an update. -/
theorem All.update {e' : Enumeration Cache Data} (h : e.All P) {refresh : Bool}
    {r : Except Failure UpdateReport} (hv : (e.update k env refresh).value = .ok (r, e'))
    (hset : ∀ present i, P i → P { i with data := (k.setPresent present i.data).value })
    (hnew : ∀ cache id i, k.instantiate env cache id = .ok i → P i)
    (hlook : ∀ cache i, P i → P (k.lookedAt env cache i).2) : e'.All P := by
  obtain ⟨found, m, hm, -, hcases⟩ := update_cases hv
  have hmid : m.All P := by
    obtain ⟨-, ⟨f, cache, -, -, rfl⟩ | ⟨listing, cache, -, -, -, rfl⟩⟩ :=
      updateEnumeration_cases hm
    · exact h
    · exact h.reconciled hset fun id _ i hi => hnew cache id i hi
  rcases hcases with ⟨-, rfl, -⟩ | ⟨-, -, count, hi, -⟩
  · exact hmid
  · obtain ⟨-, -, -, rfl⟩ := updateInstances_cases hi
    exact hmid.refreshed (hlook m.cache)

end All

/-- An update changes neither the phase nor whether there is a whole. -/
theorem update_keeps {e e' : Enumeration Cache Data} {k : Kind Env Cache Data} {env : Env}
    {refresh : Bool} {r : Except Failure UpdateReport}
    (hv : (e.update k env refresh).value = .ok (r, e')) :
    e'.phase = e.phase ∧ e'.total.isSome = e.total.isSome := by
  obtain ⟨found, m, hm, -, hcases⟩ := update_cases hv
  have hmid : m.phase = e.phase ∧ m.total.isSome = e.total.isSome := by
    obtain ⟨-, ⟨f, cache, -, -, rfl⟩ | ⟨listing, cache, -, -, -, rfl⟩⟩ :=
      updateEnumeration_cases hm
    · exact ⟨rfl, rfl⟩
    · exact ⟨rfl, rfl⟩
  rcases hcases with ⟨-, rfl, -⟩ | ⟨-, -, count, hi, -⟩
  · exact hmid
  · obtain ⟨-, -, -, rfl⟩ := updateInstances_cases hi
    rw [← hmid.1, ← hmid.2]
    exact ⟨rfl, Option.isSome_map⟩

/-- What is listed is held after a reconciliation, if it was before or can be built. -/
theorem mem_ids_reconciled {e : Enumeration Cache Data} {k : Kind Env Cache Data} {env : Env}
    {cache : Cache} {listing : List Identity} {id : Identity} (hid : id ∈ listing)
    (hb : k.builds env cache id = true) : id ∈ (e.reconciled k env cache listing).ids := by
  rw [reconciled, ids, List.map_append, List.mem_append, map_fst_built]
  by_cases hheld : id ∈ e.ids
  · left
    rw [map_fst_survivors]
    split
    · exact List.mem_filter.2 ⟨hheld, decide_eq_true hid⟩
    · exact hheld
  · right
    exact List.mem_filter.2 ⟨mem_newcomers.2 ⟨hid, hheld⟩, hb⟩

/-- Under removal nothing else is. -/
theorem mem_listing_of_mem_ids_reconciled {e : Enumeration Cache Data} {k : Kind Env Cache Data}
    {env : Env} {cache : Cache} {listing : List Identity} (hpol : k.policy = .remove)
    {id : Identity} (h : id ∈ (e.reconciled k env cache listing).ids) : id ∈ listing := by
  obtain ⟨i, hm⟩ := mem_ids.1 h
  rcases List.mem_append.1 hm with hm | hm
  · simp only [survivors, hpol] at hm
    simpa using (List.mem_filter.1 hm).2
  · exact (mem_newcomers.1 (mem_built.1 hm).1).1

/-- Where everything listed can be built, nothing is skipped. -/
theorem skipped_reconciliation {e : Enumeration Cache Data} {k : Kind Env Cache Data} {env : Env}
    {cache : Cache} {listing : List Identity}
    (hb : ∀ id ∈ listing, k.builds env cache id = true) :
    (e.reconciliation k env cache listing).skipped = [] := by
  rw [reconciliation, List.filter_eq_nil_iff]
  intro id hid
  simp [hb id (mem_newcomers.1 hid).1]

end HostInventory.Enumeration
