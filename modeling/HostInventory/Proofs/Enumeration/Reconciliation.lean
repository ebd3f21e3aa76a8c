import HostInventory.Enumeration.Probe
import HostInventory.Proofs.Enumeration.Survey
import HostInventory.Proofs.Enumeration.WellFormed

/-! Reconciliation as list algebra.

The three policies and the adding of what is new come down to filters and maps: `survivors`
is what the policy leaves of the held instances, and the instances built for the newcomers
follow behind them in the order of the listing. `updateEnumeration_of_ok` says so for every
state of an enumeration, every kind and every listing, whatever instances cannot be built,
and `updateEnumeration_eq_filters` spells it out; `updateEnumeration_cases` goes back from an
outcome to what has happened. -/
namespace HostInventory.Enumeration

variable {Env Cache Data : Type}

/-! ### The algebra -/

/-- A held instance once it is told whether its identity is listed. -/
def told (k : Kind Env Cache Data) (listing : List Identity)
    (entry : Identity × Instance Data) : Identity × Instance Data :=
  (entry.1,
    { entry.2 with data := (k.setPresent (decide (entry.1 ∈ listing)) entry.2.data).value })

/-- What a policy leaves of the held instances. -/
def survivors (e : Enumeration Cache Data) (k : Kind Env Cache Data) (listing : List Identity) :
    List (Identity × Instance Data) :=
  match k.policy with
  | .remove => e.held.filter fun entry => entry.1 ∈ listing
  | .markStale => e.held.map (told k listing)
  | .retain => e.held

/-- The held identities that are not listed. -/
def vanished (e : Enumeration Cache Data) (listing : List Identity) : List Identity :=
  e.ids.filter fun id => id ∉ listing

/-- The calls by which a policy deals with the held instances. -/
def policyCalls (e : Enumeration Cache Data) (k : Kind Env Cache Data) (listing : List Identity) :
    List Call :=
  match k.policy with
  | .remove => (e.held.filter fun entry => entry.1 ∉ listing).map fun entry =>
      .cleanup entry.2.handle
  | .markStale => e.held.map fun entry =>
      if entry.1 ∈ listing then .present entry.2.subject else .absent entry.2.subject
  | .retain => []

/-- The report on a listing. -/
def reconciliation (e : Enumeration Cache Data) (k : Kind Env Cache Data) (env : Env)
    (cache : Cache) (listing : List Identity) : Reconciliation where
  added := (e.newcomers listing).filter (k.builds env cache)
  removed := if k.policy = .remove then e.vanished listing else []
  stale := if k.policy = .markStale then e.vanished listing else []
  skipped := (e.newcomers listing).filter fun id => !k.builds env cache id

/-- The enumeration after a listing. -/
def reconciled (e : Enumeration Cache Data) (k : Kind Env Cache Data) (env : Env) (cache : Cache)
    (listing : List Identity) : Enumeration Cache Data :=
  { e with cache, held := e.survivors k listing ++ k.built env cache (e.newcomers listing) }

/-! ### Taking out -/

theorem remove_value (e : Enumeration Cache Data) (id : Identity) :
    (e.remove id).value =
      .ok (e.isHeld id, { e with held := e.held.filter fun entry => entry.1 ≠ id }) := by
  unfold remove
  cases hf : e.find? id with
  | none =>
    have hid : id ∉ e.ids := by
      intro h
      simpa [hf] using find?_isSome.2 h
    have hheld : e.held.filter (fun entry => entry.1 ≠ id) = e.held := by
      rw [List.filter_eq_self]
      intro entry hm
      have hne : entry.1 ≠ id := by
        rintro rfl
        exact hid (mem_ids.2 ⟨entry.2, hm⟩)
      simpa using hne
    have hb : e.isHeld id = false := by simpa using mt isHeld_iff.1 hid
    rw [hheld, hb]
    rfl
  | some i =>
    have hb : e.isHeld id = true := isHeld_iff.2 (find?_isSome.1 (by rw [hf]; rfl))
    rw [hb]
    rfl

theorem remove_calls (e : Enumeration Cache Data) (id : Identity) :
    (e.remove id).calls = (e.find? id).toList.map fun i => Call.cleanup i.handle := by
  unfold remove
  cases e.find? id <;> rfl

theorem WellFormed.filter {e : Enumeration Cache Data} (h : e.WellFormed)
    (p : Identity × Instance Data → Bool) : WellFormed { e with held := e.held.filter p } where
  distinct := h.distinct.sublist (List.filter_sublist.map _)
  named := fun entry hm => h.named entry (List.mem_filter.1 hm).1
  whole := h.whole

theorem removeAll_value (k : Kind Env Cache Data) (ids : List Identity)
    (e : Enumeration Cache Data) :
    (removeAll k ids e).value =
      .ok { e with held := e.held.filter fun entry => entry.1 ∉ ids } := by
  induction ids generalizing e with
  | nil => simp [removeAll]
  | cons id rest ih =>
    simp only [removeAll, Outcome.value_say_bind,
      Outcome.value_bind_of_ok (remove_value e id), ih, List.filter_filter]
    congr 3
    funext entry
    by_cases hid : entry.1 = id <;> simp [hid]

/-- Taking out one identity leaves what is found under the others. -/
theorem find?_filter_ne (e : Enumeration Cache Data) {id x : Identity} (h : x ≠ id) :
    find? { e with held := e.held.filter fun entry => entry.1 ≠ id } x = e.find? x := by
  rw [find?, find?, List.find?_filter]
  congr 2
  funext entry
  by_cases hx : entry.1 = x <;> simp [hx, h]

/-- What is found under the identities is released, in order. -/
theorem removeAll_calls (k : Kind Env Cache Data) {ids : List Identity} (hnd : ids.Nodup)
    (e : Enumeration Cache Data) : (removeAll k ids e).calls =
      ids.filterMap fun id => (e.find? id).map fun i => Call.cleanup i.handle := by
  induction ids generalizing e with
  | nil => rfl
  | cons id rest ih =>
    obtain ⟨hid, hrest⟩ := List.nodup_cons.1 hnd
    have hfind : (rest.filterMap fun x =>
        (find? { e with held := e.held.filter fun entry => entry.1 ≠ id } x).map
          fun i => Call.cleanup i.handle) =
        rest.filterMap fun x => (e.find? x).map fun i => Call.cleanup i.handle :=
      List.filterMap_congr fun x hx => by rw [find?_filter_ne e (ne_of_mem_of_not_mem hx hid)]
    simp only [removeAll, Outcome.calls_say_bind, Outcome.calls_bind_of_ok (remove_value e id),
      remove_calls, ih hrest, hfind, List.filterMap_cons]
    cases e.find? id <;> rfl

/-- Of the identities that are held, each leads to the instance in its own entry. -/
theorem WellFormed.filterMap_find? {e : Enumeration Cache Data} (h : e.WellFormed) {α : Type}
    (f : Instance Data → α) (p : Identity → Bool) :
    ((e.ids.filter p).filterMap fun id => (e.find? id).map f) =
      (e.held.filter fun entry => p entry.1).map fun entry => f entry.2 := by
  rw [ids, List.filter_map, List.filterMap_map, ← List.filterMap_eq_map']
  refine List.filterMap_congr fun entry hm => ?_
  simp only [Function.comp_apply, h.find?_eq_some (List.mem_filter.1 hm).1, Option.map_some]

/-- So does a single identity, if it is held. -/
theorem WellFormed.map_find? {e : Enumeration Cache Data} (h : e.WellFormed) {α : Type}
    (f : Instance Data → α) (id : Identity) : ((e.find? id).map f).toList =
      (e.held.filter fun entry => entry.1 = id).map fun entry => f entry.2 := by
  have hone : e.ids.filter (fun x => x = id) = if id ∈ e.ids then [id] else [] := by
    rw [List.filter_eq, h.distinct.count]
    split <;> rfl
  rw [← h.filterMap_find? f fun x => x = id, hone]
  split
  · cases hf : e.find? id <;> simp [hf]
  · next hid => rw [find?_eq_none hid]; rfl

/-! ### Telling -/

theorem markAll_value (k : Kind Env Cache Data) (seen : List Identity)
    (held : List (Identity × Instance Data)) :
    (markAll k seen held).value = .ok (held.map (told k seen)) := by
  induction held with
  | nil => rfl
  | cons entry rest ih =>
    simp only [markAll, Outcome.calling_bind, Outcome.value_calling, Outcome.value_ofLogged_bind,
      Outcome.value_bind_of_ok ih, Outcome.value_pure, List.map_cons, told, List.contains_eq_mem]

theorem markAll_calls (k : Kind Env Cache Data) (seen : List Identity)
    (held : List (Identity × Instance Data)) :
    (markAll k seen held).calls = held.map fun entry =>
      if entry.1 ∈ seen then Call.present entry.2.subject else Call.absent entry.2.subject := by
  induction held with
  | nil => rfl
  | cons entry rest ih =>
    simp only [markAll, Outcome.calling_bind, Outcome.calls_calling, Outcome.calls_ofLogged_bind,
      Outcome.calls_bind_of_ok (markAll_value k seen rest), ih, Outcome.calls_pure,
      List.append_nil, List.map_cons, List.contains_eq_mem, decide_eq_true_eq]

/-! ### Adding -/

/-- New entries with distinct identities, none of them held, are all added, without a call. -/
theorem addAll_eq (k : Kind Env Cache Data) {new : List (Identity × Instance Data)}
    (hnamed : ∀ entry ∈ new, entry.2.subject = .named entry.1) (hnd : (new.map Prod.fst).Nodup)
    {e : Enumeration Cache Data} (hp : e.phase ≠ .cleanedUp)
    (hfree : ∀ entry ∈ new, entry.1 ∉ e.ids) :
    (addAll k (new.map Prod.snd) e).value =
        .ok (new.map Prod.fst, { e with held := e.held ++ new }) ∧
      (addAll k (new.map Prod.snd) e).calls = [] := by
  induction new generalizing e with
  | nil => simp [addAll]
  | cons entry rest ih =>
    obtain ⟨id, i⟩ := entry
    obtain ⟨hid, hrest⟩ := List.nodup_cons.1 hnd
    have hi : i.subject = .named id := hnamed (id, i) List.mem_cons_self
    have hb : e.isHeld id = false := by
      simpa using mt isHeld_iff.1 (hfree (id, i) List.mem_cons_self)
    have hfree' : ∀ entry ∈ rest, entry.1 ∉ ids { e with held := e.held ++ [(id, i)] } := by
      intro entry hm hin
      obtain ⟨j, hj⟩ := mem_ids.1 hin
      rcases List.mem_append.1 hj with hj | hj
      · exact hfree entry (List.mem_cons_of_mem _ hm) (mem_ids.2 ⟨j, hj⟩)
      · have heq : entry.1 = id := (Prod.mk.inj (List.mem_singleton.1 hj)).1
        exact hid (List.mem_map.2 ⟨entry, hm, heq⟩)
    obtain ⟨hv, hc⟩ := ih (fun entry hm => hnamed entry (List.mem_cons_of_mem _ hm)) hrest
      (e := { e with held := e.held ++ [(id, i)] }) hp hfree'
    simp only [List.map_cons, addAll, add_of_not_isHeld hp hi hb, Outcome.ofExcept_ok, pure_bind,
      hi, Outcome.value_say_bind, Outcome.calls_say_bind, Outcome.value_bind_of_ok hv,
      Outcome.calls_bind_of_ok hv, hc, Outcome.value_pure, Outcome.calls_pure, List.append_assoc,
      List.singleton_append, List.nil_append, and_self]

/-! ### The whole reconciliation -/

/-- The identities seen are the listed ones. -/
theorem mem_surveyed_seen (e : Enumeration Cache Data) (k : Kind Env Cache Data) (env : Env)
    (listing : List Identity) (id : Identity) :
    id ∈ (e.surveyed k env listing {}).seen ↔ id ∈ listing := by
  simp only [surveyed, unseen_nil, List.append_nil, List.mem_reverse, List.mem_eraseDups]

/-- The middle of a reconciliation, in which the policy deals with the held instances. -/
def applyPolicy (e : Enumeration Cache Data) (k : Kind Env Cache Data) (seen : List Identity) :
    Outcome (List Identity × List Identity × Enumeration Cache Data) :=
  let vanished := e.ids.filter fun id => !seen.contains id
  match k.policy with
  | .remove => do
    let e ← removeAll k vanished e
    pure (vanished, [], e)
  | .markStale => do
    let held ← markAll k seen e.held
    pure ([], vanished, { e with held })
  | .retain => pure ([], [], e)

theorem reconcile_eq_bind (e : Enumeration Cache Data) (k : Kind Env Cache Data) (env : Env)
    (listing : List Identity) :
    reconcile e k env listing = (do
      let s ← survey e k env listing {}
      let (removed, stale, e) ← e.applyPolicy k s.seen
      let (added, e) ← addAll k s.built.reverse e
      return ({ added, removed, stale, skipped := s.skipped.reverse }, e)) := by
  unfold reconcile applyPolicy
  cases k.policy <;> simp only [bind_assoc, pure_bind]

section Policy
variable (e : Enumeration Cache Data) (k : Kind Env Cache Data) {seen listing : List Identity}
  (hseen : ∀ id, id ∈ seen ↔ id ∈ listing)
include hseen

theorem filter_not_seen : e.ids.filter (fun id => !seen.contains id) = e.vanished listing := by
  apply List.filter_congr
  intro id _
  simp [hseen id]

theorem applyPolicy_value : (e.applyPolicy k seen).value =
    .ok (if k.policy = .remove then e.vanished listing else [],
      if k.policy = .markStale then e.vanished listing else [],
      { e with held := e.survivors k listing }) := by
  have hv := filter_not_seen e hseen
  cases hpol : k.policy with
  | remove =>
    have hheld : (e.held.filter fun entry => entry.1 ∉ e.vanished listing) =
        e.held.filter fun entry => entry.1 ∈ listing := by
      apply List.filter_congr
      intro entry hm
      have hid : entry.1 ∈ e.ids := mem_ids.2 ⟨entry.2, hm⟩
      simp [vanished, hid]
    simp only [applyPolicy, hpol, survivors, hv, Outcome.value_bind_of_ok (removeAll_value k _ e),
      Outcome.value_pure, hheld, if_true, reduceCtorEq, if_false]
  | markStale =>
    have htold : e.held.map (told k seen) = e.held.map (told k listing) :=
      List.map_congr_left fun entry _ => by simp [told, hseen entry.1]
    simp only [applyPolicy, hpol, survivors, hv, Outcome.value_bind_of_ok (markAll_value k _ e.held),
      Outcome.value_pure, htold, if_true, reduceCtorEq, if_false]
  | retain =>
    simp only [applyPolicy, hpol, survivors, Outcome.value_pure, reduceCtorEq, if_false]

theorem applyPolicy_calls (h : e.WellFormed) :
    (e.applyPolicy k seen).calls = e.policyCalls k listing := by
  have hv := filter_not_seen e hseen
  cases hpol : k.policy with
  | remove =>
    have hc : (removeAll k (e.vanished listing) e).calls =
        (e.held.filter fun entry => entry.1 ∉ listing).map fun entry =>
          Call.cleanup entry.2.handle :=
      (removeAll_calls k (h.distinct.filter _) e).trans (h.filterMap_find? _ _)
    simp only [applyPolicy, hpol, policyCalls, hv,
      Outcome.calls_bind_of_ok (removeAll_value k _ e), hc, Outcome.calls_pure, List.append_nil]
  | markStale =>
    simp only [applyPolicy, hpol, policyCalls, Outcome.calls_bind_of_ok (markAll_value k _ e.held),
      markAll_calls, hseen, Outcome.calls_pure, List.append_nil]
  | retain =>
    simp only [applyPolicy, hpol, policyCalls, Outcome.calls_pure]

end Policy

/-- Removal keeps the identities that are listed, and the other policies keep all. -/
theorem map_fst_survivors (e : Enumeration Cache Data) (k : Kind Env Cache Data)
    (listing : List Identity) : (e.survivors k listing).map Prod.fst =
      if k.policy = .remove then e.ids.filter fun id => id ∈ listing else e.ids := by
  cases hpol : k.policy <;> simp only [survivors, hpol, if_true, reduceCtorEq, if_false]
  case remove =>
    rw [ids, List.filter_map]
    rfl
  case markStale =>
    rw [List.map_map]
    rfl
  case retain => rfl

/-- The identities that survive were held. -/
theorem mem_ids_of_mem_survivors {e : Enumeration Cache Data} {k : Kind Env Cache Data}
    {listing : List Identity} {id : Identity} {i : Instance Data}
    (h : (id, i) ∈ e.survivors k listing) : id ∈ e.ids := by
  have hid := List.mem_map_of_mem (f := Prod.fst) h
  rw [map_fst_survivors] at hid
  split at hid
  · exact (List.mem_filter.1 hid).1
  · exact hid

/-- A policy releases instances or tells them whether they are listed, and asks for nothing else. -/
theorem mem_policyCalls {e : Enumeration Cache Data} {k : Kind Env Cache Data}
    {listing : List Identity} {c : Call} (h : c ∈ e.policyCalls k listing) :
    (∃ a, c = .cleanup a) ∨ ∃ s, c = .present s ∨ c = .absent s := by
  cases hpol : k.policy <;> simp only [policyCalls, hpol] at h
  case remove =>
    obtain ⟨entry, -, rfl⟩ := List.mem_map.1 h
    exact .inl ⟨_, rfl⟩
  case markStale =>
    obtain ⟨entry, -, rfl⟩ := List.mem_map.1 h
    refine .inr ⟨entry.2.subject, ?_⟩
    split
    · exact .inl rfl
    · exact .inr rfl
  case retain => exact absurd h List.not_mem_nil

section Names
variable {e : Enumeration Cache Data} {k : Kind Env Cache Data} {env : Env}
  {listing : List Identity} (hp : e.phase ≠ .cleanedUp)
  (hn : k.Names env e.cache (e.newcomers listing))
include hp hn

/-- Behind what survives, everything that was built is added. -/
theorem addAll_built :
    (addAll k (e.surveyed k env listing {}).built.reverse
        { e with held := e.survivors k listing }).value =
        .ok ((e.newcomers listing).filter (k.builds env e.cache),
          e.reconciled k env e.cache listing) ∧
      (addAll k (e.surveyed k env listing {}).built.reverse
        { e with held := e.survivors k listing }).calls = [] := by
  have hbuilt : (e.surveyed k env listing {}).built.reverse =
      (k.built env e.cache (e.newcomers listing)).map Prod.snd := by
    simp only [surveyed, unseenNewcomers_nil, List.append_nil, List.reverse_reverse]
  have hfst := map_fst_built k env e.cache (e.newcomers listing)
  have hnd : ((k.built env e.cache (e.newcomers listing)).map Prod.fst).Nodup := by
    rw [hfst]
    exact (nodup_newcomers e listing).filter _
  have hfree : ∀ entry ∈ k.built env e.cache (e.newcomers listing),
      entry.1 ∉ ids { e with held := e.survivors k listing } := by
    intro entry hm hin
    have hnew : entry.1 ∈ e.newcomers listing := by
      have := List.mem_map_of_mem (f := Prod.fst) hm
      rw [hfst] at this
      exact (List.mem_filter.1 this).1
    obtain ⟨i, hi⟩ := mem_ids.1 hin
    exact (mem_newcomers.1 hnew).2 (mem_ids_of_mem_survivors hi)
  rw [hbuilt, ← hfst]
  exact addAll_eq k hn.subject_of_built hnd hp hfree

theorem reconcile_value :
    (reconcile e k env listing).value =
      .ok (e.reconciliation k env e.cache listing, e.reconciled k env e.cache listing) := by
  have hs := (survey_eq (k := k) listing {} (by rwa [unseenNewcomers_nil])).1
  have hpol := applyPolicy_value e k (mem_surveyed_seen e k env listing)
  rw [reconcile_eq_bind, Outcome.value_bind_of_ok hs, Outcome.value_bind_of_ok hpol,
    Outcome.value_bind_of_ok (addAll_built hp hn).1]
  simp only [Outcome.value_pure, reconciliation, surveyed, unseenNewcomers_nil, List.append_nil,
    List.reverse_reverse]

theorem reconcile_calls (h : e.WellFormed) :
    (reconcile e k env listing).calls =
      (e.newcomers listing).map Call.instantiate ++ e.policyCalls k listing := by
  have hs := survey_eq (k := k) listing {} (by rwa [unseenNewcomers_nil])
  have hseen := mem_surveyed_seen e k env listing
  have hadd := addAll_built hp hn
  rw [reconcile_eq_bind, Outcome.calls_bind_of_ok hs.1,
    Outcome.calls_bind_of_ok (applyPolicy_value e k hseen), Outcome.calls_bind_of_ok hadd.1,
    hs.2, applyPolicy_calls e k hseen h, hadd.2, unseenNewcomers_nil, Outcome.calls_pure,
    List.append_nil, List.append_nil]

end Names

/-- A reconciliation that ends well has built nothing under another identity than asked for. -/
theorem names_of_reconcile_ok {e : Enumeration Cache Data} {k : Kind Env Cache Data} {env : Env}
    {listing : List Identity} {x : Reconciliation × Enumeration Cache Data}
    (h : (reconcile e k env listing).value = .ok x) :
    k.Names env e.cache (e.newcomers listing) := by
  rw [reconcile_eq_bind] at h
  obtain ⟨s, hs, -⟩ := Outcome.value_bind_eq_ok.1 h
  rw [← unseenNewcomers_nil]
  exact names_of_survey_ok hs

/-! ### Matching what is held to what is there -/

/-- A listing that fails ends the operation, and leaves nothing but a cache. -/
theorem updateEnumeration_of_error {e : Enumeration Cache Data} {k : Kind Env Cache Data} {env : Env}
    {f : Failure} {cache : Cache} (hp : e.phase = .initialized)
    (hd : (k.discover env e.cache).value = .error (f, cache)) :
    (e.updateEnumeration k env).value = .ok (.error f, { e with cache }) ∧
      (e.updateEnumeration k env).calls = [.discover] := by
  simp [updateEnumeration, require_eq_ok.2 hp, hd]

section Listing
variable {e : Enumeration Cache Data} {k : Kind Env Cache Data} {env : Env}
  {listing : List Identity} {cache : Cache} (hp : e.phase = .initialized)
  (hd : (k.discover env e.cache).value = .ok (listing, cache))
include hp hd

theorem updateEnumeration_eq_bind :
    (e.updateEnumeration k env).value = (do
      let (r, e) ← reconcile { e with cache } k env listing
      return (Except.ok r, e) :
        Outcome (Except Failure Reconciliation × Enumeration Cache Data)).value ∧
    (e.updateEnumeration k env).calls = Call.discover :: (do
      let (r, e) ← reconcile { e with cache } k env listing
      return (Except.ok r, e) :
        Outcome (Except Failure Reconciliation × Enumeration Cache Data)).calls := by
  simp [updateEnumeration, require_eq_ok.2 hp, hd]

variable (hn : k.Names env cache (e.newcomers listing))
include hn

/-- A listing that succeeds is reconciled. -/
theorem updateEnumeration_of_ok :
    (e.updateEnumeration k env).value =
      .ok (.ok (e.reconciliation k env cache listing), e.reconciled k env cache listing) := by
  have hr := reconcile_value (e := { e with cache }) (by simp [hp]) hn
  rw [(updateEnumeration_eq_bind hp hd).1, Outcome.value_bind_of_ok hr]
  rfl

theorem updateEnumeration_calls (h : e.WellFormed) :
    (e.updateEnumeration k env).calls =
      .discover :: ((e.newcomers listing).map Call.instantiate ++ e.policyCalls k listing) := by
  have hr := reconcile_value (e := { e with cache }) (by simp [hp]) hn
  have hc := reconcile_calls (e := { e with cache }) (by simp [hp]) hn ⟨h.distinct, h.named, h.whole⟩
  rw [(updateEnumeration_eq_bind hp hd).2, Outcome.calls_bind_of_ok hr, hc]
  simp only [Outcome.calls_pure, List.append_nil]
  rfl

end Listing

/-- What has happened when matching ends without a fault. -/
theorem updateEnumeration_cases {e e' : Enumeration Cache Data} {k : Kind Env Cache Data} {env : Env}
    {r : Except Failure Reconciliation} (h : (e.updateEnumeration k env).value = .ok (r, e')) :
    e.phase = .initialized ∧
      ((∃ f cache, (k.discover env e.cache).value = .error (f, cache) ∧ r = .error f ∧
        e' = { e with cache }) ∨
      ∃ listing cache, (k.discover env e.cache).value = .ok (listing, cache) ∧
        k.Names env cache (e.newcomers listing) ∧
        r = .ok (e.reconciliation k env cache listing) ∧ e' = e.reconciled k env cache listing) := by
  have hp : e.phase = .initialized := by
    unfold updateEnumeration at h
    obtain ⟨_, hreq, -⟩ := Outcome.value_bind_eq_ok.1 h
    exact require_eq_ok.1 (by simpa using hreq)
  refine ⟨hp, ?_⟩
  cases hd : (k.discover env e.cache).value with
  | error left =>
    obtain ⟨f, cache⟩ := left
    rw [(updateEnumeration_of_error hp hd).1] at h
    obtain ⟨rfl, rfl⟩ := Prod.mk.inj (Except.ok.inj h)
    exact .inl ⟨f, cache, rfl, rfl, rfl⟩
  | ok found =>
    obtain ⟨listing, cache⟩ := found
    have hn : k.Names env cache (e.newcomers listing) := by
      rw [(updateEnumeration_eq_bind hp hd).1] at h
      obtain ⟨x, hx, -⟩ := Outcome.value_bind_eq_ok.1 h
      exact names_of_reconcile_ok hx
    rw [updateEnumeration_of_ok hp hd hn] at h
    obtain ⟨rfl, rfl⟩ := Prod.mk.inj (Except.ok.inj h)
    exact .inr ⟨listing, cache, rfl, hn, rfl, rfl⟩

/-- **A listing that succeeds is reconciled by filters.** With `new` for the listed identities
that are not held, each at its first occurrence, those of `new` that can be built are added
behind what survives, in their order, and the others are skipped. What is not listed is taken
out or told to be absent as the policy says, and what survives is as it was before. -/
theorem updateEnumeration_eq_filters {e : Enumeration Cache Data} {k : Kind Env Cache Data}
    {env : Env} {listing : List Identity} {cache : Cache} (hp : e.phase = .initialized)
    (hd : (k.discover env e.cache).value = .ok (listing, cache))
    (hn : ∀ id ∈ listing, ∀ i, k.instantiate env cache id = .ok i → i.subject = .named id) :
    let new := listing.eraseDups.filter fun id => id ∉ e.ids
    (e.updateEnumeration k env).value = .ok (
      .ok {
        added := new.filter fun id => (k.instantiate env cache id).toOption.isSome
        skipped := new.filter fun id => (k.instantiate env cache id).toOption.isNone
        removed := if k.policy = .remove then e.ids.filter fun id => id ∉ listing else []
        stale := if k.policy = .markStale then e.ids.filter fun id => id ∉ listing else [] },
      { e with
        cache
        held :=
          (match k.policy with
            | .remove => e.held.filter fun entry => entry.1 ∈ listing
            | .markStale => e.held.map fun (id, i) =>
                (id, { i with data := (k.setPresent (decide (id ∈ listing)) i.data).value })
            | .retain => e.held) ++
          new.filterMap fun id => (k.instantiate env cache id).toOption.map fun i => (id, i) }) := by
  intro new
  have hnew : e.newcomers listing = new := by
    apply List.filter_congr
    intro id _
    by_cases hid : id ∈ e.ids
    · simp [hid, isHeld_iff.2 hid]
    · simp [hid, mt isHeld_iff.1 hid]
  have hnames : k.Names env cache (e.newcomers listing) :=
    fun id hid => hn id (mem_newcomers.1 hid).1
  rw [updateEnumeration_of_ok hp hd hnames, reconciliation, reconciled, hnew]
  simp only [Kind.builds, Option.not_isSome]
  rfl

/-- `b` has vanished, `d` is listed twice and cannot be built, `c` is new; `a` keeps its failure. -/
theorem updateEnumeration_eq_filters_stale :
    let a : Instance Probe.Data := ⟨.named ⟨"a"⟩, some "a disappeared", { refreshed := 3 }, 0⟩
    let b : Instance Probe.Data := Instance.fresh ⟨"b"⟩ {}
    let e : Enumeration Unit Probe.Data :=
      { phase := .initialized, held := [(⟨"a"⟩, a), (⟨"b"⟩, b)], cache := () }
    let script : Probe.Script := { live := [⟨"d"⟩, ⟨"c"⟩, ⟨"d"⟩, ⟨"a"⟩], broken := [⟨"d"⟩] }
    let k := Probe.kind .markStale false
    e.phase = .initialized ∧ (k.discover script e.cache).value = .ok (script.live, ()) ∧
    (∀ id ∈ script.live, ∀ i, k.instantiate script () id = .ok i → i.subject = .named id) ∧
    (e.updateEnumeration k script).value = .ok (
      .ok { added := [⟨"c"⟩], stale := [⟨"b"⟩], skipped := [⟨"d"⟩] },
      { e with held := [(⟨"a"⟩, a), (⟨"b"⟩, { b with data := { present := false } }),
        (⟨"c"⟩, Instance.fresh ⟨"c"⟩ {})] }) := by
  intro a b e script k
  have hn : ∀ id ∈ script.live, ∀ i, k.instantiate script () id = .ok i → i.subject = .named id := by
    intro id _ i hi
    simp only [k, Probe.kind] at hi
    split at hi
    · cases hi
    · cases hi
      rfl
  have hd : (k.discover script e.cache).value = .ok (script.live, ()) := rfl
  have h := updateEnumeration_eq_filters (e := e) rfl hd hn
  exact ⟨rfl, hd, hn, h.trans rfl⟩

end HostInventory.Enumeration
