import HostInventory.Proofs.Enumeration.Map

/-! Updates of an unchanged environment.

After an update what is held matches what was listed (`Matches`): a listing of the same
identities adds nothing, takes nothing out and tells nothing new. If a kind finds again what it
has found (`Kind.Steady`), then a second update makes of every instance that it looks at with
success what the kind settles on, and leaves everything else alone (`Kind.Steady.update_again`).
What has settled settles no further (`map_settled_settled`), so a third update changes nothing. -/
namespace HostInventory.Enumeration

variable {Env Cache Data : Type}

/-- Nothing is added, taken out or skipped. -/
structure Reconciliation.Quiet (r : Reconciliation) : Prop where
  added : r.added = []
  removed : r.removed = []
  skipped : r.skipped = []

/-- The data knows whether its identity is listed: to be told so changes nothing. -/
def Kind.Knows (k : Kind Env Cache Data) (present : Bool) (d : Data) : Prop :=
  (k.setPresent present d).value = d

/-- The instance once the environment has been looked at for a second time. -/
def Instance.settled (settle : Data → Data) (i : Instance Data) : Instance Data :=
  if i.failure = none then { i with data := settle i.data } else i

/-- What is listed and found in an environment is listed and found again, where data that has
been found twice is as `settle` says. -/
structure Kind.Steady (k : Kind Env Cache Data) (env : Env) (settle : Data → Data) : Prop where
  listing : ∀ cache cache' found, (k.discover env cache).value = .ok found →
    (k.discover env cache').value = .ok found
  reliable : k.Reliable
  built : ∀ cache id i, k.instantiate env cache id = .ok i → k.Knows true i.data
  told : ∀ present d, k.Knows present (k.setPresent present d).value
  found : ∀ cache i d present, (k.refresh env cache i).value = .ok (.ok d) →
    k.Knows present i.data → k.Knows present d
  failed : ∀ cache i f d present, (k.refresh env cache i).value = .ok (.error (f, d)) →
    k.Knows present i.data → k.Knows present (k.afterFailure d)
  foundAgain : ∀ cache i d, (k.refresh env cache i).value = .ok (.ok d) →
    (k.refresh env cache { i with data := d }).value = .ok (.ok (settle d))
  failedAgain : ∀ cache i f d, (k.refresh env cache i).value = .ok (.error (f, d)) →
    (k.refresh env cache { i with data := k.afterFailure d }).value =
      .ok (.error (f, k.afterFailure d))
  afterFailure_afterFailure : ∀ d, k.afterFailure (k.afterFailure d) = k.afterFailure d

/-- What has settled settles no further. -/
theorem map_settled_settled {settle : Data → Data} (h : ∀ d, settle (settle d) = settle d)
    (e : Enumeration Cache Data) :
    (e.map (Instance.settled settle)).map (Instance.settled settle) =
      e.map (Instance.settled settle) := by
  rw [map_map]
  refine map_congr fun i _ => ?_
  by_cases hf : i.failure = none <;> simp only [Instance.settled, hf, if_true, if_false, h]

/-! ### What is held and what is listed -/

/-- What is held is what a policy leaves when it has dealt with the listing already. -/
structure Matches (e : Enumeration Cache Data) (k : Kind Env Cache Data)
    (listing : List Identity) : Prop where
  held : ∀ id ∈ listing, id ∈ e.ids
  listed : k.policy = .remove → ∀ id ∈ e.ids, id ∈ listing
  knows : k.policy = .markStale → ∀ entry ∈ e.held, k.Knows (decide (entry.1 ∈ listing)) entry.2.data

namespace Matches

variable {e : Enumeration Cache Data} {k : Kind Env Cache Data} {listing : List Identity}

theorem newcomers_eq (h : e.Matches k listing) : e.newcomers listing = [] :=
  List.eq_nil_iff_forall_not_mem.2 fun id hid =>
    (mem_newcomers.1 hid).2 (h.held id (mem_newcomers.1 hid).1)

theorem survivors_eq (h : e.Matches k listing) : e.survivors k listing = e.held := by
  cases hpol : k.policy <;> simp only [survivors, hpol]
  case remove =>
    rw [List.filter_eq_self]
    intro entry hm
    simpa using h.listed hpol entry.1 (mem_ids.2 ⟨entry.2, hm⟩)
  case markStale =>
    have hsame : ∀ entry ∈ e.held, told k listing entry = entry := by
      intro entry hm
      rw [told, h.knows hpol entry hm]
    rw [List.map_congr_left hsame, List.map_id']

/-- To deal with the listing again changes nothing. -/
theorem reconciled_eq (h : e.Matches k listing) (env : Env) :
    e.reconciled k env e.cache listing = e := by
  rw [reconciled, h.newcomers_eq, h.survivors_eq]
  show { e with held := e.held ++ [] } = e
  rw [List.append_nil]

theorem reconciliation_quiet (h : e.Matches k listing) (env : Env) (cache : Cache) :
    (e.reconciliation k env cache listing).Quiet where
  added := by
    rw [reconciliation, h.newcomers_eq]
    rfl
  removed := by
    simp only [reconciliation]
    split
    · next hpol =>
      rw [vanished, List.filter_eq_nil_iff]
      intro id hid
      simpa using h.listed hpol id hid
    · rfl
  skipped := by
    rw [reconciliation, h.newcomers_eq]
    rfl

end Matches

namespace Kind.Steady

variable {k : Kind Env Cache Data} {env : Env} {settle : Data → Data} (h : k.Steady env settle)
include h

theorem matches_reconciled (e : Enumeration Cache Data) {cache new : Cache}
    {listing : List Identity} (hd : (k.discover env cache).value = .ok (listing, new)) :
    (e.reconciled k env new listing).Matches k listing where
  held := fun id hid => mem_ids_reconciled hid (h.reliable.builds hd id hid)
  listed := fun hpol _ hid => mem_listing_of_mem_ids_reconciled hpol hid
  knows := fun hpol entry hm => by
    rcases List.mem_append.1 hm with hm | hm
    · simp only [survivors, hpol] at hm
      obtain ⟨old, -, rfl⟩ := List.mem_map.1 hm
      exact h.told _ old.2.data
    · obtain ⟨hid, hi⟩ := mem_built.1 hm
      rw [decide_eq_true (mem_newcomers.1 hid).1]
      exact h.built new entry.1 entry.2 hi

/-! ### A second look -/

/-- A look at an instance, whatever it finds, tells it nothing about its presence. -/
theorem knows_lookedAt {cache : Cache} {i : Instance Data} {present : Bool}
    (hi : k.Knows present i.data) : k.Knows present (k.lookedAt env cache i).2.data := by
  cases hr : (k.refresh env cache i.reset).value with
  | error fault =>
    rw [lookedAt_of_fault hr]
    exact hi
  | ok r =>
    cases r with
    | ok d =>
      rw [lookedAt_of_ok hr]
      exact h.found cache i.reset d present hr hi
    | error left =>
      rw [lookedAt_of_error hr]
      exact h.failed cache i.reset left.1 left.2 present hr hi

theorem matches_refreshed {e : Enumeration Cache Data} {listing : List Identity}
    (he : e.Matches k listing) : (e.refreshed k env).Matches k listing where
  held := by
    rw [refreshed_ids]
    exact he.held
  listed := by
    rw [refreshed_ids]
    exact he.listed
  knows := fun hpol entry hm => by
    obtain ⟨old, hold, rfl⟩ := List.mem_map.1 hm
    exact h.knows_lookedAt (he.knows hpol old hold)

/-- An instance that has been looked at settles when it is looked at again. -/
theorem lookedAt_again {cache : Cache} {i : Instance Data} (hf : k.Faultless env cache i) :
    let j := (k.lookedAt env cache i).2
    k.Faultless env cache j ∧ (k.lookedAt env cache j).2 = j.settled settle := by
  obtain ⟨r, hr⟩ := hf
  cases r with
  | ok d =>
    have hagain : (k.refresh env cache
        (Instance.reset { i.reset with data := d })).value = .ok (.ok (settle d)) :=
      h.foundAgain cache i.reset d hr
    rw [lookedAt_of_ok hr]
    exact ⟨⟨_, hagain⟩, congrArg Prod.snd (lookedAt_of_ok hagain)⟩
  | error left =>
    obtain ⟨f, d⟩ := left
    have hagain : (k.refresh env cache
        (Instance.capture { i with data := k.afterFailure d } f).reset).value =
          .ok (.error (f, k.afterFailure d)) :=
      h.failedAgain cache i.reset f d hr
    have hkept : k.afterFailure (k.afterFailure d) = k.afterFailure d :=
      h.afterFailure_afterFailure d
    rw [lookedAt_of_error hr]
    refine ⟨⟨_, hagain⟩, ?_⟩
    rw [lookedAt_of_error hagain]
    simp only [Instance.capture, hkept]
    rfl

/-- What a second refresh makes of an enumeration. -/
theorem refreshed_again {e : Enumeration Cache Data}
    (hf : ∀ i ∈ e.instances, k.Faultless env e.cache i) :
    (∀ i ∈ (e.refreshed k env).instances, k.Faultless env e.cache i) ∧
      (e.refreshed k env).refreshed k env =
        (e.refreshed k env).map (Instance.settled settle) := by
  have hagain : ∀ i ∈ (e.refreshed k env).instances, k.Faultless env e.cache i ∧
      (k.lookedAt env e.cache i).2 = i.settled settle := by
    intro i hi
    obtain ⟨j, hj, rfl⟩ := mem_instances_refreshed hi
    exact h.lookedAt_again (hf j hj)
  exact ⟨fun i hi => (hagain i hi).1, map_congr fun i hi => (hagain i hi).2⟩

/-- An update of what matches the listing is a refresh. -/
theorem update_of_matches {e : Enumeration Cache Data} {listing : List Identity}
    (hp : e.phase = .initialized) (hd : (k.discover env e.cache).value = .ok (listing, e.cache))
    (he : e.Matches k listing) (hf : ∀ i ∈ e.instances, k.Faultless env e.cache i) :
    ∃ r, (e.update k env true).value = .ok (.ok r, e.refreshed k env) ∧
      r.reconciliation.Quiet := by
  have hsame := he.reconciled_eq env
  have hv := update_with_refresh hp hd (h.reliable.truthful _ _ _ _ hd) (by rwa [hsame])
  rw [hsame] at hv
  exact ⟨_, hv, he.reconciliation_quiet env e.cache⟩

/-- **A second update settles what it finds and changes nothing else.** -/
theorem update_again {e e₁ : Enumeration Cache Data} {r₁ : UpdateReport}
    (hv : (e.update k env true).value = .ok (.ok r₁, e₁)) :
    ∃ r₂, (e₁.update k env true).value = .ok (.ok r₂, e₁.map (Instance.settled settle)) ∧
      r₂.reconciliation.Quiet := by
  obtain ⟨hp, listing, cache, hd, -, hf, rfl⟩ := refreshed_of_update_ok hv
  obtain ⟨hfaultless, hsettled⟩ := h.refreshed_again hf
  rw [← hsettled]
  exact h.update_of_matches hp (h.listing e.cache cache _ hd)
    (h.matches_refreshed (h.matches_reconciled e hd)) hfaultless

end Kind.Steady
end HostInventory.Enumeration
