import HostInventory.Proofs.Enumeration.Run

/-! The order of calls in an update.

What an update is going to ask for is settled by what is held and what is listed (`schedule`): a
listing, then one instance for each identity that is new, then what the policy does with the held
ones, and then, if a refresh is asked for, one look at every instance that is held by now. An
update makes these calls and no others, and in this order; where it ends in a fault, it has made
the first of them (`Outcome.Follows`, `update_follows`).

One operation after another follows their two schedules one after another (`Outcome.Follows.bind`),
so it is enough to have the schedule of each part. No call stands in a schedule twice, and none
behind one of a later stage (`pairwise_schedule`): nothing that is held is touched before the last
new instance has been asked for. -/
namespace HostInventory.Enumeration

variable {Env Cache Data : Type}

/-! ### Following a schedule -/

/-- The operation makes the calls of the schedule, in order, and all of them unless it ends in a
fault. -/
structure Outcome.Follows {α : Type} (x : Outcome α) (schedule : List Call) : Prop where
  start : x.calls <+: schedule
  all : ∀ a, x.value = .ok a → x.calls = schedule

namespace Outcome

variable {α β : Type} {x : Outcome α} {f : α → Outcome β} {first second : List Call}

theorem follows_of_calls (h : x.calls = first) : x.Follows first :=
  ⟨h ▸ List.prefix_refl _, fun _ _ => h⟩

theorem say_follows (e : Log.Event) : (say e).Follows [] :=
  follows_of_calls rfl

/-- A fault has nothing left to do. -/
theorem fault_follows (fault : Fault) (schedule : List Call) :
    (Outcome.fault fault : Outcome α).Follows schedule :=
  ⟨List.nil_prefix, nofun⟩

theorem calls_bind_of_error {fault : Fault} (h : x.value = .error fault) (f : α → Outcome β) :
    (x >>= f).calls = x.calls := by
  rw [bind_of_error h]
  rfl

theorem Follows.bind (hx : x.Follows first) (hf : ∀ a, x.value = .ok a → (f a).Follows second) :
    (x >>= f).Follows (first ++ second) := by
  cases hv : x.value with
  | error fault =>
    constructor
    · rw [calls_bind_of_error hv]
      exact hx.start.trans (List.prefix_append _ _)
    · intro b hb
      rw [value_bind_of_error hv] at hb
      cases hb
  | ok a =>
    have hc : (x >>= f).calls = first ++ (f a).calls := by
      rw [calls_bind_of_ok hv, hx.all a hv]
    constructor
    · rw [hc]
      exact (List.prefix_append_right_inj first).2 (hf a hv).start
    · intro b hb
      rw [value_bind_of_ok hv] at hb
      rw [hc, (hf a hv).all b hb]

/-- What is called is done behind the call. -/
theorem Follows.calling (hx : x.Follows first) (c : Call) : (calling c x).Follows (c :: first) :=
  ⟨List.cons_prefix_cons.2 ⟨rfl, hx.start⟩, fun a ha => congrArg (c :: ·) (hx.all a ha)⟩

/-- What only answers makes no calls. -/
theorem Follows.bind_of_calls_nil (hx : x.Follows first)
    (hf : ∀ a, x.value = .ok a → (f a).calls = []) : (x >>= f).Follows first := by
  have h := hx.bind fun a ha => follows_of_calls (hf a ha)
  rwa [List.append_nil] at h

end Outcome

open Outcome (follows_of_calls)

/-! ### The schedule of an update -/

/-- How far an update is when it makes a call. -/
def Call.stage : Call → Nat
  | .discover => 0
  | .instantiate _ => 1
  | .cleanup _ | .present _ | .absent _ => 2
  | .update _ => 3
  | .release => 4

section Schedule
variable (e : Enumeration Cache Data) (k : Kind Env Cache Data) (env : Env) (cache : Cache)
  (listing : List Identity)

/-- What the policy does with the held instances. -/
def policySchedule : List Call :=
  match k.policy with
  | .remove => (e.held.filter fun entry => entry.1 ∉ listing).map fun entry =>
      .cleanup entry.2.handle
  | .markStale => e.ids.map fun id =>
      if id ∈ listing then .present (.named id) else .absent (.named id)
  | .retain => []

/-- The identities that are held after a listing: those that the policy leaves, and behind them the
new ones that can be built. -/
def idsAfter : List Identity :=
  (if k.policy = .remove then e.ids.filter fun id => id ∈ listing else e.ids) ++
    (e.newcomers listing).filter (k.builds env cache)

/-- One look at every instance that is held by then, the whole first. -/
def lookSchedule : List Call :=
  ((if e.total.isSome then [Subject.whole] else []) ++
    (e.idsAfter k env cache listing).map Subject.named).map .update

/-- The calls of an update whose listing succeeds. -/
def schedule (refresh : Bool) : List Call :=
  .discover :: ((e.newcomers listing).map .instantiate ++ e.policySchedule k listing) ++
    if refresh then e.lookSchedule k env cache listing else []

end Schedule

section Parts
variable {e : Enumeration Cache Data} {k : Kind Env Cache Data} {env : Env} {cache : Cache}
  {listing : List Identity}

theorem WellFormed.policyCalls_eq (h : e.WellFormed) :
    e.policyCalls k listing = e.policySchedule k listing := by
  cases hpol : k.policy <;> simp only [policyCalls, policySchedule, hpol]
  case markStale =>
    rw [ids, List.map_map]
    exact List.map_congr_left fun entry hm => by simp only [Function.comp, h.named entry hm]

theorem idsAfter_eq : e.idsAfter k env cache listing = (e.reconciled k env cache listing).ids := by
  rw [reconciled, ids, List.map_append, map_fst_survivors, map_fst_built]
  rfl

/-! ### Each part follows its schedule -/

/-- The loop asks for the newcomers, in order, until one of them is built under another name. -/
theorem survey_follows (e : Enumeration Cache Data) (k : Kind Env Cache Data) (env : Env)
    (listing : List Identity) (s : Survey Data) : (survey e k env listing s).Follows
      ((e.unseenNewcomers s.seen listing).map .instantiate) := by
  -- What is seen grows on the way, and the schedule of the rest leaves out what is seen by then.
  induction listing generalizing s with
  | nil => exact follows_of_calls (by simp [survey, unseenNewcomers, unseen])
  | cons id rest ih =>
    by_cases hs : id ∈ s.seen
    · have hsurvey : survey e k env (id :: rest) s = survey e k env rest s :=
        if_pos (by simpa using hs)
      rw [hsurvey, e.unseenNewcomers_of_mem hs]
      exact ih s
    · have hseen : ¬s.seen.contains id = true := by simpa using hs
      cases hh : e.isHeld id with
      | true =>
        have hsurvey : survey e k env (id :: rest) s =
            survey e k env rest { s with seen := id :: s.seen } :=
          (if_neg hseen).trans (if_pos hh)
        rw [hsurvey, unseenNewcomers_of_held hs hh]
        exact ih { s with seen := id :: s.seen }
      | false =>
        rw [unseenNewcomers_of_new hs hh, List.map_cons, survey, if_neg hseen]
        dsimp only
        rw [if_neg (Bool.eq_false_iff.1 hh)]
        rw [Outcome.calling_bind, pure_bind]
        refine Outcome.Follows.calling ?_ _
        split
        · split
          · exact ih _
          · exact Outcome.fault_follows _ _
        · exact (Outcome.say_follows _).bind fun _ _ => ih _

theorem reconcile_follows (hp : e.phase ≠ .cleanedUp) (h : e.WellFormed) :
    (reconcile e k env listing).Follows
      ((e.newcomers listing).map .instantiate ++ e.policySchedule k listing) := by
  by_cases hn : k.Names env e.cache (e.newcomers listing)
  · exact follows_of_calls (h.policyCalls_eq ▸ reconcile_calls hp hn h)
  · rw [reconcile_eq_bind, ← unseenNewcomers_nil]
    refine (survey_follows e k env listing {}).bind fun s hs => absurd ?_ hn
    rw [← unseenNewcomers_nil]
    exact names_of_survey_ok hs

theorem updateEnumeration_follows (hp : e.phase = .initialized) (h : e.WellFormed)
    (hd : (k.discover env e.cache).value = .ok (listing, cache)) :
    (e.updateEnumeration k env).Follows
      (.discover :: ((e.newcomers listing).map .instantiate ++ e.policySchedule k listing)) := by
  have hbind := updateEnumeration_eq_bind hp hd
  have hp' : { e with cache }.phase ≠ .cleanedUp := by simp [hp]
  have hreconcile : (reconcile { e with cache } k env listing).Follows
      ((e.newcomers listing).map .instantiate ++ e.policySchedule k listing) :=
    reconcile_follows hp' ⟨h.distinct, h.named, h.whole⟩
  have hanswer := hreconcile.bind_of_calls_nil
    (f := fun x => (pure (Except.ok x.1, x.2) :
      Outcome (Except Failure Reconciliation × Enumeration Cache Data))) fun _ _ => rfl
  constructor
  · rw [hbind.2]
    exact List.cons_prefix_cons.2 ⟨rfl, hanswer.start⟩
  · intro x hx
    rw [hbind.1] at hx
    rw [hbind.2]
    exact congrArg _ (hanswer.all x hx)

/-- What a reconciliation that returns has made of a listing. -/
theorem names_and_eq_of_updateEnumeration
    (hd : (k.discover env e.cache).value = .ok (listing, cache))
    {r : Except Failure Reconciliation} {m : Enumeration Cache Data}
    (h : (e.updateEnumeration k env).value = .ok (r, m)) :
    k.Names env cache (e.newcomers listing) ∧ r = .ok (e.reconciliation k env cache listing) ∧
      m = e.reconciled k env cache listing := by
  obtain ⟨-, ⟨f, cache', hd', -⟩ | ⟨listing', cache', hd', hn, rfl, rfl⟩⟩ :=
    updateEnumeration_cases h
  · cases hd.symm.trans hd'
  · obtain ⟨rfl, rfl⟩ := Prod.mk.inj (Except.ok.inj (hd.symm.trans hd'))
    exact ⟨hn, rfl, rfl⟩

theorem refreshOne_calls (i : Instance Data) :
    (refreshOne k env cache i).calls = [.update i.subject] := by
  cases hr : (k.refresh env cache i.reset).value with
  | ok r => exact (refreshOne_eq ⟨r, hr⟩).2
  | error fault =>
    simp only [refreshOne, Outcome.calling_bind, Outcome.calls_calling,
      Outcome.calls_ofLogged_bind, hr, Outcome.ofExcept_error, Outcome.fault_bind]
    rfl

theorem refreshTotal_follows (total : Option (Instance Data)) :
    (refreshTotal k env cache total).Follows (total.toList.map fun i => .update i.subject) := by
  cases total with
  | none => exact follows_of_calls rfl
  | some i => exact (follows_of_calls (refreshOne_calls i)).bind_of_calls_nil fun _ _ => rfl

theorem refreshHeld_follows (held : List (Identity × Instance Data)) (count : RefreshCount) :
    (refreshHeld k env cache count held).Follows
      (held.map fun entry => .update entry.2.subject) := by
  induction held generalizing count with
  | nil => exact follows_of_calls rfl
  | cons entry rest ih =>
    exact (follows_of_calls (refreshOne_calls entry.2)).bind fun _ _ =>
      (ih _).bind_of_calls_nil fun _ _ => rfl

theorem updateInstances_follows (hp : e.phase = .initialized) :
    (e.updateInstances k env).Follows (e.subjects.map .update) := by
  simp only [updateInstances, require_eq_ok.2 hp, Outcome.ofExcept_ok, pure_bind, subjects,
    List.map_append, List.map_map]
  exact (refreshTotal_follows e.total).bind fun _ _ =>
    (refreshHeld_follows e.held _).bind_of_calls_nil fun _ _ => rfl

theorem subjects_reconciled (h : e.WellFormed) (hn : k.Names env cache (e.newcomers listing)) :
    (e.reconciled k env cache listing).subjects.map Call.update =
      e.lookSchedule k env cache listing := by
  rw [(transition_reconciled h hn).wellFormed.subjects_eq, ← idsAfter_eq]
  rfl

/-! ### The whole update -/

theorem update_follows (hp : e.phase = .initialized) (h : e.WellFormed)
    (hd : (k.discover env e.cache).value = .ok (listing, cache)) (refresh : Bool) :
    (e.update k env refresh).Follows (e.schedule k env cache listing refresh) := by
  simp only [update, require_eq_ok.2 hp, Outcome.ofExcept_ok, pure_bind]
  refine (updateEnumeration_follows hp h hd).bind fun x hx => ?_
  obtain ⟨r, m⟩ := x
  obtain ⟨hn, rfl, rfl⟩ := names_and_eq_of_updateEnumeration hd hx
  cases refresh with
  | false => exact follows_of_calls (Outcome.calls_pure _)
  | true =>
    have hp' : (e.reconciled k env cache listing).phase = .initialized := hp
    simp only [if_true]
    rw [← subjects_reconciled h hn]
    exact (updateInstances_follows hp').bind_of_calls_nil fun _ _ => rfl

/-- An update is not ended early by instances that cannot be built or refreshed, but only by one
that is built under another identity than asked for and by a look that ends in a fault. -/
theorem update_returns_iff (hp : e.phase = .initialized)
    (hd : (k.discover env e.cache).value = .ok (listing, cache)) (refresh : Bool) :
    (∃ x, (e.update k env refresh).value = .ok x) ↔ k.Names env cache (e.newcomers listing) ∧
      (refresh = true → ∀ i ∈ (e.reconciled k env cache listing).instances,
        k.Faultless env cache i) := by
  constructor
  · rintro ⟨⟨r, e'⟩, hv⟩
    obtain ⟨found, m, hm, -, hcases⟩ := update_cases hv
    obtain ⟨hn, rfl, rfl⟩ := names_and_eq_of_updateEnumeration hd hm
    refine ⟨hn, fun hrefresh => ?_⟩
    obtain ⟨hfalse | ⟨f, hf⟩, -⟩ | ⟨-, -, count, hi, -⟩ := hcases
    · cases hrefresh.symm.trans hfalse
    · cases hf
    · exact (updateInstances_cases hi).2.1
  · rintro ⟨hn, hf⟩
    simp only [update, require_eq_ok.2 hp, Outcome.ofExcept_ok, pure_bind,
      Outcome.value_bind_of_ok (updateEnumeration_of_ok hp hd hn)]
    cases refresh with
    | false => exact ⟨_, rfl⟩
    | true =>
      have hp' : (e.reconciled k env cache listing).phase = .initialized := hp
      simp only [if_true, Outcome.value_bind_of_ok (updateInstances_eq hp' (hf rfl)).1]
      exact ⟨_, rfl⟩

theorem ids_of_update (hd : (k.discover env e.cache).value = .ok (listing, cache))
    {e' : Enumeration Cache Data} {refresh : Bool} {r : Except Failure UpdateReport}
    (hv : (e.update k env refresh).value = .ok (r, e')) :
    e'.ids = e.idsAfter k env cache listing := by
  obtain ⟨found, m, hm, -, hcases⟩ := update_cases hv
  obtain ⟨-, rfl, rfl⟩ := names_and_eq_of_updateEnumeration hd hm
  rw [idsAfter_eq]
  obtain ⟨-, rfl, -⟩ | ⟨-, -, count, hi, -⟩ := hcases
  · rfl
  · obtain ⟨-, -, -, rfl⟩ := updateInstances_cases hi
    exact refreshed_ids _ _ _

/-! ### The order of a schedule -/

/-- Distinct calls, of which the first may be made before the second. -/
def Call.Before (c d : Call) : Prop :=
  c.stage ≤ d.stage ∧ c ≠ d

theorem pairwise_of_stage {l : List Call} {n : Nat} (hnd : l.Nodup) (hs : ∀ c ∈ l, c.stage = n) :
    l.Pairwise Call.Before :=
  hnd.imp_of_mem fun {c d} hc hd hne => ⟨Nat.le_of_eq ((hs c hc).trans (hs d hd).symm), hne⟩

theorem pairwise_append_of_stage {l l' : List Call} {n : Nat} (hl : l.Pairwise Call.Before)
    (hl' : l'.Pairwise Call.Before) (hs : ∀ c ∈ l, c.stage ≤ n) (hs' : ∀ c ∈ l', n < c.stage) :
    (l ++ l').Pairwise Call.Before :=
  List.pairwise_append.2 ⟨hl, hl', fun c hc d hd =>
    have hlt := Nat.lt_of_le_of_lt (hs c hc) (hs' d hd)
    ⟨Nat.le_of_lt hlt, fun heq => Nat.lt_irrefl _ (heq ▸ hlt)⟩⟩

theorem stage_policySchedule : ∀ c ∈ e.policySchedule k listing, c.stage = 2 := by
  cases hpol : k.policy <;> simp only [policySchedule, hpol]
  case remove => exact List.forall_mem_map.2 fun _ _ => rfl
  case markStale => exact List.forall_mem_map.2 fun id _ => by split <;> rfl
  case retain => exact nofun

theorem nodup_policySchedule (h : e.WellFormed) : (e.policySchedule k listing).Nodup := by
  cases hpol : k.policy <;> simp only [policySchedule, hpol]
  case remove =>
    have hsub : ((e.held.filter fun entry => entry.1 ∉ listing).map fun entry =>
        entry.2.handle).Sublist (e.held.map fun entry => entry.2.handle) := List.filter_sublist.map _
    have hnodup := h.nodup_handles
    rw [handles, instances, List.map_append, List.map_map] at hnodup
    have hreleased := hnodup.of_append_right.sublist hsub
    have hcalls := hreleased.map fun a b hab => Call.cleanup.inj hab
    rwa [List.map_map] at hcalls
  case markStale =>
    refine h.distinct.map fun a b (hab : ite _ _ _ = ite _ _ _) => ?_
    split at hab <;> split at hab <;> simp at hab <;> exact hab
  case retain => exact List.nodup_nil

theorem nodup_idsAfter (h : e.ids.Nodup) : (e.idsAfter k env cache listing).Nodup := by
  have hnew : ((e.newcomers listing).filter (k.builds env cache)).Nodup :=
    (nodup_newcomers e listing).filter _
  have hfree : ∀ id ∈ e.ids, id ∉ (e.newcomers listing).filter (k.builds env cache) :=
    fun id hid hid' => (mem_newcomers.1 (List.mem_filter.1 hid').1).2 hid
  unfold idsAfter
  split
  · exact List.nodup_append'.2 ⟨h.filter _, hnew, fun id hid => hfree id (List.mem_filter.1 hid).1⟩
  · exact List.nodup_append'.2 ⟨h, hnew, hfree⟩

theorem nodup_lookSchedule (h : e.ids.Nodup) : (e.lookSchedule k env cache listing).Nodup := by
  have hnamed : ((e.idsAfter k env cache listing).map Subject.named).Nodup :=
    (nodup_idsAfter h).map fun a b hab => Subject.named.inj hab
  have hsubjects : ((if e.total.isSome then [Subject.whole] else []) ++
      (e.idsAfter k env cache listing).map Subject.named).Nodup := by
    split
    · exact List.nodup_cons.2 ⟨by simp, hnamed⟩
    · exact hnamed
  exact hsubjects.map fun a b hab => Call.update.inj hab

/-- No call stands in a schedule twice, and none behind one of a later stage. -/
theorem pairwise_schedule (h : e.WellFormed) (refresh : Bool) :
    (e.schedule k env cache listing refresh).Pairwise Call.Before := by
  have hstage : ∀ c ∈ (e.newcomers listing).map Call.instantiate, c.stage = 1 :=
    List.forall_mem_map.2 fun _ _ => rfl
  have hnew : ((e.newcomers listing).map Call.instantiate).Pairwise Call.Before :=
    pairwise_of_stage ((nodup_newcomers e listing).map fun a b hab => Call.instantiate.inj hab)
      hstage
  have hpolicy : (e.policySchedule k listing).Pairwise Call.Before :=
    pairwise_of_stage (nodup_policySchedule h) stage_policySchedule
  have hlook : ∀ c ∈ if refresh then e.lookSchedule k env cache listing else [], c.stage = 3 := by
    split
    · exact List.forall_mem_map.2 fun _ _ => rfl
    · exact nofun
  have hlooks : (if refresh then e.lookSchedule k env cache listing else []).Pairwise
      Call.Before := by
    refine pairwise_of_stage ?_ hlook
    split
    · exact nodup_lookSchedule h.distinct
    · exact List.nodup_nil
  have hheld : ((e.newcomers listing).map Call.instantiate ++
      e.policySchedule k listing).Pairwise Call.Before :=
    pairwise_append_of_stage hnew hpolicy (fun c hc => Nat.le_of_eq (hstage c hc))
      fun c hc => by simp [stage_policySchedule c hc]
  have hfirst := pairwise_append_of_stage (n := 0) (List.pairwise_singleton _ Call.discover) hheld
    (by simp [Call.stage]) fun c hc => by
      rcases List.mem_append.1 hc with hc | hc
      · simp [hstage c hc]
      · simp [stage_policySchedule c hc]
  refine pairwise_append_of_stage (n := 2) hfirst hlooks (fun c hc => ?_)
    fun c hc => by simp [hlook c hc]
  rcases List.mem_cons.1 hc with rfl | hc
  · exact Nat.zero_le 2
  · rcases List.mem_append.1 hc with hc | hc
    · simp [hstage c hc]
    · exact Nat.le_of_eq (stage_policySchedule c hc)

end Parts

/-- **The calls of an update.** If the listing fails, an update asks for nothing else. If it
succeeds, the update follows the schedule settled by what is held and what is listed, and ends
early only in the two faults that there are. So no call is made twice, and none behind one of a
later stage. -/
theorem calls_of_update {cache₀ : Cache} {steps : List (Step Env Cache Data)}
    {history : List Event} {e : Enumeration Cache Data}
    (hrun : (run { cache := cache₀ } steps).value = .ok (history, e))
    (hp : e.phase = .initialized) (k : Kind Env Cache Data) (env : Env) (refresh : Bool) :
    (∀ f cache, (k.discover env e.cache).value = .error (f, cache) →
      (e.update k env refresh).calls = [.discover]) ∧
    (∀ listing cache, (k.discover env e.cache).value = .ok (listing, cache) →
      (e.update k env refresh).Follows (e.schedule k env cache listing refresh) ∧
      (∀ r e', (e.update k env refresh).value = .ok (r, e') →
        e'.ids = e.idsAfter k env cache listing) ∧
      ((∃ x, (e.update k env refresh).value = .ok x) ↔
        k.Names env cache (e.newcomers listing) ∧
          (refresh = true → ∀ i ∈ (e.reconciled k env cache listing).instances,
            k.Faultless env cache i))) ∧
    (e.update k env refresh).calls.Pairwise Call.Before := by
  have h : e.WellFormed := (WellFormed.empty cache₀).run hrun
  have herror : ∀ f cache, (k.discover env e.cache).value = .error (f, cache) →
      (e.update k env refresh).calls = [.discover] := by
    intro f cache hd
    obtain ⟨hv, hc⟩ := updateEnumeration_of_error hp hd
    simp only [update, require_eq_ok.2 hp, Outcome.ofExcept_ok, pure_bind,
      Outcome.calls_bind_of_ok hv, hc, Outcome.calls_pure, List.append_nil]
  refine ⟨herror, fun listing cache hd => ⟨update_follows hp h hd refresh,
    fun r e' hv => ids_of_update hd hv, update_returns_iff hp hd refresh⟩, ?_⟩
  cases hd : (k.discover env e.cache).value with
  | error left =>
    rw [herror left.1 left.2 hd]
    exact List.pairwise_singleton _ _
  | ok found =>
    exact (pairwise_schedule h refresh).sublist
      (update_follows hp h hd refresh).start.sublist

/-- `b` and `c` vanish, and `d` is listed twice. `x` is asked for although it cannot be built, and
is not looked at. -/
theorem calls_of_update_crowded :
    let k := Probe.kind .remove true
    let steps : List (Step Probe.Script Unit Probe.Data) := [⟨k, .init⟩,
      ⟨k, .update { live := [⟨"a"⟩, ⟨"b"⟩, ⟨"c"⟩] } true⟩]
    let script : Probe.Script :=
      { live := [⟨"d"⟩, ⟨"a"⟩, ⟨"d"⟩, ⟨"x"⟩, ⟨"e"⟩], broken := [⟨"x"⟩] }
    ∃ history e, (run { cache := () } steps).value = .ok (history, e) ∧ e.phase = .initialized ∧
      (e.update k script true).calls = [.discover, .instantiate ⟨"d"⟩, .instantiate ⟨"x"⟩,
        .instantiate ⟨"e"⟩, .cleanup ⟨.named ⟨"b"⟩, 0⟩, .cleanup ⟨.named ⟨"c"⟩, 0⟩, .update .whole,
        .update (.named ⟨"a"⟩), .update (.named ⟨"d"⟩), .update (.named ⟨"e"⟩)] := by
  intro k steps script
  have hread : (run { cache := () } steps).value.toOption.map
      (fun x => (x.2.phase, (x.2.update k script true).value.isOk,
        x.2.schedule k script () script.live true)) =
        some (.initialized, true, [.discover, .instantiate ⟨"d"⟩, .instantiate ⟨"x"⟩,
          .instantiate ⟨"e"⟩, .cleanup ⟨.named ⟨"b"⟩, 0⟩, .cleanup ⟨.named ⟨"c"⟩, 0⟩, .update .whole,
          .update (.named ⟨"a"⟩), .update (.named ⟨"d"⟩), .update (.named ⟨"e"⟩)]) := by
    decide +kernel
  cases hv : (run { cache := () } steps).value with
  | error fault =>
    rw [hv] at hread
    cases hread
  | ok x =>
    rw [hv] at hread
    obtain ⟨hp, hok, hschedule⟩ : x.2.phase = _ ∧ _ = true ∧ _ = _ := by
      simpa [Except.toOption] using hread
    obtain ⟨hfollows, -, -⟩ := (calls_of_update hv hp k script true).2.1 script.live () rfl
    obtain ⟨a, ha⟩ : ∃ a, (x.2.update k script true).value = .ok a := by
      cases hu : (x.2.update k script true).value with
      | error fault => simp [hu, Except.isOk, Except.toBool] at hok
      | ok a => exact ⟨a, rfl⟩
    exact ⟨x.1, x.2, rfl, hp, (hfollows.all a ha).trans hschedule⟩

end HostInventory.Enumeration
