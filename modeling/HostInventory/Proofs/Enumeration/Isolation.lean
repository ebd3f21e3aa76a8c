import HostInventory.Enumeration.Probe
import HostInventory.Proofs.Enumeration.Run
import Mathlib.Data.Bool.Count

/-! Refreshes keep failures apart.

The look at one instance comes out well or not, and that is all that a refresh needs to know
about it: given the outcome for each subject (`Meets`), what becomes of an instance is a matter of
its own outcome (`Kind.afterLook`) and the count is a matter of how many there are of either kind
(`RefreshCount.of`). So two refreshes of one enumeration that differ in one outcome differ in one
instance, and by one in the count (`refresh_isolates_failures`). -/
namespace HostInventory.Enumeration

variable {Env Cache Data : Type}

/-- The look at each instance has the outcome that is given for its subject. -/
def Meets (e : Enumeration Cache Data) (k : Kind Env Cache Data) (env : Env)
    (outcome : Subject → Except (Failure × Data) Data) : Prop :=
  ∀ i ∈ e.instances, (k.refresh env e.cache i.reset).value = .ok (outcome i.subject)

/-- What a look with an outcome makes of an instance. -/
def Kind.afterLook (k : Kind Env Cache Data) (i : Instance Data) :
    Except (Failure × Data) Data → Instance Data
  | .ok data => { i.reset with data }
  | .error (f, data) => Instance.capture { i with data := k.afterFailure data } f

/-- The count of looks that did or did not succeed. -/
def RefreshCount.of (successes : List Bool) : RefreshCount where
  refreshed := successes.count true
  failed := successes.count false

/-! ### Counts -/

theorem RefreshCount.of_cons (succeeded : Bool) (rest : List Bool) :
    RefreshCount.of (succeeded :: rest) = (RefreshCount.of rest).record succeeded := by
  cases succeeded <;> simp [RefreshCount.of, RefreshCount.record]

theorem RefreshCount.of_failed (successes : List Bool) :
    (RefreshCount.of successes).failed = successes.countP fun succeeded => !succeeded := by
  rw [RefreshCount.of, List.count_eq_countP]
  exact List.countP_congr fun succeeded _ => by rw [beq_false]

theorem RefreshCount.of_perm {successes successes' : List Bool} (h : successes.Perm successes') :
    RefreshCount.of successes = RefreshCount.of successes' := by
  rw [RefreshCount.of, RefreshCount.of, h.count_eq, h.count_eq]

theorem foldl_record {α : Type} (succeeded : α → Bool) (l : List α) (count : RefreshCount) :
    l.foldl (fun count a => count.record (succeeded a)) count =
      { refreshed := count.refreshed + (RefreshCount.of (l.map succeeded)).refreshed
        failed := count.failed + (RefreshCount.of (l.map succeeded)).failed } := by
  induction l generalizing count with
  | nil => rfl
  | cons a rest ih =>
    rw [List.foldl_cons, ih, List.map_cons, RefreshCount.of_cons]
    cases succeeded a <;> simp [RefreshCount.record] <;> omega

/-! ### One refresh -/

section AfterLook
variable {k : Kind Env Cache Data}

@[simp] theorem afterLook_subject (k : Kind Env Cache Data) (i : Instance Data)
    (r : Except (Failure × Data) Data) : (k.afterLook i r).subject = i.subject := by
  cases r <;> rfl

/-- An instance carries a failure exactly when its look failed. -/
theorem afterLook_failure (k : Kind Env Cache Data) (i : Instance Data)
    (r : Except (Failure × Data) Data) : (k.afterLook i r).failure.isSome = !r.isOk := by
  cases r <;> rfl

theorem lookedAt_eq_afterLook {env : Env} {cache : Cache} {i : Instance Data}
    {r : Except (Failure × Data) Data} (h : (k.refresh env cache i.reset).value = .ok r) :
    k.lookedAt env cache i = (r.isOk, k.afterLook i r) := by
  cases r with
  | ok data => exact lookedAt_of_ok h
  | error left => exact lookedAt_of_error h

end AfterLook

section Meets
variable {e : Enumeration Cache Data} {k : Kind Env Cache Data} {env : Env}
  {outcome : Subject → Except (Failure × Data) Data} (hmeets : e.Meets k env outcome)
include hmeets

theorem refreshed_of_meets :
    e.refreshed k env = e.map fun i => k.afterLook i (outcome i.subject) := by
  rw [refreshed_eq_map]
  refine map_congr fun i hi => ?_
  rw [lookedAt_eq_afterLook (hmeets i hi)]

theorem refreshCount_of_meets :
    e.refreshCount k env = RefreshCount.of (e.subjects.map fun s => (outcome s).isOk) := by
  have hsuccesses : (e.instances.map fun i => (k.lookedAt env e.cache i).1) =
      e.subjects.map fun s => (outcome s).isOk := by
    rw [subjects_eq_map, List.map_map]
    refine List.map_congr_left fun i hi => ?_
    rw [lookedAt_eq_afterLook (hmeets i hi)]
    rfl
  rw [refreshCount, foldl_record, hsuccesses]
  simp only [Nat.zero_add]

/-- As many looks have failed as there are failures afterwards. -/
theorem failed_of_meets : (e.refreshCount k env).failed =
    (e.refreshed k env).instances.countP fun i => i.failure.isSome := by
  rw [refreshCount_of_meets hmeets, refreshed_of_meets hmeets, instances_map, RefreshCount.of_failed,
    subjects_eq_map, List.countP_map, List.countP_map, List.countP_map]
  refine List.countP_congr fun i _ => ?_
  simp only [Function.comp_apply, afterLook_failure]

theorem updateInstances_of_meets (hp : e.phase = .initialized) :
    (e.updateInstances k env).value = .ok (e.refreshCount k env, e.refreshed k env) ∧
      (e.updateInstances k env).calls = e.subjects.map Call.update := by
  obtain ⟨hv, hc⟩ := updateInstances_eq hp fun i hi => ⟨_, hmeets i hi⟩
  refine ⟨hv, ?_⟩
  rw [hc, subjects_eq_map, List.map_map]
  rfl

end Meets

/-! ### Two refreshes -/

section Differ
variable {e : Enumeration Cache Data} {k : Kind Env Cache Data} {env env' : Env}
  {outcome outcome' : Subject → Except (Failure × Data) Data} {x : Subject}
  (hmeets : e.Meets k env outcome) (hmeets' : e.Meets k env' outcome')
  (hsame : ∀ s ∈ e.subjects, s ≠ x → outcome' s = outcome s)
include hmeets hmeets' hsame

/-- The other instances are the same after both. -/
theorem others_of_meets :
    (e.refreshed k env').instances.filter (fun i => i.subject ≠ x) =
      (e.refreshed k env).instances.filter fun i => i.subject ≠ x := by
  have hother : ∀ outcome : Subject → Except (Failure × Data) Data,
      (fun i : Instance Data => decide (i.subject ≠ x)) ∘
          (fun i => k.afterLook i (outcome i.subject)) = fun i => decide (i.subject ≠ x) :=
    fun outcome => funext fun i => by simp only [Function.comp_apply, afterLook_subject]
  rw [refreshed_of_meets hmeets, refreshed_of_meets hmeets', instances_map, instances_map,
    List.filter_map, List.filter_map, hother, hother]
  refine List.map_congr_left fun i hi => ?_
  obtain ⟨hi, hx⟩ := List.mem_filter.1 hi
  have hsubject : i.subject ∈ e.subjects := subjects_eq_map e ▸ List.mem_map_of_mem hi
  rw [hsame i.subject hsubject (of_decide_eq_true hx)]

/-- The counts differ by the instance whose outcome does. -/
theorem counts_of_meets (hnodup : e.subjects.Nodup) (hx : x ∈ e.subjects) :
    ∃ others : RefreshCount, e.refreshCount k env = others.record (outcome x).isOk ∧
      e.refreshCount k env' = others.record (outcome' x).isOk := by
  have hcount : ∀ outcome : Subject → Except (Failure × Data) Data,
      RefreshCount.of (e.subjects.map fun s => (outcome s).isOk) =
        (RefreshCount.of ((e.subjects.erase x).map fun s => (outcome s).isOk)).record
          (outcome x).isOk := fun outcome => by
    rw [RefreshCount.of_perm ((List.perm_cons_erase hx).map _), List.map_cons,
      RefreshCount.of_cons]
  have hothers : ((e.subjects.erase x).map fun s => (outcome' s).isOk) =
      (e.subjects.erase x).map fun s => (outcome s).isOk := by
    refine List.map_congr_left fun s hs => ?_
    obtain ⟨hne, hs⟩ := hnodup.mem_erase_iff.1 hs
    rw [hsame s hs hne]
  refine ⟨_, (refreshCount_of_meets hmeets).trans (hcount outcome), ?_⟩
  rw [refreshCount_of_meets hmeets', hcount outcome', hothers]

end Differ

/-- **A failure stays with its instance.** After any run a refresh looks at the whole and then at
each identity in order, once each, whatever the looks come to; it counts every look, and as failed
those that leave a failure, and moves nothing. A refresh that differs from it in the outcome for
one subject makes the same of all other instances and counts the same for them. -/
theorem refresh_isolates_failures {cache : Cache} {steps : List (Step Env Cache Data)}
    {history : List Event} {e : Enumeration Cache Data}
    (hrun : (run { cache } steps).value = .ok (history, e)) (hp : e.phase = .initialized)
    {k : Kind Env Cache Data} {env : Env} {outcome : Subject → Except (Failure × Data) Data}
    (hmeets : e.Meets k env outcome) :
    ∃ count e₁, (e.updateInstances k env).value = .ok (count, e₁) ∧
      (e.updateInstances k env).calls =
        (if e.total.isSome then [Call.update .whole] else []) ++
          e.ids.map (fun id => Call.update (.named id)) ∧
      e.ids.Nodup ∧
      count.refreshed + count.failed = e.ids.length + (if e.total.isSome then 1 else 0) ∧
      count.failed = e₁.instances.countP (fun i => i.failure.isSome) ∧
      e₁.ids = e.ids ∧ e₁.subjects = e.subjects ∧
      ∀ env' outcome' x, e.Meets k env' outcome' → x ∈ e.subjects →
        (∀ s ∈ e.subjects, s ≠ x → outcome' s = outcome s) →
        ∃ count' e₁' others, (e.updateInstances k env').value = .ok (count', e₁') ∧
          e₁'.instances.filter (fun i => i.subject ≠ x) =
            e₁.instances.filter (fun i => i.subject ≠ x) ∧
          count = RefreshCount.record others (outcome x).isOk ∧
          count' = RefreshCount.record others (outcome' x).isOk := by
  have hwf : e.WellFormed := (WellFormed.empty cache).run hrun
  obtain ⟨hv, hc⟩ := updateInstances_of_meets hmeets hp
  refine ⟨_, _, hv, ?_, hwf.distinct, ?_, failed_of_meets hmeets, refreshed_ids ..,
    refreshed_subjects .., ?_⟩
  · rw [hc, hwf.subjects_eq, List.map_append, List.map_map]
    cases e.total <;> rfl
  · rw [refreshCount_of_meets hmeets, RefreshCount.of, List.count_true_add_count_false,
      List.length_map, hwf.subjects_eq, List.length_append, List.length_map, Nat.add_comm]
    cases e.total <;> rfl
  · intro env' outcome' x hmeets' hx hsame
    obtain ⟨others, hcount, hcount'⟩ :=
      counts_of_meets hmeets hmeets' hsame hwf.nodup_subjects hx
    exact ⟨_, _, others, (updateInstances_of_meets hmeets' hp).1,
      others_of_meets hmeets hmeets' hsame, hcount, hcount'⟩

/-- One of a probe's two identities fails in one refresh and not in the other. -/
theorem refresh_isolates_failures_probe :
    let k := Probe.kind .remove true
    let live : Probe.Script := { live := [⟨"a"⟩, ⟨"b"⟩] }
    let broken := live.fail "a" (.gone "a")
    ∃ history e, (run { cache := () } [⟨k, .init⟩, ⟨k, .update live true⟩]).value =
        .ok (history, e) ∧
      ∃ count e₁ count' e₁' others, (e.updateInstances k broken).value = .ok (count, e₁) ∧
        (e.updateInstances k broken).calls =
          [.update .whole, .update (.named ⟨"a"⟩), .update (.named ⟨"b"⟩)] ∧
        count.refreshed + count.failed = 3 ∧
        (e.updateInstances k live).value = .ok (count', e₁') ∧
        count = RefreshCount.record others false ∧ count' = RefreshCount.record others true := by
  intro k live broken
  let all : List (Instance Probe.Data) :=
    [Instance.ofWhole { refreshed := 1 }, Instance.fresh ⟨"a"⟩ { refreshed := 1 },
      Instance.fresh ⟨"b"⟩ { refreshed := 1 }]
  let healthy : Subject → Except (Failure × Probe.Data) Probe.Data := fun _ => .ok { refreshed := 2 }
  let failing : Subject → Except (Failure × Probe.Data) Probe.Data := fun s =>
    if s = .named ⟨"a"⟩ then .error (.gone "a", { refreshed := 1 }) else healthy s
  have hread : (run { cache := () } [⟨k, .init⟩, ⟨k, .update live true⟩]).value.toOption.map
      (fun x => (x.2.phase, x.2.total.isSome, x.2.ids, x.2.instances)) =
        some (.initialized, true, [⟨"a"⟩, ⟨"b"⟩], all) := by decide +kernel
  have hbroken : ∀ i ∈ all, (k.refresh broken () i.reset).value = .ok (failing i.subject) := by
    decide +kernel
  have hlive : ∀ i ∈ all, (k.refresh live () i.reset).value = .ok (healthy i.subject) := by
    decide +kernel
  cases hrun : (run { cache := () } [⟨k, .init⟩, ⟨k, .update live true⟩]).value with
  | error fault =>
    rw [hrun] at hread
    cases hread
  | ok x =>
    obtain ⟨history, e⟩ := x
    rw [hrun] at hread
    have hfields : (e.phase, e.total.isSome, e.ids, e.instances) =
        (.initialized, true, [⟨"a"⟩, ⟨"b"⟩], all) := Option.some.inj hread
    simp only [Prod.mk.injEq] at hfields
    obtain ⟨hp, htotal, hids, hall⟩ := hfields
    rw [← hall] at hbroken hlive
    have ha : Subject.named ⟨"a"⟩ ∈ e.subjects := by
      rw [subjects_eq_map, hall]
      decide
    obtain ⟨count, e₁, hv, hc, -, hsum, -, -, -, hother⟩ :=
      refresh_isolates_failures hrun hp (show e.Meets k broken failing from hbroken)
    obtain ⟨count', e₁', others, hv', -, hcount, hcount'⟩ := hother live healthy _
      (show e.Meets k live healthy from hlive) ha fun s _ hs => (if_neg hs).symm
    rw [htotal, hids] at hc hsum
    exact ⟨history, e, rfl, count, e₁, count', e₁', others, hv, hc, hsum, hv', hcount, hcount'⟩

end HostInventory.Enumeration
