import HostInventory.Proofs.Enumeration.Record

/-! Where instances come from.

What is held after an operation was held before it, and has at most been told whether it is
listed and looked at, or has been taken in by it: the whole of the kind, what a caller brings, or
what the kind builds for an identity that it lists. A trait that no word and no look
touches (`Kind.Fixes`) is then as it was when the instance was taken in, however long ago
(`trait_of_run`). -/
namespace HostInventory.Enumeration

variable {Env Cache Data : Type}

/-- The environment in which an operation lists what is there, if it does. -/
def Operation.listsIn? : Operation Env Data → Option Env
  | .updateEnumeration env | .update env _ => some env
  | _ => none

/-- The instance is as the kind builds it for something that it lists. -/
def Kind.Lists (k : Kind Env Cache Data) (env : Env) (i : Instance Data) : Prop :=
  ∃ old listing cache, (k.discover env old).value = .ok (listing, cache) ∧
    ∃ id ∈ listing, k.instantiate env cache id = .ok i

/-- The instance is one that an operation takes in, before anything else has happened to it. -/
inductive Kind.TakesIn (k : Kind Env Cache Data) (operation : Operation Env Data)
    (i : Instance Data) : Prop
  | whole : k.whole = some i → k.TakesIn operation i
  | brought : operation.brought? = some i → k.TakesIn operation i
  | listed {env : Env} : operation.listsIn? = some env → k.Lists env i → k.TakesIn operation i

/-! ### One operation -/

section Operations
variable {k : Kind Env Cache Data} {e m : Enumeration Cache Data} {j : Instance Data}

/-- Matching what is held to what is there at most says to instances whether they are listed, and
adds new ones. -/
theorem origin_of_updateEnumeration (h : e.WellFormed) {env : Env}
    {r : Except Failure Reconciliation} (hv : (e.updateEnumeration k env).value = .ok (r, m))
    (hj : j ∈ m.instances) :
    (∃ i ∈ e.instances, j.subject ∉ subjectsOf (addedBy r m) ∧ k.Told i j) ∨
      (k.Lists env j ∧ j.subject ∈ subjectsOf (addedBy r m)) := by
  obtain ⟨-, ⟨f, cache, -, rfl, rfl⟩ | ⟨listing, cache, hd, hn, rfl, rfl⟩⟩ :=
    updateEnumeration_cases hv
  · exact .inl ⟨j, hj, List.not_mem_nil, .unchanged⟩
  · have hadded : ∀ s, s ∈ subjectsOf (addedBy (.ok (e.reconciliation k env cache listing))
          (e.reconciled k env cache listing)) ↔
        ∃ id ∈ e.newcomers listing, k.builds env cache id = true ∧ Subject.named id = s := by
      intro s
      rw [subjectsOf_addedBy_reconciled h hn]
      simp only [reconciliation, List.mem_map, List.mem_filter, and_assoc]
    rcases List.mem_append.1 hj with hj | hj
    · refine .inl ⟨j, List.mem_append_left _ hj, fun hin => ?_, .unchanged⟩
      obtain ⟨id, -, -, hid⟩ := (hadded _).1 hin
      rw [h.whole j (Option.mem_toList.1 hj)] at hid
      cases hid
    · obtain ⟨⟨id, j⟩, hm, rfl⟩ := List.mem_map.1 hj
      obtain ⟨i, hi, htold⟩ | ⟨hnew, hbuilt⟩ := mem_held_reconciled hm
      · refine .inl ⟨i, List.mem_append_right _ (List.mem_map_of_mem hi), fun hin => ?_, htold⟩
        obtain ⟨id', hnew, -, hid⟩ := (hadded _).1 hin
        rw [htold.subject_eq, h.named _ hi] at hid
        cases hid
        exact (mem_newcomers.1 hnew).2 (mem_ids.2 ⟨i, hi⟩)
      · have hlists : k.Lists env j :=
          ⟨e.cache, listing, cache, hd, id, (mem_newcomers.1 hnew).1, hbuilt⟩
        refine .inr ⟨hlists, (hadded _).2 ⟨id, hnew, ?_, (hn id hnew j hbuilt).symm⟩⟩
        rw [Kind.builds, hbuilt]
        rfl

/-- A new whole takes the place of the one before. -/
theorem origin_of_setTotal (h : e.WellFormed) {new : Instance Data}
    (hv : (e.setTotal k new).value = .ok m) (hj : j ∈ m.instances) :
    (j ∈ e.instances ∧ j.subject ∉ subjectsOf [new.handle]) ∨
      (j = new ∧ j.subject ∈ subjectsOf [new.handle]) := by
  obtain ⟨hwhole, rfl, -⟩ := setTotal_cases hv
  rcases List.mem_append.1 hj with hj | hj
  · obtain rfl := Option.some.inj (Option.mem_toList.1 hj)
    exact .inr ⟨rfl, List.mem_singleton_self _⟩
  · obtain ⟨entry, hm, rfl⟩ := List.mem_map.1 hj
    refine .inl ⟨List.mem_append_right _ (List.mem_map_of_mem hm), ?_⟩
    show entry.2.subject ∉ [new.subject]
    rw [List.mem_singleton, hwhole, h.named entry hm]
    nofun

/-- So does the whole of the kind when the enumeration is set up. -/
theorem origin_of_init (h : e.WellFormed) (hv : (e.init k).value = .ok m) (hj : j ∈ m.instances) :
    (j ∈ e.instances ∧ j.subject ∉ subjectsOf (k.whole.toList.map Instance.handle)) ∨
      (k.whole = some j ∧ j.subject ∈ subjectsOf (k.whole.toList.map Instance.handle)) := by
  obtain ⟨-, ⟨hw, rfl, -⟩ | ⟨new, installed, hw, hm, rfl, -⟩⟩ := init_cases hv
  · rw [hw]
    exact .inl ⟨hj, List.not_mem_nil⟩
  · rw [hw]
    rcases origin_of_setTotal h hm hj with hold | ⟨rfl, hnew⟩
    · exact .inl hold
    · exact .inr ⟨rfl, hnew⟩

/-- What is added stands behind what was there, unless its identity is taken. -/
theorem origin_of_add (h : e.WellFormed) {new : Instance Data} {isNew : Bool}
    (hv : e.add k new = .ok (isNew, m)) (hj : j ∈ m.instances) :
    (j ∈ e.instances ∧ j.subject ∉ subjectsOf (if isNew then [new.handle] else [])) ∨
      (j = new ∧ j.subject ∈ subjectsOf (if isNew then [new.handle] else [])) := by
  obtain ⟨id, hid, ⟨rfl, -, rfl⟩ | ⟨rfl, hfree, rfl⟩⟩ := add_cases hv
  · exact .inl ⟨hj, List.not_mem_nil⟩
  · have hone : subjectsOf (if true then [new.handle] else []) = [new.subject] := rfl
    rw [hone]
    rcases List.mem_append.1 hj with hj | hj
    · refine .inl ⟨List.mem_append_left _ hj, ?_⟩
      rw [List.mem_singleton, hid, h.whole j (Option.mem_toList.1 hj)]
      nofun
    · obtain ⟨entry, hm, rfl⟩ := List.mem_map.1 hj
      rcases List.mem_append.1 hm with hm | hm
      · refine .inl ⟨List.mem_append_right _ (List.mem_map_of_mem hm), ?_⟩
        rw [List.mem_singleton, hid, h.named entry hm]
        exact fun heq => hfree (Subject.named.inj heq ▸ mem_ids.2 ⟨entry.2, hm⟩)
      · rw [List.mem_singleton.1 hm]
        exact .inr ⟨rfl, List.mem_singleton_self _⟩

theorem mem_instances_of_remove {id : Identity} {found : Bool}
    (hv : (e.remove id).value = .ok (found, m)) (hj : j ∈ m.instances) : j ∈ e.instances := by
  rw [remove_value] at hv
  obtain ⟨-, rfl⟩ := Prod.mk.inj (Except.ok.inj hv)
  rcases List.mem_append.1 hj with hj | hj
  · exact List.mem_append_left _ hj
  · obtain ⟨entry, hm, rfl⟩ := List.mem_map.1 hj
    exact List.mem_append_right _ (List.mem_map_of_mem (List.mem_filter.1 hm).1)

theorem mem_instances_of_cleanup (hv : (e.cleanup k).value = .ok m) (hj : j ∈ m.instances) :
    j ∈ e.instances := by
  by_cases hp : e.phase = .cleanedUp
  · rw [cleanup_of_cleanedUp k hp] at hv
    cases hv
    exact hj
  · rw [(cleanup_eq hp).1] at hv
    cases hv
    cases hj

end Operations

/-! ### Traits that nothing touches -/

/-- A trait of the data that the kind sets when it builds an instance, and never again. -/
structure Kind.Fixes {Trait : Type} (k : Kind Env Cache Data) (trait : Data → Trait) :
    Prop extends k.KeepsFigures trait where
  refresh : ∀ env cache i d, (k.refresh env cache i).value = .ok (.ok d) →
    trait d = trait i.data

section Fixes
variable {Trait : Type} {trait : Data → Trait} {k : Kind Env Cache Data}

/-- The instances have the same subject and the same trait. -/
def Same (trait : Data → Trait) (i j : Instance Data) : Prop :=
  j.subject = i.subject ∧ trait j.data = trait i.data

theorem Kind.Fixes.told (hk : k.Fixes trait) {i j : Instance Data} (h : k.Told i j) :
    Same trait i j := by
  cases h with
  | unchanged => exact ⟨rfl, rfl⟩
  | told present => exact ⟨rfl, hk.setPresent present i.data⟩

theorem Kind.Fixes.lookedAt (hk : k.Fixes trait) (env : Env) (cache : Cache)
    (i : Instance Data) : Same trait i (k.lookedAt env cache i).2 := by
  refine ⟨lookedAt_subject .., ?_⟩
  unfold Kind.lookedAt
  split
  · next d hd => exact hk.refresh env cache i.reset d hd
  · next f d hd => exact (hk.afterFailure d).trans (hk.failedLook env cache i.reset f d hd)
  · rfl

/-- Where an instance has its trait from: it had it before, or has come with it. -/
def Kind.TraitFrom (k : Kind Env Cache Data) (trait : Data → Trait)
    (e : Enumeration Cache Data) (operation : Operation Env Data) (taken : List Handle)
    (j : Instance Data) : Prop :=
  ∃ i, Same trait i j ∧
    ((i ∈ e.instances ∧ j.subject ∉ subjectsOf taken) ∨
      (k.TakesIn operation i ∧ j.subject ∈ subjectsOf taken))

variable {e m : Enumeration Cache Data} {j : Instance Data}

/-- A look makes no difference. -/
theorem traitFrom_of_updateInstances (hk : k.Fixes trait) {env : Env}
    {count : RefreshCount} (hv : (e.updateInstances k env).value = .ok (count, m))
    (hj : j ∈ m.instances) : ∃ i ∈ e.instances, Same trait i j := by
  obtain ⟨-, -, -, rfl⟩ := updateInstances_cases hv
  obtain ⟨i, hi, rfl⟩ := mem_instances_refreshed hj
  exact ⟨i, hi, hk.lookedAt env e.cache i⟩

theorem traitFrom_of_updateEnumeration (hk : k.Fixes trait) (h : e.WellFormed)
    {operation : Operation Env Data} {env : Env} (hop : operation.listsIn? = some env)
    {r : Except Failure Reconciliation} (hv : (e.updateEnumeration k env).value = .ok (r, m))
    (hj : j ∈ m.instances) : k.TraitFrom trait e operation (addedBy r m) j := by
  rcases origin_of_updateEnumeration h hv hj with ⟨i, hi, hold, htold⟩ | ⟨hlists, hnew⟩
  · exact ⟨i, hk.told htold, .inl ⟨hi, hold⟩⟩
  · exact ⟨j, ⟨rfl, rfl⟩, .inr ⟨.listed hop hlists, hnew⟩⟩

/-- One operation: the trait is as before or as the operation has brought it. -/
theorem traitFrom_of_apply (hk : k.Fixes trait) (h : e.WellFormed)
    {operation : Operation Env Data} {taken : List Handle}
    (hv : (e.apply ⟨k, operation⟩).value = .ok (taken, m)) (hj : j ∈ m.instances) :
    k.TraitFrom trait e operation taken j := by
  have hdone := apply_cases hv
  cases operation
  case init =>
    obtain ⟨hm, rfl⟩ := hdone
    rcases origin_of_init h hm hj with hold | ⟨hw, hnew⟩
    · exact ⟨j, ⟨rfl, rfl⟩, .inl hold⟩
    · exact ⟨j, ⟨rfl, rfl⟩, .inr ⟨.whole hw, hnew⟩⟩
  case setTotal new =>
    obtain ⟨hm, rfl⟩ := hdone
    rcases origin_of_setTotal h hm hj with hold | ⟨rfl, hnew⟩
    · exact ⟨j, ⟨rfl, rfl⟩, .inl hold⟩
    · exact ⟨j, ⟨rfl, rfl⟩, .inr ⟨.brought rfl, hnew⟩⟩
  case add new =>
    obtain ⟨isNew, hm, rfl⟩ := hdone
    rcases origin_of_add h hm hj with hold | ⟨rfl, hnew⟩
    · exact ⟨j, ⟨rfl, rfl⟩, .inl hold⟩
    · exact ⟨j, ⟨rfl, rfl⟩, .inr ⟨.brought rfl, hnew⟩⟩
  case remove id =>
    obtain ⟨found, hm, rfl⟩ := hdone
    exact ⟨j, ⟨rfl, rfl⟩, .inl ⟨mem_instances_of_remove hm hj, List.not_mem_nil⟩⟩
  case updateEnumeration env =>
    obtain ⟨r, hm, rfl⟩ := hdone
    exact traitFrom_of_updateEnumeration hk h rfl hm hj
  case updateInstances env =>
    obtain ⟨count, hm, rfl⟩ := hdone
    obtain ⟨i, hi, hsame⟩ := traitFrom_of_updateInstances hk hm hj
    exact ⟨i, hsame, .inl ⟨hi, List.not_mem_nil⟩⟩
  case update env refresh =>
    obtain ⟨r, hm, rfl⟩ := hdone
    obtain ⟨found, m', hm', rfl, ⟨-, rfl, -⟩ | ⟨-, -, count, hi, -⟩⟩ := update_cases hm
    · exact traitFrom_of_updateEnumeration hk h rfl hm' hj
    · obtain ⟨j', hj', hlooked⟩ := traitFrom_of_updateInstances hk hi hj
      have hmatched : k.TraitFrom trait e (.update env refresh) _ j' :=
        traitFrom_of_updateEnumeration hk h rfl hm' hj'
      obtain ⟨i, hsame, horigin⟩ := hmatched
      have hadded : addedBy (r.map UpdateReport.reconciliation) m =
          addedBy (r.map UpdateReport.reconciliation) m' := addedBy_of_updateInstances hi _
      rw [← hlooked.1, ← hadded] at horigin
      exact ⟨i, ⟨hlooked.1.trans hsame.1, hlooked.2.trans hsame.2⟩, horigin⟩
  case cleanup =>
    obtain ⟨hm, rfl⟩ := hdone
    exact ⟨j, ⟨rfl, rfl⟩, .inl ⟨mem_instances_of_cleanup hm hj, List.not_mem_nil⟩⟩

variable {operation : Operation Env Data} {taken : List Handle} {id : Identity}

/-- What is found under an identity before and after an operation agrees in the trait. -/
theorem Kind.Fixes.of_find? (hk : k.Fixes trait) (h : e.WellFormed)
    (hv : (e.apply ⟨k, operation⟩).value = .ok (taken, m)) {i : Instance Data}
    (hi : e.find? id = some i) (hj : m.find? id = some j) : Same trait i j := by
  have ht := transition_of_apply h hv
  have hsubject := ht.wellFormed.subject_of_find? hj
  have hheld := mem_instances_of_find? hi
  obtain ⟨i', hsame, ⟨hold, -⟩ | ⟨-, hnew⟩⟩ := traitFrom_of_apply hk h hv (mem_instances_of_find? hj)
  · have heq : i'.subject = i.subject :=
      (hsame.1.symm.trans hsubject).trans (h.subject_of_find? hi).symm
    obtain rfl := h.eq_of_subject hold hheld heq
    exact hsame
  · rw [hsubject] at hnew
    have hin : Subject.named id ∈ e.subjects :=
      h.named_mem_subjects.2 (find?_isSome.1 (Option.isSome_iff_exists.2 ⟨i, hi⟩))
    cases (ht.free _ hnew hin).1

/-- What is found under an identity that was not held before has come with the operation. -/
theorem Kind.Fixes.takesIn_of_find? (hk : k.Fixes trait) (h : e.WellFormed)
    (hv : (e.apply ⟨k, operation⟩).value = .ok (taken, m)) (hid : id ∉ e.ids)
    (hj : m.find? id = some j) : ∃ i, Same trait i j ∧ k.TakesIn operation i := by
  have hsubject := (transition_of_apply h hv).wellFormed.subject_of_find? hj
  obtain ⟨i, hsame, ⟨hold, -⟩ | ⟨hin, -⟩⟩ := traitFrom_of_apply hk h hv (mem_instances_of_find? hj)
  · have hmem : Subject.named id ∈ e.subjects := by
      rw [← hsubject, hsame.1, subjects_eq_map]
      exact List.mem_map_of_mem hold
    exact absurd (h.named_mem_subjects.1 hmem) hid
  · exact ⟨i, hsame, hin⟩

end Fixes

/-! ### Runs -/

/-- The last step of a run that takes in an instance of the subject, if there is one. -/
def takenInBy (e : Enumeration Cache Data) (s : Subject) :
    List (Step Env Cache Data) → Option (Step Env Cache Data)
  | [] => none
  | step :: rest =>
    match (e.apply step).value with
    | .ok (taken, m) => (takenInBy m s rest).or (if s ∈ subjectsOf taken then some step else none)
    | .error _ => none

theorem takenInBy_cons {e m : Enumeration Cache Data} {step : Step Env Cache Data}
    {taken : List Handle} (hm : (e.apply step).value = .ok (taken, m)) (s : Subject)
    (rest : List (Step Env Cache Data)) :
    e.takenInBy s (step :: rest) =
      (m.takenInBy s rest).or (if s ∈ subjectsOf taken then some step else none) := by
  simp only [takenInBy, hm]

/-- **What no call touches stays as it was taken in.** After a run an instance has the trait
with which it came by the last step that took in an instance of its subject, or, if there is none
such, the one it had to begin with. -/
theorem trait_of_run {Trait : Type} {trait : Data → Trait}
    {e e' : Enumeration Cache Data} (h : e.WellFormed) {steps : List (Step Env Cache Data)}
    (hk : ∀ step ∈ steps, step.kind.Fixes trait) {history : List Event}
    (hv : (e.run steps).value = .ok (history, e')) {j : Instance Data} (hj : j ∈ e'.instances) :
    ∃ i, Same trait i j ∧
      ((e.takenInBy j.subject steps = none ∧ i ∈ e.instances) ∨
        ∃ step ∈ steps, e.takenInBy j.subject steps = some step ∧
          step.kind.TakesIn step.operation i) := by
  induction steps generalizing e history with
  | nil =>
    obtain ⟨rfl, rfl⟩ := Prod.mk.inj (Except.ok.inj hv)
    exact ⟨j, ⟨rfl, rfl⟩, .inl ⟨rfl, hj⟩⟩
  | cons step rest ih =>
    obtain ⟨hstep, hrest⟩ := List.forall_mem_cons.1 hk
    obtain ⟨taken, m, history', hm, hr, rfl⟩ := run_cons_cases hv
    rw [takenInBy_cons hm]
    obtain ⟨i, hsame, ⟨hnone, hi⟩ | ⟨step', hmem, hlast, hin⟩⟩ :=
      ih (transition_of_apply h hm).wellFormed hrest hr
    · -- Nothing later has taken in the subject, so it is this step or none.
      obtain ⟨i', hsame', horigin⟩ := traitFrom_of_apply hstep h hm hi
      rw [hnone, Option.none_or]
      refine ⟨i', ⟨hsame.1.trans hsame'.1, hsame.2.trans hsame'.2⟩, ?_⟩
      rw [← hsame.1] at horigin
      rcases horigin with ⟨hold, hnot⟩ | ⟨hin, hnew⟩
      · exact .inl ⟨if_neg hnot, hold⟩
      · exact .inr ⟨step, List.mem_cons_self, if_pos hnew, hin⟩
    · rw [hlast, Option.some_or]
      exact ⟨i, hsame, .inr ⟨step', List.mem_cons_of_mem _ hmem, rfl, hin⟩⟩

end HostInventory.Enumeration
