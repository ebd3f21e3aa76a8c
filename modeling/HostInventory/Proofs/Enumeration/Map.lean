import HostInventory.Proofs.Enumeration.Invariant

/-! Enumerations under a map of their data.

A kind may keep more in its instances than another one and do the same with the rest. Then the
map that forgets the difference commutes with all that the two kinds do (`Kind.Maps`), and so it
does with every operation on their enumerations, with what they answer, call and say
(`apply_map`), and with any run of operations (`run_map`). -/
namespace HostInventory.Enumeration

variable {Env Cache Data Data' : Type}

/-- An answer, with the enumeration under a map of the data. -/
def answer {α : Type} (f : Data → Data') (x : α × Enumeration Cache Data) :
    α × Enumeration Cache Data' :=
  (x.1, x.2.map (.map f))

/-- What comes of a look, under a map of the data. -/
def mapLook (f : Data → Data') : Except (Failure × Data) Data → Except (Failure × Data') Data'
  | .ok d => .ok (f d)
  | .error (failure, d) => .error (failure, f d)

/-- The first kind does with its instances what the second does with their images. -/
structure Kind.Maps (f : Data → Data') (k : Kind Env Cache Data) (k' : Kind Env Cache Data') :
    Prop where
  name : k'.name = k.name
  policy : k'.policy = k.policy
  whole : k'.whole = k.whole.map (Instance.map f)
  discover : ∀ env cache, k'.discover env cache = k.discover env cache
  instantiate : ∀ env cache id,
    k'.instantiate env cache id = (k.instantiate env cache id).map (Instance.map f)
  refresh : ∀ env cache i, k'.refresh env cache (i.map f) =
    Except.map (mapLook f) <$> k.refresh env cache i
  afterFailure : ∀ d, k'.afterFailure (f d) = f (k.afterFailure d)
  setPresent : ∀ present d, k'.setPresent present (f d) = f <$> k.setPresent present d
  release : ∀ cache, k'.release cache = k.release cache

/-! ### Operations -/

theorem remove_map (f : Data → Data') (e : Enumeration Cache Data) (id : Identity) :
    (e.map (.map f)).remove id = answer f <$> e.remove id := by
  unfold remove
  rw [find?_map]
  cases e.find? id with
  | none => rfl
  | some i => simp [answer, map, List.filter_map, Function.comp_def]

section Operations
variable {f : Data → Data'} {k : Kind Env Cache Data} {k' : Kind Env Cache Data'}
  (h : k.Maps f k')
include h

theorem require_map (e : Enumeration Cache Data) (operation : String) :
    (e.map (.map f)).require k' operation = e.require k operation := by
  simp only [require, map, h.name]

theorem setTotal_map (e : Enumeration Cache Data) (i : Instance Data) :
    (e.map (.map f)).setTotal k' (i.map f) = map (.map f) <$> e.setTotal k i := by
  unfold setTotal
  by_cases hi : i.subject = .whole
  · cases ht : e.total <;> simp [map, hi, ht]
  · simp [hi, h.name]

theorem init_map (e : Enumeration Cache Data) :
    (e.map (.map f)).init k' = map (.map f) <$> e.init k := by
  unfold init
  by_cases hp : e.phase = .uninitialized
  · cases hw : k.whole with
    | none => simp [map, hp, h.whole, h.name, hw]
    | some i =>
      have hready : ∀ m : Enumeration Cache Data, ({ m with phase := .initialized } :
          Enumeration Cache Data).map (.map f) = { m.map (.map f) with phase := .initialized } :=
        fun _ => rfl
      simp [hp, h.whole, h.name, hw, setTotal_map h, hready]
  · simp [hp, h.name]

theorem add_map (e : Enumeration Cache Data) (i : Instance Data) :
    (e.map (.map f)).add k' (i.map f) = (e.add k i).map (answer f) := by
  unfold add
  rw [phase_map, Instance.map_subject, h.name]
  split
  · rfl
  · cases i.subject with
    | whole => rfl
    | named id =>
      simp only [isHeld_map]
      split
      · rfl
      · simp [Except.map, answer, map]

theorem removeAll_map (ids : List Identity) (e : Enumeration Cache Data) :
    removeAll k' ids (e.map (.map f)) = map (.map f) <$> removeAll k ids e := by
  induction ids generalizing e with
  | nil => rfl
  | cons id rest ih => simp [removeAll, remove_map, answer, h.name, ih]

theorem cleanup_map (e : Enumeration Cache Data) :
    (e.map (.map f)).cleanup k' = map (.map f) <$> e.cleanup k := by
  have hcalls : ∀ is : List (Instance Data),
      (is.map (Instance.map f)).forM
          (fun i => Outcome.calling (.cleanup i.handle) (pure ())) =
        is.forM fun i => Outcome.calling (.cleanup i.handle) (pure ()) := by
    intro is
    induction is with
    | nil => rfl
    | cons i rest ih =>
      exact congrArg (Outcome.calling (.cleanup i.handle) (pure ()) >>= ·) (funext fun _ => ih)
  have hinstances := instances_map (Instance.map f) e
  unfold instances at hinstances
  unfold cleanup
  rw [phase_map, h.name, hinstances, hcalls, cache_map, h.release]
  split
  · rfl
  · simp only [map_bind, map_pure]
    rfl

/-! ### Updates -/

/-- The survey with the instances under a map of the data. -/
def Survey.map (f : Data → Data') (s : Survey Data) : Survey Data' where
  seen := s.seen
  built := s.built.map (.map f)
  skipped := s.skipped

theorem survey_map (e : Enumeration Cache Data) (env : Env) (listing : List Identity)
    (s : Survey Data) :
    survey (e.map (.map f)) k' env listing (s.map f) = .map f <$> survey e k env listing s := by
  induction listing generalizing s with
  | nil => rfl
  | cons id rest ih =>
    have hseen : (s.map f).seen = s.seen := rfl
    unfold survey
    rw [hseen, isHeld_map, h.instantiate]
    split
    · exact ih s
    · split
      · exact ih { s with seen := id :: s.seen }
      · rw [cache_map]
        cases hi : k.instantiate env e.cache id with
        | ok i =>
          have hmap : (i.map f).subject = i.subject := rfl
          simp only [Except.map, Outcome.calling_bind, Outcome.map_calling, pure_bind]
          refine congrArg (Outcome.calling _) ?_
          by_cases hsub : i.subject = .named id
          · rw [if_pos (hmap.trans hsub), if_pos hsub]
            exact ih { s with seen := id :: s.seen, built := i :: s.built }
          · rw [if_neg fun hmapped => hsub (hmap.symm.trans hmapped), if_neg hsub, h.name]
            rfl
        | error f' =>
          simp only [Except.map, h.name, Outcome.calling_bind, Outcome.map_calling, pure_bind,
            map_bind]
          refine congrArg (Outcome.calling _) ?_
          refine bind_congr fun _ => ?_
          exact ih { s with seen := id :: s.seen, skipped := id :: s.skipped }

theorem markAll_map (seen : List Identity) (held : List (Identity × Instance Data)) :
    markAll k' seen (held.map fun entry => (entry.1, entry.2.map f)) =
      (List.map fun entry => (entry.1, entry.2.map f)) <$> markAll k seen held := by
  induction held with
  | nil => rfl
  | cons entry rest ih =>
    simp only [List.map_cons, markAll, Instance.map_data, Instance.map_subject, h.setPresent, ih,
      Outcome.ofLogged_map, Outcome.calling_bind, Outcome.map_calling, bind_map_left, map_bind,
      map_pure]
    rfl

theorem addAll_map (is : List (Instance Data)) (e : Enumeration Cache Data) :
    addAll k' (is.map (.map f)) (e.map (.map f)) = answer f <$> addAll k is e := by
  induction is generalizing e with
  | nil => rfl
  | cons i rest ih =>
    simp only [List.map_cons, addAll, add_map h, Outcome.ofExcept_map, bind_map_left, map_bind,
      h.name, Instance.map_subject, answer, ih]
    refine bind_congr ?_
    rintro ⟨isNew, e⟩
    cases isNew with
    | false => rfl
    | true => cases i.subject <;> simp [answer]

theorem applyPolicy_map (e : Enumeration Cache Data) (seen : List Identity) :
    (e.map (.map f)).applyPolicy k' seen =
      (Prod.map id (answer f)) <$> e.applyPolicy k seen := by
  unfold applyPolicy
  rw [h.policy, ids_map]
  cases k.policy with
  | remove => simp [removeAll_map h, answer]
  | markStale =>
    simp only [held_map, markAll_map h, bind_map_left, map_bind, map_pure]
    rfl
  | retain => rfl

theorem reconcile_map (e : Enumeration Cache Data) (env : Env) (listing : List Identity) :
    (e.map (.map f)).reconcile k' env listing = answer f <$> e.reconcile k env listing := by
  have hsurvey := survey_map h e env listing {}
  have hnil : Survey.map f ({} : Survey Data) = {} := rfl
  rw [hnil] at hsurvey
  have hbuilt : ∀ s : Survey Data, (s.map f).built.reverse = s.built.reverse.map (.map f) :=
    fun s => List.map_reverse.symm
  simp only [reconcile_eq_bind, hsurvey, bind_map_left, map_bind, hbuilt]
  refine bind_congr fun s => ?_
  have hseen : (s.map f).seen = s.seen := rfl
  rw [hseen, applyPolicy_map h, bind_map_left]
  refine bind_congr ?_
  rintro ⟨removed, stale, m⟩
  simp only [Prod.map, answer, id, addAll_map h, bind_map_left, map_pure]
  rfl

theorem updateEnumeration_map (e : Enumeration Cache Data) (env : Env) :
    (e.map (.map f)).updateEnumeration k' env = answer f <$> e.updateEnumeration k env := by
  unfold updateEnumeration
  simp only [require_map h, cache_map, h.discover, map_bind]
  refine bind_congr fun _ => ?_
  refine bind_congr fun found => ?_
  cases found with
  | error left => rfl
  | ok x =>
    have hset : { e.map (Instance.map f) with cache := x.2 } =
        ({ e with cache := x.2 } : Enumeration Cache Data).map (.map f) := rfl
    simp only [hset, reconcile_map h, bind_map_left, map_bind, map_pure]
    rfl

theorem refreshOne_map (env : Env) (cache : Cache) (i : Instance Data) :
    refreshOne k' env cache (i.map f) = (Prod.map id (.map f)) <$> refreshOne k env cache i := by
  unfold refreshOne
  simp only [Instance.map_reset, Instance.map_subject, h.refresh, Outcome.ofLogged_map,
    Outcome.ofExcept_map, Outcome.calling_bind, Outcome.map_calling, bind_map_left, map_bind]
  refine congrArg (Outcome.calling _) ?_
  refine bind_congr fun found => ?_
  refine bind_congr fun r => ?_
  cases r with
  | ok d => rfl
  | error left =>
    simp only [mapLook, h.afterFailure, h.name, map_bind]
    rfl

theorem refreshTotal_map (env : Env) (cache : Cache) (total : Option (Instance Data)) :
    refreshTotal k' env cache (total.map (.map f)) =
      (Prod.map id (Option.map (.map f))) <$> refreshTotal k env cache total := by
  cases total with
  | none => rfl
  | some i =>
    simp only [Option.map_some, refreshTotal, refreshOne_map h, bind_map_left, map_bind, map_pure]
    rfl

theorem refreshHeld_map (env : Env) (cache : Cache) (count : RefreshCount)
    (held : List (Identity × Instance Data)) :
    refreshHeld k' env cache count (held.map fun entry => (entry.1, entry.2.map f)) =
      (Prod.map id (List.map fun entry => (entry.1, entry.2.map f))) <$>
        refreshHeld k env cache count held := by
  induction held generalizing count with
  | nil => rfl
  | cons entry rest ih =>
    simp only [List.map_cons, refreshHeld, refreshOne_map h, bind_map_left, map_bind]
    refine bind_congr ?_
    rintro ⟨succeeded, i⟩
    simp only [Prod.map, id, ih, bind_map_left, map_pure]
    rfl

theorem updateInstances_map (e : Enumeration Cache Data) (env : Env) :
    (e.map (.map f)).updateInstances k' env = answer f <$> e.updateInstances k env := by
  simp only [updateInstances, require_map h, total_map, held_map, cache_map, refreshTotal_map h,
    bind_map_left, map_bind]
  refine bind_congr fun _ => ?_
  refine bind_congr ?_
  rintro ⟨count, total⟩
  simp only [Prod.map, id, refreshHeld_map h, bind_map_left, map_pure]
  rfl

theorem update_map (e : Enumeration Cache Data) (env : Env) (refresh : Bool) :
    (e.map (.map f)).update k' env refresh = answer f <$> e.update k env refresh := by
  simp only [update, require_map h, updateEnumeration_map h, bind_map_left, map_bind]
  refine bind_congr fun _ => ?_
  refine bind_congr ?_
  rintro ⟨found, m⟩
  cases found with
  | error f' => rfl
  | ok reconciliation =>
    cases refresh with
    | false => rfl
    | true =>
      simp only [answer, if_true, updateInstances_map h, bind_map_left, map_bind, map_pure]

end Operations

/-! ### Runs -/

/-- The operation with another instance for the one that the caller brings. -/
def Operation.map (g : Instance Data → Instance Data') : Operation Env Data → Operation Env Data'
  | .init => .init
  | .setTotal i => .setTotal (g i)
  | .add i => .add (g i)
  | .remove id => .remove id
  | .updateEnumeration env => .updateEnumeration env
  | .updateInstances env => .updateInstances env
  | .update env refresh => .update env refresh
  | .cleanup => .cleanup

/-- One step does with instances what another does with their images. -/
structure Step.Maps (f : Data → Data') (step : Step Env Cache Data) (step' : Step Env Cache Data') :
    Prop where
  kind : step.kind.Maps f step'.kind
  operation : step'.operation = step.operation.map (.map f)

theorem apply_map {f : Data → Data'} {step : Step Env Cache Data} {step' : Step Env Cache Data'}
    (h : step.Maps f step') (e : Enumeration Cache Data) :
    (e.map (.map f)).apply step' = answer f <$> e.apply step := by
  obtain ⟨k, operation⟩ := step
  obtain ⟨k', operation'⟩ := step'
  obtain ⟨hk, rfl⟩ := h
  have hadded : ∀ r (x : Enumeration Cache Data), addedBy r (x.map (.map f)) = addedBy r x :=
    addedBy_map (Instance.map_handle f)
  cases operation with
  | init =>
    have hwhole : k'.whole.toList.map Instance.handle = k.whole.toList.map Instance.handle := by
      rw [hk.whole]
      cases k.whole <;> rfl
    simp only [apply, Operation.map, init_map hk, hwhole, bind_map_left, map_bind, map_pure, answer]
  | setTotal i =>
    simp only [apply, Operation.map, setTotal_map hk, bind_map_left, map_bind, map_pure, answer]
    rfl
  | add i =>
    simp only [apply, Operation.map, add_map hk, Outcome.ofExcept_map, bind_map_left, map_bind,
      map_pure, answer]
    rfl
  | remove id => simp only [apply, Operation.map, remove_map, bind_map_left, map_bind, map_pure, answer]
  | updateEnumeration env =>
    simp only [apply, Operation.map, updateEnumeration_map hk, bind_map_left, map_bind, map_pure,
      answer, hadded]
  | updateInstances env =>
    simp only [apply, Operation.map, updateInstances_map hk, bind_map_left, map_bind, map_pure, answer]
  | update env refresh =>
    simp only [apply, Operation.map, update_map hk, bind_map_left, map_bind, map_pure, answer,
      hadded]
  | cleanup =>
    simp only [apply, Operation.map, cleanup_map hk, bind_map_left, map_bind, map_pure, answer]

theorem releases_apply_map {f : Data → Data'} {step : Step Env Cache Data}
    {step' : Step Env Cache Data'} (h : step.Maps f step') (e : Enumeration Cache Data) :
    ((e.map (.map f)).apply step').releases = (e.apply step).releases := by
  rw [apply_map h]
  exact congrArg (List.filterMap Call.released?) (Outcome.calls_answer _ _)

/-- What is done with the instances is done with their images, and what is forgotten plays no
part in what comes of it. -/
theorem run_map {f : Data → Data'} {steps : List (Step Env Cache Data)}
    {steps' : List (Step Env Cache Data')} (h : List.Forall₂ (Step.Maps f) steps steps')
    (e : Enumeration Cache Data) : (e.map (.map f)).run steps' = answer f <$> e.run steps := by
  induction h generalizing e with
  | nil => rfl
  | cons hstep _ ih =>
    simp only [run, releases_apply_map hstep]
    rw [apply_map hstep, bind_map_left, map_bind]
    refine bind_congr ?_
    rintro ⟨taken, m⟩
    simp only [answer, ih, bind_map_left, map_bind, map_pure]

end HostInventory.Enumeration
