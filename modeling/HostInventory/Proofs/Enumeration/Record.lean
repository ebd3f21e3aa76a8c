import HostInventory.Proofs.Enumeration.Map

/-! What has become of each instance.

A kind can be made to write down, in the instance, how it began and what every look at it left
(`Kind.recording`). Nothing else changes: a run of recording kinds, with the records forgotten,
is the run (`run_recording`). A record tells whether the last look failed and what the last one
that did not fail has found; if neither a failure nor a word on its presence touches the figures
of an instance, then these are the figures that it carries, at any point of any run
(`recorded_of_run`). -/
namespace HostInventory.Enumeration

variable {Env Cache Data Figures : Type}

/-- How an instance began, what it holds, and what each look at it left, the last one first, with
nothing for a look that failed. -/
structure Record (Data : Type) where
  start : Instance Data
  current : Data
  looks : List (Option Data) := []

namespace Record

/-- The record of an instance that has not been looked at. -/
def opened (i : Instance Data) : Instance (Record Data) where
  subject := i.subject
  failure := i.failure
  data := { start := i, current := i.data }
  serial := i.serial

/-- The record after a look that left `d`. -/
def found (r : Record Data) (d : Data) : Record Data :=
  { r with current := d, looks := some d :: r.looks }

/-- What the last look left that did not fail; before there is one, what there was at first. -/
def lastGood (r : Record Data) : Data :=
  (r.looks.findSome? id).getD r.start.data

/-- The last look has failed; before there is one, the instance came with a failure. -/
def failing (r : Record Data) : Bool :=
  match r.looks with
  | [] => r.start.failure.isSome
  | look :: _ => look.isNone

/-- What comes of a look, for the record; that it failed is written down behind it. -/
def looked (r : Record Data) : Except (Failure × Data) Data →
    Except (Failure × Record Data) (Record Data)
  | .ok d => .ok (r.found d)
  | .error (f, d) => .error (f, { r with current := d })

/-- The instance bears out its record. -/
structure Faithful (figures : Data → Figures) (i : Instance (Record Data)) : Prop where
  failure : i.failure.isSome = i.data.failing
  figures : figures i.data.current = figures i.data.lastGood

end Record

/-- The kind that does the same and writes down what each look has left. -/
def Kind.recording (k : Kind Env Cache Data) : Kind Env Cache (Record Data) where
  name := k.name
  policy := k.policy
  whole := k.whole.map Record.opened
  discover := k.discover
  instantiate env cache id := (k.instantiate env cache id).map Record.opened
  refresh env cache i :=
    Except.map i.data.looked <$> k.refresh env cache (i.map Record.current)
  afterFailure r := { r with current := k.afterFailure r.current, looks := none :: r.looks }
  setPresent present r := (fun d => { r with current := d }) <$> k.setPresent present r.current
  release := k.release

/-- The step of the recording kind. -/
def Step.recording (step : Step Env Cache Data) : Step Env Cache (Record Data) :=
  ⟨step.kind.recording, step.operation.map Record.opened⟩

theorem map_opened (i : Instance Data) : (Record.opened i).map Record.current = i := rfl

theorem maps_recording (k : Kind Env Cache Data) : k.recording.Maps Record.current k where
  name := rfl
  policy := rfl
  whole := by
    cases hw : k.whole <;> simp [Kind.recording, hw, map_opened]
  discover := fun _ _ => rfl
  instantiate := fun env cache id => by
    cases hi : k.instantiate env cache id <;> simp [Kind.recording, hi, Except.map, map_opened]
  refresh := fun env cache i => by
    have hforget : ∀ r : Except Fault (Except (Failure × Data) Data),
        (r.map i.data.looked).map (mapLook Record.current) = r := by
      rintro (fault | left | d) <;> rfl
    simp only [Kind.recording, Functor.map_map, hforget, id_map']
  afterFailure := fun _ => rfl
  setPresent := fun _ _ => by
    simp only [Kind.recording, Functor.map_map, id_map']
  release := fun _ => rfl

theorem step_maps_recording (step : Step Env Cache Data) :
    step.recording.Maps Record.current step where
  kind := maps_recording step.kind
  operation := by
    obtain ⟨k, operation⟩ := step
    cases operation <;> rfl

/-- Writing down changes nothing else. -/
theorem run_recording {e e' : Enumeration Cache Data} {steps : List (Step Env Cache Data)}
    {history : List Event} (hv : (e.run steps).value = .ok (history, e')) :
    ∃ x, ((e.map Record.opened).run (steps.map Step.recording)).value = .ok (history, x) ∧
      x.map (.map Record.current) = e' := by
  have hsteps : List.Forall₂ (Step.Maps Record.current) (steps.map Step.recording) steps :=
    List.forall₂_map_left_iff.2 (List.forall₂_same.2 fun step _ => step_maps_recording step)
  have hforget : (e.map Record.opened).map (.map Record.current) = e := by
    rw [map_map]
    exact map_eq_self fun i _ => map_opened i
  rw [← hforget, run_map hsteps] at hv
  obtain ⟨⟨history', x⟩, hx, heq⟩ := Outcome.value_map_eq_ok.1 hv
  obtain ⟨rfl, rfl⟩ := Prod.mk.inj heq
  exact ⟨x, hx, rfl⟩

/-! ### What a record says -/

/-- Neither a look that fails nor what is done with the failure touches the figures of an
instance, nor does a word on its presence. -/
structure Kind.KeepsFigures (k : Kind Env Cache Data) (figures : Data → Figures) : Prop where
  failedLook : ∀ env cache i f d, (k.refresh env cache i).value = .ok (.error (f, d)) →
    figures d = figures i.data
  afterFailure : ∀ d, figures (k.afterFailure d) = figures d
  setPresent : ∀ present d, figures (k.setPresent present d).value = figures d

section Faithful
variable {figures : Data → Figures}

theorem Record.faithful_opened (i : Instance Data) : Faithful figures (opened i) where
  failure := rfl
  figures := rfl

theorem Kind.KeepsFigures.keeps {k : Kind Env Cache Data} (hk : k.KeepsFigures figures) :
    k.recording.Keeps (Record.Faithful figures) where
  whole := fun i hi => by
    obtain ⟨j, -, rfl⟩ := Option.map_eq_some_iff.1 hi
    exact Record.faithful_opened j
  built := fun env cache id i hi => by
    have hbuilt : (k.instantiate env cache id).map Record.opened = .ok i := hi
    cases hj : k.instantiate env cache id with
    | error f =>
      rw [hj] at hbuilt
      cases hbuilt
    | ok j =>
      rw [hj] at hbuilt
      cases hbuilt
      exact Record.faithful_opened j
  told := fun present i hi => ⟨hi.failure, (hk.setPresent present i.data.current).trans hi.figures⟩
  lookedAt := fun env cache i hi => by
    have hlook : (k.recording.refresh env cache i.reset).value =
        (k.refresh env cache (i.reset.map Record.current)).value.map i.data.looked := rfl
    cases hr : (k.refresh env cache (i.reset.map Record.current)).value with
    | error fault =>
      rw [hr] at hlook
      rw [lookedAt_of_fault hlook]
      exact hi
    | ok r =>
      rw [hr] at hlook
      cases r with
      | ok d =>
        rw [lookedAt_of_ok hlook]
        exact ⟨rfl, rfl⟩
      | error left =>
        obtain ⟨f, d⟩ := left
        rw [lookedAt_of_error hlook]
        have hleft : figures d = figures i.data.current := hk.failedLook env cache _ f d hr
        exact ⟨rfl, (hk.afterFailure d).trans (hleft.trans hi.figures)⟩

end Faithful

/-- **What an instance carries is what its looks have left.** Whatever is done with an enumeration,
the records that are written on the way are borne out by every instance. -/
theorem recorded_of_run {figures : Data → Figures} {e e' : Enumeration Cache Data}
    {steps : List (Step Env Cache Data)} (hk : ∀ step ∈ steps, step.kind.KeepsFigures figures)
    {history : List Event} (hv : (e.run steps).value = .ok (history, e')) :
    ∃ x, ((e.map Record.opened).run (steps.map Step.recording)).value = .ok (history, x) ∧
      x.map (.map Record.current) = e' ∧ x.All (Record.Faithful figures) := by
  obtain ⟨x, hx, hforget⟩ := run_recording hv
  refine ⟨x, hx, hforget, ?_⟩
  have hopened : (e.map Record.opened).All (Record.Faithful figures) := by
    intro i hi
    rw [instances_map] at hi
    obtain ⟨j, -, rfl⟩ := List.mem_map.1 hi
    exact Record.faithful_opened j
  refine hopened.run (List.forall_mem_map.2 fun step hstep => (hk step hstep).keeps) ?_ hx
  refine List.forall_mem_map.2 fun step _ i hi => ?_
  obtain ⟨k, operation⟩ := step
  cases operation <;> cases hi <;> exact Record.faithful_opened _

end HostInventory.Enumeration
