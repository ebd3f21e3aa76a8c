import HostInventory.FileTree.Tree
import HostInventory.Inventory.Basic
import HostInventory.Proofs.Enumeration.Record
import HostInventory.Proofs.Kind.Atomic
import HostInventory.Proofs.Kind.Sound

/-! Figures.

The figures of an instance are all that its looks find. A look that fails has written none of
them, whatever it has read before it failed (`KindName.atomic`); only a processor loses its usage,
and with it the sample that the next one would be measured against, to what is done with the
failure. Whether a disk is online is no figure, since it is told and not found. So an instance
carries, at any point of any run, the figures of its last successful look, and a failure exactly
when the last look failed (`KindName.figures_of_last_good_look`). -/
namespace HostInventory.KindName

open Enumeration FileTree

/-- What is left of the data once a look at them has failed. -/
def afterFailure : (k : KindName) → k.Data → k.Data
  | .cpu, d => { info := { d.info with usage := none }, previous := none }
  | _, d => d

/-- What is found by looks: of a processor its ticks, of a disk all but whether it is online. -/
def figures : (k : KindName) → k.Data → k.Data
  | .cpu, d => { info := { d.info with usage := none }, previous := none }
  | .disk, d => { d with online := true }
  | _, d => d

theorem kind_afterFailure (s : Settings) (k : KindName) (d : k.Data) :
    (k.kind s).afterFailure d = k.afterFailure d := by
  cases k <;> rfl

theorem keepsFigures (s : Settings) (k : KindName) : (k.kind s).KeepsFigures k.figures where
  failedLook := fun host cache i f left h => by rw [(k.atomic s).look host cache i f left h]
  afterFailure := fun d => by cases k <;> rfl
  setPresent := fun present d => by
    cases k
    case disk =>
      show figures .disk (Disk.setPresent present d).value = figures .disk d
      rw [Disk.setPresent_value]
      rfl
    all_goals rfl

/-- One look: what it makes of the instance, by what it found. -/
theorem refreshOne_cases (s : Settings) (k : KindName) (host : Provider) (cache : k.Cache)
    (i : Instance k.Data) :
    match ((k.kind s).refresh host cache i.reset).value with
    | .ok (.ok d) => (refreshOne (k.kind s) host cache i).value =
        .ok (true, ⟨i.subject, none, d, i.serial⟩)
    | .ok (.error (f, left)) => left = i.data ∧ (refreshOne (k.kind s) host cache i).value =
        .ok (false, ⟨i.subject, some f.message, k.afterFailure i.data, i.serial⟩)
    | .error fault => (refreshOne (k.kind s) host cache i).value = .error fault := by
  cases hr : ((k.kind s).refresh host cache i.reset).value with
  | error fault => exact refreshOne_of_fault hr
  | ok r =>
    rw [(refreshOne_eq ⟨r, hr⟩).1]
    cases r with
    | ok d => exact congrArg Except.ok (lookedAt_of_ok hr)
    | error left =>
      have hleft : left.2 = i.data := (k.atomic s).look host cache i.reset left.1 left.2 hr
      refine ⟨hleft, ?_⟩
      rw [lookedAt_of_error hr, kind_afterFailure, hleft]
      rfl

/-- **An instance carries the figures of its last successful look.** A look that fails leaves the
data it was given, whichever file it fails at, and its message is all that is captured. So after
any run the records of the looks (`Kind.recording`) tell which instances have a failure and whose
figures they carry. -/
theorem figures_of_last_good_look (k : KindName) :
    (∀ (s : Settings) (host : Provider) (cache : k.Cache) (i : Instance k.Data),
      match ((k.kind s).refresh host cache i.reset).value with
      | .ok (.ok d) => (refreshOne (k.kind s) host cache i).value =
          .ok (true, ⟨i.subject, none, d, i.serial⟩)
      | .ok (.error (f, left)) => left = i.data ∧ (refreshOne (k.kind s) host cache i).value =
          .ok (false, ⟨i.subject, some f.message, k.afterFailure i.data, i.serial⟩)
      | .error fault => (refreshOne (k.kind s) host cache i).value = .error fault) ∧
    ∀ (e e' : Enumeration k.Cache k.Data) (steps : List (Step Provider k.Cache k.Data))
      (history : List Event), (∀ step ∈ steps, ∃ s, step.kind = k.kind s) →
      (e.run steps).value = .ok (history, e') →
      ∃ x, ((e.map Record.opened).run (steps.map Step.recording)).value = .ok (history, x) ∧
        x.map (.map Record.current) = e' ∧ ∀ i ∈ x.instances,
          i.failure.isSome = i.data.failing ∧
          k.figures i.data.current = k.figures i.data.lastGood := by
  refine ⟨fun s host cache i => refreshOne_cases s k host cache i, ?_⟩
  intro e e' steps history hsteps hv
  have hk : ∀ step ∈ steps, step.kind.KeepsFigures k.figures := by
    intro step hstep
    obtain ⟨s, hs⟩ := hsteps step hstep
    exact hs ▸ keepsFigures s k
  obtain ⟨x, hx, hforget, hfaithful⟩ := recorded_of_run hk hv
  exact ⟨x, hx, hforget, fun i hi => ⟨(hfaithful i hi).failure, (hfaithful i hi).figures⟩⟩

/-- The tables of the firmware become unreadable after a look that has found them. -/
theorem figures_of_last_good_look_unreadable :
    let k := KindName.bios
    let host := (Tree.addFile {} ⟨"/sys/class/dmi/id/bios_vendor"⟩ "Acme\n").provider
    let steps : List (Step Provider k.Cache k.Data) := [⟨k.kind {}, .init⟩,
      ⟨k.kind {}, .update host true⟩, ⟨k.kind {}, .updateInstances ({} : Tree).provider⟩]
    ∃ history e x i, (k.empty.run steps).value = .ok (history, e) ∧
      ((k.empty.map Record.opened).run (steps.map Step.recording)).value = .ok (history, x) ∧
      x.map (.map Record.current) = e ∧ x.total = some i ∧
      i.data.looks = [none, some { vendor := "Acme" }] ∧
      i.failure.isSome = true ∧ i.data.current = { vendor := "Acme" } := by
  intro k host steps
  have hread : (((k.empty.map Record.opened).run (steps.map Step.recording)).value.toOption.bind
      fun x => x.2.total.map fun i => i.data.looks) =
      some [none, some { vendor := "Acme" }] := by
    decide +kernel
  have hreturns : (k.empty.run steps).value.toOption.isSome = true := by decide +kernel
  obtain ⟨⟨history, e⟩, hv⟩ := Option.isSome_iff_exists.1 hreturns
  obtain ⟨⟨history', x⟩, hx, hread⟩ := Option.bind_eq_some_iff.1 hread
  obtain ⟨i, hi, hlooks⟩ := Option.map_eq_some_iff.1 hread
  rw [Outcome.toOption_eq_some] at hv hx
  have hkinds : ∀ step ∈ steps, ∃ s, step.kind = k.kind s := by
    simp only [steps, List.forall_mem_cons]
    exact ⟨⟨{}, rfl⟩, ⟨{}, rfl⟩, ⟨{}, rfl⟩, List.forall_mem_nil _⟩
  obtain ⟨-, hruns⟩ := figures_of_last_good_look k
  obtain ⟨x', hx', hforget, hborne⟩ := hruns k.empty e steps history hkinds hv
  obtain ⟨rfl, rfl⟩ := Prod.mk.inj (Except.ok.inj (hx.symm.trans hx'))
  obtain ⟨hfailure, hfigures⟩ := hborne i (List.mem_append_left _ (Option.mem_toList.2 hi))
  rw [Record.failing, hlooks] at hfailure
  have hcurrent : i.data.current = i.data.lastGood := hfigures
  rw [Record.lastGood, hlooks] at hcurrent
  exact ⟨history', e, x, i, hv, hx, hforget, hi, hlooks, hfailure, hcurrent⟩

end HostInventory.KindName
