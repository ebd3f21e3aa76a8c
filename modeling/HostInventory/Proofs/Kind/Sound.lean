import HostInventory.Inventory.Basic
import HostInventory.Proofs.Enumeration.Invariant
import HostInventory.Proofs.Kind.Atomic
import HostInventory.Proofs.Kind.Regular

/-! Instances that are what they are called.

The data of an instance says what the instance is about: a processor by its number, a disk by
its mount point, an interface by its name, a package by its key. The kinds build, tell and
refresh instances so that this is their subject (`KindName.keeps_sound`), and so it is after
any run in which callers bring no others (`KindName.Reachable.sound`). -/
namespace HostInventory

open Enumeration FileTree

theorem Network.name_of_look {places : Network.Places} {host : Provider}
    {last info : Network.Info} (h : Network.look places host last = .ok info) :
    info.name = last.name := by
  unfold Network.look at h
  cases hf : Network.flags places host last.name with
  | error f =>
    rw [hf] at h
    cases h
  | ok flags =>
    cases hr : Network.row places host last.name with
    | error f =>
      rw [hf, hr] at h
      cases h
    | ok row =>
      rw [hf, hr] at h
      cases h
      rfl

/-- All that is told is whether the mount point is listed. -/
theorem Disk.setPresent_value (present : Bool) (info : Disk.Info) :
    (Disk.setPresent present info).value = { info with online := present } := by
  unfold Disk.setPresent
  split <;> rfl

theorem Disk.subject_of_instantiate_data {mounts : Disk.Mounts} {id : Identity}
    {i : Instance Disk.Info} (h : Disk.instantiate mounts id = .ok i) :
    i.subject = .named ⟨i.data.mountPoint⟩ := by
  unfold Disk.instantiate at h
  split at h
  · cases h
    rfl
  · cases h

namespace KindName

/-- What an instance is about, by its data. -/
def subjectOf : (k : KindName) → k.Data → Subject
  | .memory, _ | .os, _ | .bios, _ => .whole
  | .cpu, d => Cpu.subjectOf d.info.processor
  | .disk, d => .named ⟨d.mountPoint⟩
  | .network, d => .named ⟨d.name⟩
  | .software, d => .named ⟨d.key⟩

/-- An instance is about what it is called; what a processor is measured against has been
summed up. -/
def Sound : (k : KindName) → Instance k.Data → Prop
  | .cpu, i => Cpu.Sound i
  | k, i => i.subject = k.subjectOf i.data

theorem Sound.named {k : KindName} {i : Instance k.Data} (h : k.Sound i) :
    i.subject = k.subjectOf i.data := by
  cases k
  case cpu => exact Cpu.Sound.named h
  all_goals exact h

/-- A look at an instance finds nothing about another one. -/
theorem subjectOf_refresh {k : KindName} (hk : k ≠ .cpu) {s : Settings} {host : Provider}
    {cache : k.Cache} {i : Instance k.Data} {d : k.Data}
    (h : ((k.kind s).refresh host cache i).value = .ok (.ok d)) :
    k.subjectOf d = k.subjectOf i.data := by
  cases k with
  | memory => rfl
  | os => rfl
  | bios => rfl
  | cpu => exact absurd rfl hk
  | disk =>
    have hlook : Disk.look host i.data = .ok d := Except.ok.inj h
    unfold Disk.look at hlook
    split at hlook
    · cases hlook
      rfl
    · split at hlook
      · cases hlook
        rfl
      · cases hlook
  | network =>
    have hlook : Network.look _ host i.data = .ok d := Except.ok.inj h
    exact congrArg (fun name => Subject.named ⟨name⟩) (Network.name_of_look hlook)
  | software =>
    have hlook : Software.look cache i.data = .ok d := Except.ok.inj h
    unfold Software.look at hlook
    split at hlook
    · cases hlook
      rfl
    · cases hlook

theorem sound_lookedAt {k : KindName} {s : Settings} {host : Provider} {cache : k.Cache}
    {i : Instance k.Data} (hi : k.Sound i) : k.Sound ((k.kind s).lookedAt host cache i).2 := by
  by_cases hk : k = .cpu
  · subst hk
    exact Cpu.sound_lookedAt hi
  · have hnamed : ((k.kind s).lookedAt host cache i).2.subject =
        k.subjectOf ((k.kind s).lookedAt host cache i).2.data := by
      rw [lookedAt_subject, hi.named]
      unfold Kind.lookedAt
      split
      · next d hd => exact (subjectOf_refresh hk hd).symm
      · next f left hd =>
        have hleft : left = i.data := (k.atomic s).look host cache i.reset f left hd
        subst hleft
        cases k
        case cpu => exact absurd rfl hk
        all_goals rfl
      · rfl
    cases k
    case cpu => exact absurd rfl hk
    all_goals exact hnamed

theorem keeps_sound (s : Settings) (k : KindName) : (k.kind s).Keeps k.Sound where
  whole := fun i hi => by
    cases k <;> cases hi
    case cpu => exact ⟨rfl, nofun⟩
    all_goals rfl
  built := fun host cache id i hi => by
    cases k
    case cpu =>
      obtain ⟨n, -, rfl⟩ := Cpu.instantiate_cases hi
      exact ⟨rfl, nofun⟩
    case disk => exact Disk.subject_of_instantiate_data hi
    case network | software =>
      cases hi
      rfl
    all_goals cases hi
  told := fun present i hi => by
    cases k
    case disk =>
      show i.subject = .named ⟨(Disk.setPresent present i.data).value.mountPoint⟩
      rw [Disk.setPresent_value]
      exact hi
    all_goals exact hi
  lookedAt := fun _ _ _ hi => sound_lookedAt hi

/-! ### Runs -/

/-- A step under fixed settings, of a caller who brings only sound instances. -/
structure Proper (s : Settings) (k : KindName) (step : Step Provider k.Cache k.Data) : Prop where
  kind_eq : step.kind = k.kind s
  brought : ∀ i, step.operation.brought? = some i → k.Sound i

/-- Most operations bring nothing. -/
theorem Proper.of_brought {s : Settings} {k : KindName} (operation : Operation Provider k.Data)
    (h : operation.brought? = none) : Proper s k ⟨k.kind s, operation⟩ :=
  ⟨rfl, fun _ hi => nomatch h.symm.trans hi⟩

/-- The enumerations that proper steps lead to, in any number and on any hosts. -/
def Reachable (s : Settings) (k : KindName) (e : Enumeration k.Cache k.Data) : Prop :=
  ∃ steps history, (∀ step ∈ steps, Proper s k step) ∧
    (k.empty.run steps).value = .ok (history, e)

namespace Reachable

variable {s : Settings} {k : KindName} {e e' : Enumeration k.Cache k.Data}

/-- One more step. -/
theorem apply (h : Reachable s k e) {step : Step Provider k.Cache k.Data} (hstep : Proper s k step)
    {taken : List Handle} (hv : (e.apply step).value = .ok (taken, e')) : Reachable s k e' := by
  obtain ⟨steps, history, hsteps, hrun⟩ := h
  obtain ⟨history', hrun'⟩ := run_concat hrun hv
  refine ⟨steps ++ [step], history', ?_, hrun'⟩
  intro step' hstep'
  rcases List.mem_append.1 hstep' with hstep' | hstep'
  · exact hsteps step' hstep'
  · rw [List.mem_singleton.1 hstep']
    exact hstep

theorem update (h : Reachable s k e) {host : Provider} {refresh : Bool}
    {r : Except Failure UpdateReport}
    (hv : (e.update (k.kind s) host refresh).value = .ok (r, e')) : Reachable s k e' :=
  h.apply (.of_brought (.update host refresh) rfl) (Outcome.value_bind_of_ok hv _)

theorem wellFormed (h : Reachable s k e) : e.WellFormed := by
  obtain ⟨steps, history, -, hrun⟩ := h
  have hempty : k.empty.WellFormed := by cases k <;> exact .empty _
  exact hempty.run hrun

theorem sound (h : Reachable s k e) : e.All k.Sound := by
  obtain ⟨steps, history, hsteps, hrun⟩ := h
  have hempty : k.empty.All k.Sound := by cases k <;> exact All.empty _ _
  exact hempty.run (fun step hstep => (hsteps step hstep).kind_eq ▸ keeps_sound s k)
    (fun step hstep => (hsteps step hstep).brought) hrun

end Reachable

end KindName
end HostInventory
