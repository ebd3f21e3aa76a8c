import HostInventory.Kind.Disk
import HostInventory.Proofs.Enumeration.Invariant
import HostInventory.Proofs.Kind.Atomic
import HostInventory.Proofs.Kind.Available
import HostInventory.Proofs.Kind.Shares

/-! How much is in use.

What a host says of its space and its memory need not fit together: more may be available than is
free, and more be free than there is. The differences that usage is made of stop at zero, each by
itself, and still a usage is always a share of something that is there, and without rounding from
nothing to a hundred percent of it (`Ratio.WithinHundred`). For a disk that is a matter of one set
of figures (`usedShare_withinHundred`), and there is no usage where nothing can be used
(`usedShare_eq_none_iff`). For memory it is what every look leaves, whatever the table says, and
what a look that fails does not touch (`keeps_genuine`). Both together are
`usage_within_hundred`. -/
namespace HostInventory

open Enumeration FileTree

/-- A share of something that is there, from nothing to a hundred percent. -/
structure Ratio.WithinHundred (r : Ratio) : Prop where
  whole_pos : 0 < r.whole
  nonneg : 0 ≤ r.exact
  le_hundred : r.exact ≤ 100

theorem Ratio.withinHundred_of_le {r : Ratio} (hwhole : 0 < r.whole) (hpart : r.part ≤ r.whole) :
    r.WithinHundred := by
  have hexact : r.exact = r.part * 100 / r.whole := rfl
  have hcast : (r.part : ℚ) ≤ r.whole := by exact_mod_cast hpart
  refine ⟨hwhole, ?_, ?_⟩
  · rw [hexact]
    positivity
  · rw [hexact]
    refine div_le_of_le_mul₀ (by positivity) (by norm_num) ?_
    linarith

/-! ### Disks -/

namespace Disk.Info

/-- There is nothing to use where all of the space is reserved. -/
theorem usedShare_eq_none_iff {space : Space} : usedShare space = none ↔
    (space.totalBytes : ℤ) - max 0 ((space.freeBytes : ℤ) - space.availableBytes) ≤ 0 := by
  have husable : usedShare space = none ↔
      space.totalBytes - (space.freeBytes - space.availableBytes) = 0 := by
    simp [usedShare]
  rw [husable]
  omega

/-- What is in use and what is reserved never come to more than there is, since no more is
reserved than is free. -/
theorem usedShare_withinHundred {space : Space} {share : Ratio}
    (h : usedShare space = some share) : share.WithinHundred := by
  obtain ⟨hpos, hshare⟩ := Option.ite_none_left_eq_some.1 h
  cases hshare
  exact Ratio.withinHundred_of_le (Nat.pos_of_ne_zero hpos) (Nat.sub_le_sub_left (Nat.sub_le _ _) _)

theorem usedPercent_of_space {info : Info} {space : Space} (h : info.space = some space) :
    info.usedPercent = (usedShare space).map Ratio.percent := by
  rw [usedPercent, h, Option.bind_some]

end Disk.Info

/-! ### Memory -/

namespace Memory

/-- No more is in use than there is, of memory and of the swap space. -/
structure Info.Balanced (info : Info) : Prop where
  used_le : info.used ≤ info.total
  swapUsed_le : info.swapUsed ≤ info.swapTotal

/-- Figures that no look has filled in yet, or that a look has found. -/
def Info.Genuine (info : Info) : Prop :=
  info = {} ∨ ∃ table host last, (look table host last).value = .ok (.ok info)

theorem shows_of_look_ok {table : Path} {host : Provider} {last info : Info}
    (h : (look table host last).value = .ok (.ok info)) : ∃ text, Shows text info := by
  cases hread : host.read table with
  | error e =>
    simp only [look, hread, Log.Logged.value_pure] at h
    cases h
  | ok text =>
    cases htotal : (Format.MemInfo.read text).hasTotal with
    | false =>
      simp only [look, hread, htotal, Bool.not_false, if_true, Log.Logged.value_pure] at h
      cases h
    | true =>
      obtain ⟨info', hinfo, hshows⟩ := shows_of_look hread htotal h
      cases hinfo
      exact ⟨text, hshows⟩

theorem Info.Genuine.balanced {info : Info} (h : info.Genuine) : info.Balanced := by
  rcases h with rfl | ⟨table, host, last, hlook⟩
  · exact ⟨Nat.le_refl _, Nat.le_refl _⟩
  · obtain ⟨text, hshows⟩ := shows_of_look_ok hlook
    exact ⟨hshows.used ▸ Nat.sub_le _ _, hshows.swapUsed ▸ Nat.sub_le _ _⟩

/-- A look finds figures or leaves them as they are. -/
theorem keeps_genuine (proc : Path) : (kind proc).Keeps fun i => i.data.Genuine where
  whole := fun i hi => .inl (Option.some.inj hi ▸ rfl)
  built := fun _ _ _ _ hi => nomatch hi
  told := fun _ _ hi => hi
  lookedAt := fun host _ i hi => by
    cases hlook : (look (proc / ⟨"meminfo"⟩) host i.data).value with
    | error fault =>
      rw [lookedAt_of_fault hlook]
      exact hi
    | ok found =>
      cases found with
      | error e =>
        rw [lookedAt_of_error hlook, left_of_look hlook]
        exact hi
      | ok info =>
        rw [lookedAt_of_ok hlook]
        exact .inr ⟨_, host, _, hlook⟩

theorem Info.Balanced.usedShare_withinHundred {info : Info} (h : info.Balanced) {share : Ratio}
    (hshare : info.usedShare = some share) : share.WithinHundred := by
  obtain ⟨hpos, hshare⟩ := Option.ite_none_left_eq_some.1 hshare
  cases hshare
  exact Ratio.withinHundred_of_le (Nat.pos_of_ne_zero hpos) h.used_le

/-- Where there is no memory the percentage is zero, and otherwise that of the share. -/
theorem Info.usedPercent_cases (info : Info) :
    (info.usedShare = none ∧ info.usedPercent = 0.0) ∨
      ∃ share, info.usedShare = some share ∧ info.usedPercent = share.percent := by
  unfold usedPercent
  cases info.usedShare with
  | none => exact .inl ⟨rfl, rfl⟩
  | some share => exact .inr ⟨share, rfl, rfl⟩

end Memory

/-- **Usage stays between nothing and a hundred percent, whatever a host says.** A disk has no
usage exactly if its total less what is reserved comes to nothing. Of memory and of swap space no
more is in use than there is, after any run, so that no share is taken of nothing. -/
theorem usage_within_hundred :
    (∀ (info : Disk.Info) (space : Space), info.space = some space →
      (info.usedPercent = none ↔
        (space.totalBytes : ℤ) - max 0 ((space.freeBytes : ℤ) - space.availableBytes) ≤ 0) ∧
      (info.usedPercent ≠ none → ∃ share, Disk.Info.usedShare space = some share ∧
        info.usedPercent = some share.percent ∧ share.WithinHundred)) ∧
    ∀ (proc : Path) (steps : List (Step Provider Unit Memory.Info)) history e,
      (∀ step ∈ steps, step.kind = Memory.kind proc ∧
        ∀ i, step.operation.brought? = some i → i.data.Genuine) →
      (run { cache := () } steps).value = .ok (history, e) →
      ∀ i ∈ e.instances, i.data.used ≤ i.data.total ∧ i.data.swapUsed ≤ i.data.swapTotal ∧
        ((i.data.usedShare = none ∧ i.data.usedPercent = 0.0) ∨
          ∃ share, i.data.usedShare = some share ∧ i.data.usedPercent = share.percent ∧
            share.WithinHundred) := by
  constructor
  · intro info space hspace
    rw [Disk.Info.usedPercent_of_space hspace, Option.map_eq_none_iff]
    refine ⟨Disk.Info.usedShare_eq_none_iff, fun hsome => ?_⟩
    obtain ⟨share, hshare⟩ := Option.ne_none_iff_exists'.1 (mt Option.map_eq_none_iff.2 hsome)
    exact ⟨share, hshare, by rw [hshare, Option.map_some],
      Disk.Info.usedShare_withinHundred hshare⟩
  · intro proc steps history e hsteps hv i hi
    have hkeeps : ∀ step ∈ steps, step.kind.Keeps fun i => i.data.Genuine :=
      fun step hstep => (hsteps step hstep).1 ▸ Memory.keeps_genuine proc
    have hall :=
      (All.empty .uninitialized ()).run hkeeps (fun step hstep => (hsteps step hstep).2) hv
    have hbalanced := (hall i hi).balanced
    refine ⟨hbalanced.used_le, hbalanced.swapUsed_le, ?_⟩
    refine i.data.usedPercent_cases.imp_right fun ⟨share, hshare, hpercent⟩ => ?_
    exact ⟨share, hshare, hpercent, hbalanced.usedShare_withinHundred hshare⟩

/-- Of one disk more is reserved than there is; of another, more is available than is free, and more
is free than there is. So it is with memory, until its table is lost. -/
theorem usage_within_hundred_unfitting :
    let reserved : Space := { totalBytes := 10, freeBytes := 30, availableBytes := 5 }
    let roomy : Space := { totalBytes := 100, freeBytes := 150, availableBytes := 200 }
    let disk (space : Space) : Disk.Info := ⟨"/", "/dev/sda1", "ext4", true, some space⟩
    let k := Memory.kind ⟨"/proc"⟩
    let text := "MemTotal: 10 kB\nMemFree: 30 kB\nSwapTotal: 5 kB\nSwapFree: 9 kB\n"
    let steps : List (Step Provider Unit Memory.Info) :=
      [⟨k, .init⟩, ⟨k, .update (Memory.hostWith text) true⟩,
        ⟨k, .updateInstances ({} : Tree).provider⟩]
    (disk reserved).usedPercent = none ∧
      (∃ share, Disk.Info.usedShare roomy = some share ∧ share.WithinHundred) ∧
      ∃ history e i share, (run { cache := () } steps).value = .ok (history, e) ∧
        e.total = some i ∧ i.data.free = 30 ∧ i.data.swapUsed ≤ i.data.swapTotal ∧
        i.data.usedShare = some share ∧ share.WithinHundred := by
  intro reserved roomy disk k text steps
  obtain ⟨hdisk, hmemory⟩ := usage_within_hundred
  have hnone : (disk reserved).usedPercent = none := (hdisk _ reserved rfl).1.2 (by decide)
  have hsome : (disk roomy).usedPercent ≠ none := by
    rw [Ne, (hdisk _ roomy rfl).1]
    decide
  obtain ⟨share, hshare, -, hwithin⟩ := (hdisk (disk roomy) roomy rfl).2 hsome
  refine ⟨hnone, ⟨share, hshare, hwithin⟩, ?_⟩
  have hread : ((run { cache := () } steps).value.toOption.bind fun x => x.2.total.map fun i =>
      (i.data.free, i.data.usedShare)) = some (30, some ⟨0, 10⟩) := by decide +kernel
  obtain ⟨⟨history, e⟩, hrun, hread⟩ := Option.bind_eq_some_iff.1 hread
  obtain ⟨i, hi, hread⟩ := Option.map_eq_some_iff.1 hread
  obtain ⟨hfree, hused⟩ := Prod.mk.inj hread
  rw [Outcome.toOption_eq_some] at hrun
  have hsteps : ∀ step ∈ steps, step.kind = k ∧
      ∀ i, step.operation.brought? = some i → i.data.Genuine := by
    simp [steps, Operation.brought?]
  obtain ⟨-, hswap, hpercent⟩ := hmemory ⟨"/proc"⟩ steps history e hsteps hrun i
    (List.mem_append_left _ (Option.mem_toList.2 hi))
  obtain ⟨hno, -⟩ | ⟨share, hshare, -, hwithin⟩ := hpercent
  · rw [hused] at hno
    cases hno
  · exact ⟨history, e, i, share, hrun, hi, hfree, hswap, hshare, hwithin⟩

end HostInventory
