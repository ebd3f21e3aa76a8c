import HostInventory.Proofs.Enumeration.Repeat
import HostInventory.Proofs.Kind.Agreement
import HostInventory.Proofs.Kind.Current

/-! Kinds on an unchanged host.

What a look finds does not depend on what the looks before have found, but for the usage of a
processor: between two samples of an unchanged host no time has elapsed, so the second one finds
none. A disk knows from each listing whether it is listed. So every kind is steady on every host
(`KindName.steady`), and an enumeration that is updated twice settles, or fails to be listed twice
and stays as it was (`KindName.update_again`). -/
namespace HostInventory

open Enumeration FileTree

/-! ### Looking again -/

theorem Cpu.sample?_again {d d' : Cpu.Data} {now : Format.CpuTicks} (h : d.sample? now = some d') :
    d'.sample? now = some (KindName.withoutUsage .cpu d') := by
  obtain ⟨total, ht, heq⟩ := Cpu.sample?_eq h
  have hnone : Cpu.Usage.between now total now total = none := if_pos (Nat.sub_self total)
  rw [heq]
  simp only [Cpu.Data.sample?, ht, Option.bind_eq_bind, Option.bind_some, Option.map_some, hnone]
  rfl

theorem Cpu.look_again {statistics : Path} {host : Provider} {d d' : Cpu.Data}
    (h : Cpu.look statistics host d = .ok (.ok d')) :
    Cpu.look statistics host d' = .ok (.ok (KindName.withoutUsage .cpu d')) := by
  obtain ⟨now, hline, hs⟩ := Cpu.look_eq_found.1 h
  rw [← (Cpu.sample?_eq_some hs).1] at hline
  exact Cpu.look_eq_found.2 ⟨now, hline, Cpu.sample?_again hs⟩

/-- A processor that is not found is not found whatever has been sampled of it. -/
theorem Cpu.look_failed_again {statistics : Path} {host : Provider} {d d' : Cpu.Data}
    (hd : d'.info.processor = d.info.processor) {f : Failure} {left : Cpu.Data}
    (h : Cpu.look statistics host d = .ok (.error (f, left))) :
    Cpu.look statistics host d' = .ok (.error (f, d')) := by
  rw [Cpu.look_eq_failed, hd]
  exact ⟨(Cpu.look_eq_failed.1 h).1, rfl⟩

/-- A look at a disk finds its space, if it finds anything. -/
theorem Disk.look_again {host : Provider} {info info' : Disk.Info}
    (h : Disk.look host info = .ok info') :
    info'.online = info.online ∧ Disk.look host info' = .ok info' := by
  unfold Disk.look at h
  cases ho : info.online with
  | false =>
    rw [ho] at h
    cases h
    exact ⟨ho, by rw [Disk.look, ho]; rfl⟩
  | true =>
    rw [ho] at h
    cases hs : host.space ⟨info.mountPoint⟩ with
    | error e =>
      rw [hs] at h
      cases h
    | ok space =>
      rw [hs] at h
      cases h
      refine ⟨rfl, ?_⟩
      simp only [Disk.look, hs]
      rfl

/-- A listing that succeeds once succeeds again, and says the same. -/
theorem Disk.discover_again {table : Path} {ignored : List String} {host : Provider}
    {last last' : Disk.Mounts} {found : List Identity × Disk.Mounts}
    (h : Disk.discover table ignored host last = .ok found) :
    Disk.discover table ignored host last' = .ok found := by
  unfold Disk.discover at h ⊢
  cases hall : readAs (host.read table) Format.MountTable.read with
  | error f =>
    rw [hall] at h
    cases h
  | ok all =>
    rw [hall] at h
    exact h

theorem Software.discover_again {database : Path} {host : Provider}
    {last last' : Software.Snapshot} {found : List Identity × Software.Snapshot}
    (h : (Software.discover database host last).value = .ok found) :
    (Software.discover database host last').value = .ok found := by
  unfold Software.discover at h ⊢
  cases hall : readAs (host.read database) Format.PackageDatabase.read with
  | error f =>
    rw [hall] at h
    cases h
  | ok all =>
    rw [hall] at h
    exact h

namespace KindName

theorem withoutUsage_withoutUsage (k : KindName) (d : k.Data) :
    k.withoutUsage (k.withoutUsage d) = k.withoutUsage d := by
  cases k <;> rfl

theorem withoutUsage_of_ne {k : KindName} (hk : k ≠ .cpu) (d : k.Data) : k.withoutUsage d = d := by
  cases k
  case cpu => exact absurd rfl hk
  all_goals rfl

/-! ### Being told again -/

theorem knows_of_disk {s : Settings} {present : Bool} {info : Disk.Info}
    (h : info.online = present) : (kind s .disk).Knows present info := by
  show (Disk.setPresent present info).value = info
  rw [Disk.setPresent_value, ← h]

/-- Only disks care whether they are listed. -/
theorem knows_of_ne {s : Settings} {k : KindName} (hk : k ≠ .disk) (present : Bool) (d : k.Data) :
    (k.kind s).Knows present d := by
  cases k
  case disk => exact absurd rfl hk
  all_goals rfl

theorem online_of_knows {s : Settings} {present : Bool} {info : Disk.Info}
    (h : (kind s .disk).Knows present info) : info.online = present := by
  have hset : (Disk.setPresent present info).value = info := h
  rw [Disk.setPresent_value] at hset
  exact (congrArg Disk.Info.online hset).symm

/-- Every kind finds again what it has found, except for the usage of a processor. -/
theorem steady (s : Settings) (k : KindName) (host : Provider) :
    (k.kind s).Steady host k.withoutUsage where
  listing := fun cache cache' found h => by
    cases k
    case disk => exact Disk.discover_again h
    case software => exact Software.discover_again h
    all_goals exact h
  reliable := k.reliable s
  built := fun cache id i hi => by
    by_cases hk : k = .disk
    · subst hk
      have hbuilt : Disk.instantiate cache id = .ok i := hi
      unfold Disk.instantiate at hbuilt
      split at hbuilt
      · cases hbuilt
        exact knows_of_disk rfl
      · cases hbuilt
    · exact knows_of_ne hk true i.data
  told := fun present d => by
    by_cases hk : k = .disk
    · subst hk
      refine knows_of_disk ?_
      show (Disk.setPresent present d).value.online = present
      rw [Disk.setPresent_value]
    · exact knows_of_ne hk present _
  found := fun cache i d present hr hi => by
    by_cases hk : k = .disk
    · subst hk
      have hlook : Disk.look host i.data = .ok d := Except.ok.inj hr
      exact knows_of_disk ((Disk.look_again hlook).1.trans (online_of_knows hi))
    · exact knows_of_ne hk present d
  failed := fun cache i f d present hr hi => by
    by_cases hk : k = .disk
    · subst hk
      rw [(KindName.atomic s .disk).look host cache i f d hr]
      exact hi
    · exact knows_of_ne hk present _
  foundAgain := fun cache i d hr => by
    by_cases hdisk : k = .disk
    · subst hdisk
      exact congrArg Except.ok (Disk.look_again (Except.ok.inj hr)).2
    by_cases hcpu : k = .cpu
    · subst hcpu
      exact Cpu.look_again hr
    have hsame : k.subjectOf i.data = k.subjectOf d := (subjectOf_refresh hcpu hr).symm
    rw [refresh_afresh hdisk hcpu (i := i) (j := { i with data := d }) hsame, hr,
      withoutUsage_of_ne hcpu]
    rfl
  failedAgain := fun cache i f d hr => by
    obtain rfl : d = i.data := (k.atomic s).look host cache i f d hr
    cases k with
    | cpu =>
      have hkept : ((kind s .cpu).afterFailure i.data).info.processor = i.data.info.processor := rfl
      exact Cpu.look_failed_again hkept hr
    | memory | os | bios | disk | network | software => exact hr
  afterFailure_afterFailure := fun d => by cases k <;> rfl

/-- An update of an unchanged host settles what the one before has found, or fails to list
anything as the one before did. -/
theorem update_again {s : Settings} {k : KindName} {host : Provider}
    {e e₁ : Enumeration k.Cache k.Data} {r₁ : Except Failure UpdateReport}
    (hv : (e.update (k.kind s) host true).value = .ok (r₁, e₁)) :
    (∃ f, r₁ = .error f ∧ (e₁.update (k.kind s) host true).value = .ok (.error f, e₁)) ∨
      ∃ report report', r₁ = .ok report ∧
        (e₁.update (k.kind s) host true).value =
          .ok (.ok report', e₁.map (Instance.settled k.withoutUsage)) ∧
        report'.reconciliation.Quiet := by
  cases r₁ with
  | ok report =>
    obtain ⟨report', hagain, hquiet⟩ := (steady s k host).update_again hv
    exact .inr ⟨report, report', rfl, hagain, hquiet⟩
  | error f =>
    obtain rfl := (k.atomic s).eq_of_update_error hv
    exact .inl ⟨f, rfl, hv⟩

end KindName
end HostInventory
