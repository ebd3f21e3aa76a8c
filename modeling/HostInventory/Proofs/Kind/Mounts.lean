import HostInventory.FileTree.Tree
import HostInventory.Proofs.Enumeration.Origin
import HostInventory.Proofs.Kind.Atomic
import HostInventory.Proofs.Kind.Sound

/-! Which mount a disk is.

A disk takes its device and the type of its filesystem from the row that is to be seen at its
mount point when it is taken in, and nothing reads them again (`fixes_mount`). So a disk that is
held describes the mount table of the operation that has taken it in, however the table has
changed since (`mount_of_run`). An update describes the present table in the disks that it adds;
a disk that was held before does so only if it did already (`mount_of_update`). -/
namespace HostInventory.Disk

open Enumeration FileTree

/-- The mount that a disk is said to be. -/
def Info.mount (info : Info) : Format.Mount :=
  ⟨info.device, info.mountPoint, info.kind⟩

/-- The rows of a host's mount table that are disks, if the table can be read. -/
def table (proc : Path) (ignored : List String) (host : Provider) : Except Failure Mounts :=
  (readAs (host.read (proc / ⟨"mounts"⟩)) Format.MountTable.read).map fun all =>
    all.filter fun m => !ignored.contains m.kind

/-- What an operation has to say of a mount point: what the caller brings or what can be seen
there in the table that it lists. -/
def shownBy (proc : Path) (ignored : List String) (point : String)
    (operation : Operation Provider Info) : Option Format.Mount :=
  match operation.brought? with
  | some i => some i.data.mount
  | none => operation.listsIn?.bind fun host =>
      (table proc ignored host).toOption.bind fun mounts => mounts.at? point

section Table
variable {proc : Path} {ignored : List String} {policy : RemovalPolicy} {host : Provider}
  {mounts : Mounts}

theorem discover_eq_map (proc : Path) (ignored : List String) (host : Provider) (last : Mounts) :
    discover (proc / ⟨"mounts"⟩) ignored host last =
      (leaving last (table proc ignored host)).map fun mounts =>
        (mounts.map fun m => ⟨m.point⟩, mounts) := by
  unfold discover table
  cases readAs (host.read (proc / ⟨"mounts"⟩)) Format.MountTable.read <;> rfl

/-- What is listed is the table, and what is kept of it for the instances is the table too. -/
theorem discover_eq_ok {cache : Mounts} {listing : List Identity} :
    ((kind proc ignored policy).discover host cache).value = .ok (listing, mounts) ↔
      table proc ignored host = .ok mounts ∧ listing = mounts.map fun m => ⟨m.point⟩ := by
  show discover (proc / ⟨"mounts"⟩) ignored host cache = _ ↔ _
  rw [discover_eq_map]
  cases table proc ignored host with
  | error f => simp [Except.map]
  | ok mounts' =>
    simp only [leaving_ok, Except.map, Except.ok.injEq, Prod.mk.injEq]
    constructor
    · rintro ⟨rfl, rfl⟩
      exact ⟨rfl, rfl⟩
    · rintro ⟨rfl, rfl⟩
      exact ⟨rfl, rfl⟩

/-- What is built at a mount point is what can be seen there. -/
theorem at?_of_instantiate {id : Identity} {i : Instance Info}
    (h : instantiate mounts id = .ok i) :
    mounts.at? id.text = some i.data.mount ∧ i.data.online = true ∧ i.data.space = none := by
  unfold instantiate at h
  cases hm : mounts.at? id.text with
  | none =>
    rw [hm] at h
    cases h
  | some m =>
    rw [hm] at h
    cases h
    exact ⟨rfl, rfl, rfl⟩

theorem look_eq_ok {info info' : Info} (h : look host info = .ok info') :
    info' = info ∨ ∃ space, info' = { info with space := some space } := by
  unfold look at h
  split at h
  · cases h
    exact .inl rfl
  · split at h
    · next space _ =>
      cases h
      exact .inr ⟨space, rfl⟩
    · cases h

/-- Neither a look at a disk nor the word that it is listed touches the mount. -/
theorem fixes_mount (proc : Path) (ignored : List String) (policy : RemovalPolicy) :
    (kind proc ignored policy).Fixes Info.mount where
  failedLook := fun host cache i f d h => by rw [left_of_look (Except.ok.inj h)]
  afterFailure := fun _ => rfl
  setPresent := fun present d => by
    show (setPresent present d).value.mount = d.mount
    rw [setPresent_value]
    rfl
  refresh := fun env cache i d h => by
    obtain rfl | ⟨space, rfl⟩ := look_eq_ok (Except.ok.inj h)
    · rfl
    · rfl

theorem shownBy_of_listsIn {point : String} {operation : Operation Provider Info}
    (hop : operation.listsIn? = some host) (htable : table proc ignored host = .ok mounts) :
    shownBy proc ignored point operation = mounts.at? point := by
  have hbrought : operation.brought? = none := by
    cases operation <;> first | rfl | cases hop
  rw [shownBy, hbrought, hop, Option.bind_some, htable]
  rfl

/-- A disk comes with the mount that the operation shows at its mount point. -/
theorem shownBy_of_takesIn {operation : Operation Provider Info} {i : Instance Info}
    (h : (kind proc ignored policy).TakesIn operation i) {id : Identity}
    (hid : i.subject = .named id) :
    shownBy proc ignored id.text operation = some i.data.mount := by
  cases h with
  | whole hw => cases hw
  | brought hb => rw [shownBy, hb]
  | listed hop hlists =>
    obtain ⟨old, listing, cache, hd, id', -, hbuilt⟩ := hlists
    obtain rfl : id' = id :=
      Subject.named.inj ((subject_of_instantiate hbuilt).symm.trans hid)
    rw [shownBy_of_listsIn hop (discover_eq_ok.1 hd).1]
    exact (at?_of_instantiate hbuilt).1

/-- After a run a disk is the mount that was shown at its mount point when it was taken in. -/
theorem mount_of_run {steps : List (Step Provider Mounts Info)}
    (hk : ∀ step ∈ steps, step.kind = kind proc ignored policy) {history : List Event}
    {e : Enumeration Mounts Info} (hrun : (run { cache := [] } steps).value = .ok (history, e))
    {id : Identity} {i : Instance Info} (hi : e.find? id = some i) :
    ((takenInBy { cache := [] } (.named id) steps).bind fun step =>
      shownBy proc ignored id.text step.operation) = some i.data.mount := by
  have hempty : WellFormed ({ cache := [] } : Enumeration Mounts Info) := .empty []
  have hsubject := (hempty.run hrun).subject_of_find? hi
  have hfixes : ∀ step ∈ steps, step.kind.Fixes Info.mount :=
    fun step hstep => hk step hstep ▸ fixes_mount proc ignored policy
  obtain ⟨j, hsame, ⟨-, hj⟩ | ⟨step, hmem, hlast, hin⟩⟩ :=
    trait_of_run hempty hfixes hrun (mem_instances_of_find? hi)
  · cases hj
  · rw [hsubject] at hlast
    rw [hk step hmem] at hin
    rw [hlast, Option.bind_some, hsame.2]
    exact shownBy_of_takesIn hin (hsame.1.symm.trans hsubject)

end Table

/-- **A disk describes the mount that was there when it was taken in**, after any run under any
policy. So where something is to be seen at its mount point now, a disk describes it exactly if it
has just been added or described the same before. -/
theorem mount_of_update {proc : Path} {ignored : List String} {policy : RemovalPolicy}
    {steps : List (Step Provider Mounts Info)}
    (hk : ∀ step ∈ steps, step.kind = kind proc ignored policy) {history : List Event}
    {e : Enumeration Mounts Info} (hrun : (run { cache := [] } steps).value = .ok (history, e))
    (hp : e.phase = .initialized) {host : Provider} {mounts : Mounts}
    (htable : table proc ignored host = .ok mounts) (refresh : Bool) :
    ∃ report e',
      (e.update (kind proc ignored policy) host refresh).value = .ok (.ok report, e') ∧
      ∀ id i', e'.find? id = some i' →
        ((takenInBy { cache := [] } (.named id)
            (steps ++ [⟨kind proc ignored policy, .update host refresh⟩])).bind fun step =>
          shownBy proc ignored id.text step.operation) = some i'.data.mount ∧
        ∀ m, mounts.at? id.text = some m →
          (i'.data.mount = m ↔ ∀ i, e.find? id = some i → i.data.mount = m) := by
  have hwf : e.WellFormed := (WellFormed.empty []).run hrun
  have hd : ((kind proc ignored policy).discover host e.cache).value = .ok (_, mounts) :=
    discover_eq_ok.2 ⟨htable, rfl⟩
  obtain ⟨report, e', hv⟩ := (kind_regular proc ignored policy).update_reports hp hd refresh
  have hstep : (e.apply ⟨kind proc ignored policy, .update host refresh⟩).value =
      .ok (addedBy (.ok report.reconciliation) e', e') := Outcome.value_bind_of_ok hv _
  have hnil : (e'.run ([] : List (Step Provider Mounts Info))).value = .ok ([], e') := rfl
  have hrun' := (run_append hrun (run_cons_of_ok hstep hnil).1).1
  have hk' : ∀ step ∈ steps ++ [⟨kind proc ignored policy, .update host refresh⟩],
      step.kind = kind proc ignored policy :=
    List.forall_mem_append.2 ⟨hk, List.forall_mem_singleton.2 rfl⟩
  have hfixes := fixes_mount proc ignored policy
  refine ⟨report, e', hv, fun id i' hi' => ⟨mount_of_run hk' hrun' hi', fun m hm => ?_⟩⟩
  cases hi : e.find? id with
  | some i =>
    have hsame : i'.data.mount = i.data.mount := (hfixes.of_find? hwf hstep hi hi').2
    rw [hsame]
    exact ⟨fun h j hj => Option.some.inj hj ▸ h, fun h => h i rfl⟩
  | none =>
    obtain ⟨i, hsame, hin⟩ := hfixes.takesIn_of_find? hwf hstep (not_mem_ids_of_find? hi) hi'
    have hsubject := (transition_of_apply hwf hstep).wellFormed.subject_of_find? hi'
    have hshown := shownBy_of_takesIn hin (hsame.1.symm.trans hsubject)
    rw [shownBy_of_listsIn rfl htable, hm] at hshown
    have hnow : i'.data.mount = m := hsame.2.trans (Option.some.inj hshown).symm
    exact ⟨fun _ => nofun, fun _ => hnow⟩

/-- A host with a mount table. -/
def hostWith (mounts : String) : Provider :=
  (Tree.addFile {} ⟨"/proc/mounts"⟩ mounts).provider

/-- Two devices are stacked at a mount point that has not been there before. -/
theorem mount_of_update_stacked :
    let k := kind ⟨"/proc"⟩ ["tmpfs"] .retain
    let before := hostWith "/dev/sda1 / ext4 rw 0 0\n"
    let now := hostWith
      "/dev/sda1 / ext4 rw 0 0\n/dev/sdb1 /data xfs rw 0 0\n/dev/sdc1 /data ext4 rw 0 0\n"
    let steps : List (Step Provider Mounts Info) := [⟨k, .init⟩, ⟨k, .update before true⟩]
    ∃ history e report e' i, (run { cache := [] } steps).value = .ok (history, e) ∧
      (e.update k now true).value = .ok (.ok report, e') ∧ e'.find? ⟨"/data"⟩ = some i ∧
      i.data.mount = ⟨"/dev/sdc1", "/data", "ext4"⟩ := by
  intro k before now steps
  have hread : ((run { cache := [] } steps).value.toOption.bind fun x =>
      (x.2.update k now true).value.toOption.map fun y => (x.2.phase, x.2.ids, y.2.ids)) =
      some (.initialized, [⟨"/"⟩], [⟨"/"⟩, ⟨"/data"⟩]) := by
    decide +kernel
  have htable : table ⟨"/proc"⟩ ["tmpfs"] now = .ok [⟨"/dev/sda1", "/", "ext4"⟩,
      ⟨"/dev/sdb1", "/data", "xfs"⟩, ⟨"/dev/sdc1", "/data", "ext4"⟩] := by
    decide +kernel
  obtain ⟨⟨history, e⟩, hrun, hread⟩ := Option.bind_eq_some_iff.1 hread
  obtain ⟨y, hv, hread⟩ := Option.map_eq_some_iff.1 hread
  rw [Outcome.toOption_eq_some] at hrun hv
  simp only [Prod.mk.injEq] at hread
  obtain ⟨hp, hids, hids'⟩ := hread
  have hk : ∀ step ∈ steps, step.kind = k := by simp [steps]
  obtain ⟨report, e', hv', hmounts⟩ := mount_of_update hk hrun hp htable true
  obtain rfl := Except.ok.inj (hv.symm.trans hv')
  obtain ⟨i, hi⟩ := Option.isSome_iff_exists.1
    (find?_isSome.2 (by rw [hids']; decide) : (e'.find? ⟨"/data"⟩).isSome = true)
  have hnew : e.find? ⟨"/data"⟩ = none := find?_eq_none (by rw [hids]; decide)
  refine ⟨history, e, report, e', i, hrun, hv, hi, ?_⟩
  refine ((hmounts _ i hi).2 ⟨"/dev/sdc1", "/data", "ext4"⟩ (by decide)).2 fun j hj => ?_
  rw [hnew] at hj
  cases hj

/-- Another device is mounted at the mount point of a disk: the disk keeps the first. -/
theorem mount_outdated_after_remount :
    let k := kind ⟨"/proc"⟩ [] .remove
    let before := hostWith "/dev/sda1 /mnt ext4 rw 0 0\n"
    let now := hostWith "/dev/sdb1 /mnt xfs rw 0 0\n"
    let steps : List (Step Provider Mounts Info) := [⟨k, .init⟩, ⟨k, .update before true⟩]
    ∃ history e report e' i, (run { cache := [] } steps).value = .ok (history, e) ∧
      (e.update k now true).value = .ok (.ok report, e') ∧
      table ⟨"/proc"⟩ [] now = .ok [⟨"/dev/sdb1", "/mnt", "xfs"⟩] ∧
      e'.find? ⟨"/mnt"⟩ = some i ∧ i.data.mount = ⟨"/dev/sda1", "/mnt", "ext4"⟩ := by
  intro k before now steps
  have hread : ((run { cache := [] } steps).value.toOption.bind fun x =>
      (x.2.update k now true).value.toOption.map fun y =>
        (y.1.isOk, (y.2.find? ⟨"/mnt"⟩).map fun i => i.data.mount)) =
      some (true, some ⟨"/dev/sda1", "/mnt", "ext4"⟩) := by
    decide +kernel
  have htable : table ⟨"/proc"⟩ [] now = .ok [⟨"/dev/sdb1", "/mnt", "xfs"⟩] := by decide +kernel
  obtain ⟨⟨history, e⟩, hrun, hread⟩ := Option.bind_eq_some_iff.1 hread
  obtain ⟨⟨r, e'⟩, hv, hread⟩ := Option.map_eq_some_iff.1 hread
  rw [Outcome.toOption_eq_some] at hrun hv
  obtain ⟨hok, hfound⟩ := Prod.mk.inj hread
  obtain ⟨i, hi, hmount⟩ := Option.map_eq_some_iff.1 hfound
  cases r with
  | error f => cases hok
  | ok report => exact ⟨history, e, report, e', i, hrun, hv, htable, hi, hmount⟩

end HostInventory.Disk
