import HostInventory.Proofs.Kind.Agreement

/-! Disks that come and go.

Where vanished instances are marked, a disk stays in its place when its mount point is no longer
listed, and is there again when it is listed again. Whether a disk is online is settled while
what is held is matched to what is there (`Matched`): a held disk is told, a new one is built
online. That in turn decides whether it is asked for its space when it is looked at
(`Attended`), so an offline disk keeps its figures and loses its failure. Both together are what
an update makes of disks in any reachable state (`presence_of_update`). -/
namespace HostInventory

open Enumeration FileTree

namespace Enumeration

section Marking
variable {Env Cache Data : Type} {e : Enumeration Cache Data} {k : Kind Env Cache Data} {env : Env}
  {cache : Cache} {listing : List Identity} {id : Identity} {i : Instance Data}

/-- Marking tells every held instance whether it is listed. -/
theorem find?_reconciled_of_held (hwf : (e.reconciled k env cache listing).WellFormed)
    (hpol : k.policy = .markStale) (hi : e.find? id = some i) :
    (e.reconciled k env cache listing).find? id =
      some { i with data := (k.setPresent (decide (id ∈ listing)) i.data).value } := by
  have htold : told k listing (id, i) ∈ e.survivors k listing := by
    simp only [survivors, hpol]
    exact List.mem_map_of_mem (mem_held_of_find? hi)
  exact hwf.find?_eq_some (List.mem_append_left _ htold)

/-- What is found under an identity that was not held has been built for the listing. -/
theorem built_of_find?_reconciled (hid : id ∉ e.ids)
    (hi : (e.reconciled k env cache listing).find? id = some i) :
    id ∈ listing ∧ k.instantiate env cache id = .ok i := by
  obtain ⟨j, hj, -⟩ | ⟨hnew, hbuilt⟩ := mem_held_reconciled (mem_held_of_find? hi)
  · exact absurd (mem_ids.2 ⟨j, hj⟩) hid
  · exact ⟨(mem_newcomers.1 hnew).1, hbuilt⟩

/-- Unless instances are removed, the new identities stand behind the old ones. -/
theorem ids_reconciled (hpol : k.policy ≠ .remove) :
    (e.reconciled k env cache listing).ids =
      e.ids ++ (e.reconciliation k env cache listing).added := by
  rw [reconciled, ids, List.map_append, map_fst_survivors, if_neg hpol, map_fst_built]
  rfl

end Marking

end Enumeration

namespace Disk

/-- A row of the table is about the mount point of an identity. -/
def Mounts.Lists (mounts : Mounts) (id : Identity) : Prop :=
  ∃ m ∈ mounts, m.point = id.text

/-- A disk once what is held has been matched to a mount table. -/
structure Matched (mounts : Mounts) (id : Identity) (before : Option (Instance Info))
    (i : Instance Info) : Prop where
  point : i.data.mountPoint = id.text
  online : i.data.online = true ↔ mounts.Lists id
  /-- A held disk has been told no more than whether it is online. -/
  kept : ∀ old, before = some old →
    i.subject = old.subject ∧ i.data = { old.data with online := i.data.online }
  /-- Any other disk is listed and has no figures. -/
  built : before = none → mounts.Lists id ∧ i.data.space = none

/-- A disk after an update that refreshes it. -/
structure Attended (host : Provider) (mounts : Mounts) (id : Identity)
    (before : Option (Instance Info)) (i : Instance Info) : Prop where
  online : i.data.online = true ↔ mounts.Lists id
  /-- An online disk has the space that is there now, or says why not and has what it had. -/
  probed : i.data.online = true →
    (i.failure = none ∧ ∃ space, host.space ⟨id.text⟩ = .ok space ∧ i.data.space = some space) ∨
    ∃ cause, host.space ⟨id.text⟩ = .error cause ∧
      i.failure = some (Failure.io cause).message ∧
      i.data.space = before.bind fun old => old.data.space
  /-- An offline disk has been held before, and has what it had and no failure. -/
  spared : i.data.online = false → i.failure = none ∧
    ∃ old, before = some old ∧ i.data.space = old.data.space
  /-- A disk that has been held before is the same one. -/
  same : ∀ old, before = some old → i.subject = old.subject ∧ i.data.mount = old.data.mount

section Parts
variable {proc : Path} {ignored : List String} {policy : RemovalPolicy} {host : Provider}
  {mounts cache : Mounts} {id : Identity} {i : Instance Info}

theorem mem_listing : id ∈ mounts.map (fun m => (⟨m.point⟩ : Identity)) ↔ mounts.Lists id := by
  rw [List.mem_map]
  exact exists_congr fun m => and_congr_right fun _ =>
    ⟨fun h => congrArg Identity.text h, fun h => congrArg Identity.mk h⟩

theorem lookedAt_of_offline (h : i.data.online = false) :
    ((kind proc ignored policy).lookedAt host cache i).2 = i.reset := by
  have hlook : look host i.data = .ok i.data := by simp [look, h]
  rw [lookedAt_of_ok (congrArg Except.ok hlook)]
  rfl

theorem lookedAt_of_space (h : i.data.online = true) {space : Space}
    (hs : host.space ⟨i.data.mountPoint⟩ = .ok space) :
    ((kind proc ignored policy).lookedAt host cache i).2 =
      { i.reset with data := { i.data with space := some space } } := by
  have hlook : look host i.data = .ok { i.data with space := some space } := by simp [look, h, hs]
  rw [lookedAt_of_ok (congrArg Except.ok hlook)]

theorem lookedAt_of_no_space (h : i.data.online = true) {cause : FileTree.Error}
    (hs : host.space ⟨i.data.mountPoint⟩ = .error cause) :
    ((kind proc ignored policy).lookedAt host cache i).2 = i.capture (.io cause) := by
  have hlook : look host i.data = .error (.io cause, i.data) := by simp [look, h, hs]
  rw [lookedAt_of_error (congrArg Except.ok hlook)]
  rfl

/-- What a look makes of a disk whose presence is settled. -/
theorem Matched.lookedAt {before : Option (Instance Info)} (h : Matched mounts id before i) :
    Attended host mounts id before ((kind proc ignored policy).lookedAt host cache i).2 := by
  have hspace : i.data.space = before.bind fun old => old.data.space := by
    cases before with
    | none => exact (h.built rfl).2
    | some old =>
      rw [(h.kept old rfl).2]
      rfl
  have hsame : ∀ old, before = some old →
      i.subject = old.subject ∧ i.data.mount = old.data.mount := fun old hold => by
    obtain ⟨hsubject, hdata⟩ := h.kept old hold
    refine ⟨hsubject, ?_⟩
    rw [hdata]
    rfl
  cases hon : i.data.online with
  | false =>
    rw [lookedAt_of_offline hon]
    refine ⟨h.online, fun hon' => ?_, fun _ => ⟨rfl, ?_⟩, hsame⟩
    · cases hon.symm.trans hon'
    · cases before with
      | none => cases hon.symm.trans (h.online.2 (h.built rfl).1)
      | some old => exact ⟨old, rfl, hspace⟩
  | true =>
    cases hs : host.space ⟨i.data.mountPoint⟩ with
    | ok space =>
      rw [lookedAt_of_space hon hs]
      rw [h.point] at hs
      refine ⟨h.online, fun _ => .inl ⟨rfl, space, hs, rfl⟩, fun hoff => ?_, hsame⟩
      cases hon.symm.trans hoff
    | error cause =>
      rw [lookedAt_of_no_space hon hs]
      rw [h.point] at hs
      refine ⟨h.online, fun _ => .inr ⟨cause, hs, rfl, hspace⟩, fun hoff => ?_, hsame⟩
      cases hon.symm.trans hoff

end Parts

/-- What matching makes of the disks. -/
theorem matched_of_reconciled {s : Settings} (hpol : s.disk.removal = .markStale)
    {e : Enumeration Mounts Info} (hs : e.All (KindName.disk.Sound)) {host : Provider}
    {mounts : Mounts} {listing : List Identity}
    (hlisting : listing = mounts.map fun m => ⟨m.point⟩)
    (hwf : (e.reconciled (KindName.disk.kind s) host mounts listing).WellFormed) {id : Identity}
    {i : Instance Info}
    (hi : (e.reconciled (KindName.disk.kind s) host mounts listing).find? id = some i) :
    Matched mounts id (e.find? id) i := by
  have hsound : i.subject = .named ⟨i.data.mountPoint⟩ :=
    hs.kept_reconciled (KindName.keeps_sound s .disk) i (mem_instances_of_find? hi)
  have hpoint : i.data.mountPoint = id.text :=
    congrArg Identity.text (Subject.named.inj (hsound.symm.trans (hwf.subject_of_find? hi)))
  have hlists : id ∈ listing ↔ mounts.Lists id := hlisting ▸ mem_listing
  cases hold : e.find? id with
  | some old =>
    rw [find?_reconciled_of_held hwf hpol hold] at hi
    obtain rfl := Option.some.inj hi
    have htold : ((KindName.disk.kind s).setPresent (decide (id ∈ listing)) old.data).value =
        { old.data with online := decide (id ∈ listing) } := setPresent_value _ _
    refine ⟨hpoint, ?_, ?_, nofun⟩
    · rw [htold, ← hlists]
      exact decide_eq_true_iff
    · intro old' hold'
      obtain rfl := Option.some.inj hold'
      rw [htold]
      exact ⟨rfl, rfl⟩
  | none =>
    obtain ⟨hin, hbuilt⟩ := built_of_find?_reconciled (not_mem_ids_of_find? hold) hi
    obtain ⟨-, honline, hspace⟩ := at?_of_instantiate hbuilt
    exact ⟨hpoint, ⟨fun _ => hlists.1 hin, fun _ => honline⟩, nofun, fun _ => ⟨hlists.1 hin, hspace⟩⟩

/-- **Under marking, disks are online while they are mounted**, that is while the table has a row
for the mount point. Those that are have the space that is there now, or else the failure to find it
and the space from before. No disk is lost or moved or taken for another one. -/
theorem presence_of_update {s : Settings} (hpol : s.disk.removal = .markStale)
    {e : Enumeration Mounts Info} (h : KindName.Reachable s .disk e) (hp : e.phase = .initialized)
    {host : Provider} {mounts : Mounts}
    (htable : table s.paths.proc s.disk.ignored host = .ok mounts) :
    ∃ r count e',
      (e.update (KindName.disk.kind s) host true).value = .ok (.ok ⟨r, some count⟩, e') ∧
      r.removed = [] ∧ e'.ids = e.ids ++ r.added ∧
      (∀ id, id ∈ r.added ↔ mounts.Lists id ∧ id ∉ e.ids) ∧
      ∀ id i, e'.find? id = some i → Attended host mounts id (e.find? id) i := by
  have hd : ((KindName.disk.kind s).discover host e.cache).value = .ok (_, mounts) :=
    discover_eq_ok.2 ⟨htable, rfl⟩
  have hregular : (KindName.disk.kind s).Regular := kind_regular _ _ _
  have hn := hregular.truthful host e.cache _ _ hd
  have hwf := (transition_reconciled h.wellFormed (hn.newcomers e)).wellFormed
  have hkept : (KindName.disk.kind s).policy ≠ .remove := by
    show s.disk.removal ≠ .remove
    rw [hpol]
    nofun
  refine ⟨_, _, _, update_with_refresh hp hd hn fun i _ => hregular.faultless host _ i,
    if_neg hkept, ?_, fun id => ?_, fun id i hi => ?_⟩
  · rw [refreshed_ids, ids_reconciled hkept]
  · rw [reconciliation, List.mem_filter, mem_newcomers, mem_listing]
    refine and_iff_left_of_imp fun hnew => ?_
    exact (KindName.disk.reliable s).builds hd id (mem_listing.2 hnew.1)
  · rw [find?_refreshed] at hi
    obtain ⟨j, hj, rfl⟩ := Option.map_eq_some_iff.1 hi
    exact (matched_of_reconciled hpol h.sound rfl hwf hj).lookedAt

/-- A disk is unmounted and mounted again, and then cannot be asked for its space. -/
theorem presence_of_update_remounted :
    let s : Settings := { disk := { removal := .markStale } }
    let k := KindName.disk
    let row := "/dev/sda1 /mnt ext4 rw 0 0\n"
    let space : Space := { totalBytes := 1000, freeBytes := 400, availableBytes := 300 }
    let mounted :=
      ((Tree.addFile {} ⟨"/proc/mounts"⟩ row).setSpace ⟨"/mnt"⟩ space).provider
    let steps : List (Step Provider Mounts Info) := [⟨k.kind s, .init⟩,
      ⟨k.kind s, .update mounted true⟩, ⟨k.kind s, .update (hostWith "") true⟩]
    ∃ history e r count e' i, (k.empty.run steps).value = .ok (history, e) ∧
      (e.find? ⟨"/mnt"⟩).map (fun old => old.data.online) = some false ∧
      (e.update (k.kind s) (hostWith row) true).value = .ok (.ok ⟨r, some count⟩, e') ∧
      e'.ids = e.ids ++ r.added ∧ ⟨"/mnt"⟩ ∉ r.added ∧ e'.find? ⟨"/mnt"⟩ = some i ∧
      i.data.online = true ∧ i.failure.isSome = true ∧ i.data.space = some space := by
  intro s k row space mounted steps
  have hread : (k.empty.run steps).value.toOption.map (fun x => (x.2.phase, x.2.ids,
      (x.2.find? ⟨"/mnt"⟩).map fun old => (old.data.online, old.data.space))) =
      some (.initialized, [⟨"/mnt"⟩], some (false, some space)) := by
    decide +kernel
  have htable : table s.paths.proc s.disk.ignored (hostWith row) =
      .ok [⟨"/dev/sda1", "/mnt", "ext4"⟩] := by decide +kernel
  have hspace : ((hostWith row).space ⟨"/mnt"⟩).isOk = false := by decide +kernel
  obtain ⟨⟨history, e⟩, hrun, hread⟩ := Option.map_eq_some_iff.1 hread
  rw [Outcome.toOption_eq_some] at hrun
  simp only [Prod.mk.injEq] at hread
  obtain ⟨hp, hids, hread⟩ := hread
  obtain ⟨old, hold, hdata⟩ := Option.map_eq_some_iff.1 hread
  obtain ⟨hoff, hfigures⟩ := Prod.mk.inj hdata
  have hinit : KindName.Proper s k ⟨k.kind s, .init⟩ := .of_brought .init rfl
  have hupdate : ∀ host, KindName.Proper s k ⟨k.kind s, .update host true⟩ :=
    fun _ => .of_brought _ rfl
  have h : KindName.Reachable s k e :=
    ⟨steps, history, by simp [steps, hinit, hupdate], hrun⟩
  obtain ⟨r, count, e', hv, -, hids', hadded, hattended⟩ := presence_of_update rfl h hp htable
  have hmem : ⟨"/mnt"⟩ ∈ e.ids := by
    rw [hids]
    exact List.mem_singleton_self _
  have hmem' : ⟨"/mnt"⟩ ∈ e'.ids := hids' ▸ List.mem_append_left _ hmem
  obtain ⟨i, hi⟩ := Option.isSome_iff_exists.1 (find?_isSome.2 hmem')
  have hi' := hattended _ i hi
  have hon : i.data.online = true := hi'.online.2 ⟨_, List.mem_singleton_self _, rfl⟩
  refine ⟨history, e, r, count, e', i, hrun, by rw [hold, ← hoff]; rfl, hv, hids',
    fun hin => ((hadded _).1 hin).2 hmem, hi, hon, ?_⟩
  obtain ⟨-, found, hfound, -⟩ | ⟨cause, -, hfailure, hkept⟩ := hi'.probed hon
  · rw [hfound] at hspace
    cases hspace
  · rw [hold] at hkept
    exact ⟨by rw [hfailure]; rfl, hkept.trans hfigures⟩

end Disk
end HostInventory
