import HostInventory.Proofs.Kind.Mounts
import HostInventory.Proofs.Kind.Software
import HostInventory.Proofs.Kind.Sound

/-! Listing, building and refreshing.

A listing, the instances built for it and the looks at them each read the same text in a way of
their own. They agree: whatever a kind lists it can build, under the identity that it listed
(`KindName.reliable`), so nothing is skipped and under removal what is held is what
is listed. And the line of a listed processor, or the stanza of a listed package, is found again
when the instance is looked at (`KindName.listed_are_held_and_found`). -/
namespace HostInventory

open Enumeration FileTree

/-! ### What is listed can be built -/

/-- A mount that is listed is found by its mount point. -/
theorem Disk.instantiate_of_mem {mounts : Disk.Mounts} {m : Format.Mount} (hm : m ∈ mounts) :
    ∃ i, Disk.instantiate mounts ⟨m.point⟩ = .ok i := by
  have hfound : (mounts.at? m.point).isSome = true := by
    rw [Disk.Mounts.at?, List.find?_isSome]
    exact ⟨m, List.mem_reverse.2 hm, decide_eq_true rfl⟩
  obtain ⟨m', hm'⟩ := Option.isSome_iff_exists.1 hfound
  simp only [Disk.instantiate, hm']
  exact ⟨_, rfl⟩

/-- What is said of a processor that is held and has no line in the statistics. -/
def Cpu.disappeared (statistics : Path) (id : Identity) : String :=
  s!"cpu{id.text} line in {statistics.spelling} disappeared"

namespace KindName

/-- Every kind can build what it lists, under the identity that it has listed. -/
theorem reliable (s : Settings) (k : KindName) : (k.kind s).Reliable := by
  intro host old listing cache hd id hid
  cases k with
  | memory | os | bios =>
    cases hd
    cases hid
  | cpu =>
    obtain ⟨n, -, hb⟩ := Cpu.builds_of_listed hd hid
    exact ⟨_, hb, rfl⟩
  | disk =>
    rw [(Disk.discover_eq_ok.1 hd).2] at hid
    obtain ⟨m, hm, rfl⟩ := List.mem_map.1 hid
    obtain ⟨i, hi⟩ := Disk.instantiate_of_mem hm
    exact ⟨i, hi, Disk.subject_of_instantiate hi⟩
  | network => exact ⟨_, rfl, rfl⟩
  | software => exact ⟨_, rfl, rfl⟩

/-! ### What is listed is found again -/

section Cpu
variable {proc : Path} {policy : RemovalPolicy} {host : Provider} {i : Instance Cpu.Data}

theorem isSome_find_iff_listed (all : List Format.CpuTicks) (n : Nat) :
    (Format.CpuTicks.find (some n) all).isSome = true ↔ ⟨toString n⟩ ∈ Cpu.identities all := by
  constructor
  · intro h
    obtain ⟨t, ht⟩ := Option.isSome_iff_exists.1 h
    obtain ⟨hm, hp⟩ := Cpu.processor_of_find ht
    exact Cpu.mem_identities hm hp
  · intro h
    obtain ⟨m, hm, heq⟩ := List.mem_map.1 h
    obtain rfl : m = n := Text.toString_injective (congrArg Identity.text heq)
    obtain ⟨t, ht, hp⟩ := List.mem_filterMap.1 hm
    rw [Format.CpuTicks.find, List.find?_isSome]
    exact ⟨t, ht, decide_eq_true hp⟩

/-- A processor under its number has disappeared exactly when it is not listed. -/
theorem cpu_failure {all : List Format.CpuTicks}
    (hr : readAs (host.read (proc / ⟨"stat"⟩)) Format.CpuTicks.read = .ok all)
    (hi : Cpu.Sound i) {id : Identity} (hid : i.subject = .named id)
    (hf : (Cpu.kind proc policy).Faultless host () i) :
    ((Cpu.kind proc policy).lookedAt host () i).2.failure =
      if id ∈ Cpu.identities all then none
      else some (Cpu.disappeared (proc / ⟨"stat"⟩) id) := by
  obtain ⟨r, hl⟩ := hf
  have hlook : Cpu.look (proc / ⟨"stat"⟩) host i.data = .ok r := hl
  obtain ⟨n, hn, rfl⟩ : ∃ n, i.data.info.processor = some n ∧ id = ⟨toString n⟩ := by
    have hsub := hi.named.symm.trans hid
    cases hp : i.data.info.processor with
    | none =>
      rw [hp] at hsub
      cases hsub
    | some n =>
      rw [hp] at hsub
      exact ⟨n, rfl, (Subject.named.inj hsub).symm⟩
  have hlisted := isSome_find_iff_listed all n
  cases hp : Format.CpuTicks.find (some n) all with
  | none =>
    simp only [Cpu.look_eq, Cpu.line, hn, hr, hp] at hlook
    cases hlook
    rw [hp] at hlisted
    rw [lookedAt_of_error hl, if_neg fun hin => nomatch hlisted.2 hin]
    rfl
  | some now =>
    have hline := Cpu.line_eq_ok.2 ⟨all, hr, hp⟩
    rw [← hn] at hline
    obtain ⟨d, rfl, -⟩ := Cpu.found_of_line hline hlook
    rw [hp] at hlisted
    rw [lookedAt_of_ok hl, if_pos (hlisted.1 rfl)]
    rfl

end Cpu

/-- A package that is listed is there when it is looked at. -/
theorem software_failure {database : Path} {policy : RemovalPolicy} {host : Provider}
    {listing : List Identity} {last cache : Software.Snapshot}
    (hd : (Software.discover database host last).value = .ok (listing, cache))
    {i : Instance Software.Data} (hi : i.subject = .named ⟨i.data.key⟩) {id : Identity}
    (hid : i.subject = .named id) (hlisted : id ∈ listing) :
    ((Software.kind database policy).lookedAt host cache i).2.failure = none := by
  obtain ⟨all, -, rfl, hkeys⟩ := Software.key_of_listed hd
  have hkey : i.data.key = id.text :=
    congrArg Identity.text (Subject.named.inj (hi.symm.trans hid))
  cases hf : (Software.snapshot all).find? i.data.key with
  | some p => rw [Software.lookedAt_of_some hf]
  | none => exact absurd (hkeys id hlisted) (hkey ▸ Software.find?_snapshot_eq_none.1 hf)

/-- Whatever the listing says of a processor or a package shows in the failure of its instance. -/
theorem failure_of_held {s : Settings} {k : KindName} {host : Provider} {old cache : k.Cache}
    {listing : List Identity} (hd : ((k.kind s).discover host old).value = .ok (listing, cache))
    {i : Instance k.Data} (hi : k.Sound i) {id : Identity} (hid : i.subject = .named id)
    (hf : (k.kind s).Faultless host cache i) :
    let i' := ((k.kind s).lookedAt host cache i).2
    (k = .cpu ∨ k = .software → id ∈ listing → i'.failure = none) ∧
      (k = .cpu → id ∉ listing → i'.failure =
        some (Cpu.disappeared (s.paths.proc / ⟨"stat"⟩) id)) := by
  cases k with
  | cpu =>
    obtain ⟨all, hr, rfl⟩ := Cpu.discover_cases hd
    have hfailure := cpu_failure hr hi hid hf
    exact ⟨fun _ hin => hfailure.trans (if_pos hin), fun _ hout => hfailure.trans (if_neg hout)⟩
  | software => exact ⟨fun _ hin => software_failure hd hi hid hin, nofun⟩
  | memory | os | bios | disk | network => exact ⟨fun h => by simp at h, nofun⟩

/-- **Listing, building and refreshing agree.** Each listed identity can be built, under its own
name, so that matching skips nothing; what is listed is then held, and under removal nothing else
is. In a refresh of processors whose lines sum up, or of packages, no listed identity fails, and a
processor that is held without being listed has disappeared. -/
theorem listed_are_held_and_found {s : Settings} {k : KindName} {e : Enumeration k.Cache k.Data}
    (h : Reachable s k e) (hp : e.phase = .initialized) {host : Provider}
    {listing : List Identity} {cache : k.Cache}
    (hd : ((k.kind s).discover host e.cache).value = .ok (listing, cache)) :
    (∀ id ∈ listing, ∃ i, (k.kind s).instantiate host cache id = .ok i ∧ i.subject = .named id) ∧
      ∃ r m, (e.updateEnumeration (k.kind s) host).value = .ok (.ok r, m) ∧ r.skipped = [] ∧
        m.ids.Nodup ∧ (∀ id ∈ listing, id ∈ m.ids) ∧
        ((k.kind s).policy = .remove → ∀ id, id ∈ m.ids ↔ id ∈ listing) ∧
        (k = .cpu ∧ ¬Cpu.Overflows (s.paths.proc / ⟨"stat"⟩) host ∨ k = .software →
          ∃ count e', (e.update (k.kind s) host true).value = .ok (.ok ⟨r, some count⟩, e') ∧
            e'.ids = m.ids ∧
            (∀ id ∈ listing, ∃ i, e'.find? id = some i ∧ i.failure = none) ∧
            (k = .cpu → ∀ id i, e'.find? id = some i → id ∉ listing → i.failure =
              some (Cpu.disappeared (s.paths.proc / ⟨"stat"⟩) id))) := by
  have hn := (k.reliable s).truthful _ _ _ _ hd
  have hb := (k.reliable s).builds hd
  have hwf : (e.reconciled (k.kind s) host cache listing).WellFormed :=
    (transition_reconciled h.wellFormed (hn.newcomers e)).wellFormed
  have hsound : (e.reconciled (k.kind s) host cache listing).All k.Sound :=
    h.sound.kept_reconciled (keeps_sound s k)
  have hheld : ∀ id ∈ listing, id ∈ (e.reconciled (k.kind s) host cache listing).ids :=
    fun id hid => mem_ids_reconciled hid (hb id hid)
  refine ⟨k.reliable s _ _ _ _ hd, _, _,
    updateEnumeration_of_ok hp hd (hn.newcomers e), skipped_reconciliation hb, hwf.distinct, hheld,
    fun hpol id => ⟨mem_listing_of_mem_ids_reconciled hpol, hheld id⟩, fun hk => ?_⟩
  have hf : ∀ i ∈ (e.reconciled (k.kind s) host cache listing).instances,
      (k.kind s).Faultless host cache i := by
    intro i hi
    rcases hk with ⟨rfl, hover⟩ | rfl
    · exact Cpu.faultless_of_sound (hsound i hi) hover
    · exact (Software.kind_regular _ _).faultless host cache i
  -- Whatever is found after the refresh was found before it, and has been looked at.
  have hfound : ∀ id i, ((e.reconciled (k.kind s) host cache listing).refreshed (k.kind s) host).find?
      id = some i → ∃ j, k.Sound j ∧ j.subject = .named id ∧ (k.kind s).Faultless host cache j ∧
        i = ((k.kind s).lookedAt host cache j).2 := by
    intro id i hi
    rw [find?_refreshed] at hi
    obtain ⟨j, hj, rfl⟩ := Option.map_eq_some_iff.1 hi
    have hm := mem_instances_of_find? hj
    exact ⟨j, hsound j hm, hwf.subject_of_find? hj, hf j hm, rfl⟩
  refine ⟨_, _, update_with_refresh hp hd hn hf, refreshed_ids _ _ _, fun id hid => ?_, ?_⟩
  · have hin := hheld id hid
    rw [← refreshed_ids _ (k.kind s) host] at hin
    obtain ⟨i, hi⟩ := Option.isSome_iff_exists.1 (find?_isSome.2 hin)
    obtain ⟨j, hj, hsub, hfj, rfl⟩ := hfound id i hi
    exact ⟨_, hi, (failure_of_held hd hj hsub hfj).1 (hk.imp_left And.left) hid⟩
  · intro hcpu id i hi hout
    obtain ⟨j, hj, hsub, hfj, rfl⟩ := hfound id i hi
    exact (failure_of_held hd hj hsub hfj).2 hcpu hout

/-- The line of one processor comes back under another spelling of its number, and that of
another does not. -/
theorem listed_are_held_and_found_respelled :
    let k := KindName.cpu
    let s : Settings := { cpu := .retain }
    let host (text : String) := (Tree.addFile {} ⟨"/proc/stat"⟩ text).provider
    let steps : List (Step Provider k.Cache k.Data) :=
      [⟨k.kind s, .init⟩, ⟨k.kind s, .update (host "cpu 3\ncpu0 1\ncpu1 2\n") true⟩]
    let now := host "cpu 9\ncpu01 5\n"
    ∃ x r e', (k.empty.run steps).value = .ok x ∧
      ((k.kind s).discover now x.2.cache).value = .ok ([⟨"1"⟩], ()) ∧
      ¬Cpu.Overflows (s.paths.proc / ⟨"stat"⟩) now ∧
      (x.2.update (k.kind s) now true).value = .ok (.ok r, e') ∧ e'.ids = [⟨"0"⟩, ⟨"1"⟩] ∧
      (∃ i, e'.find? ⟨"1"⟩ = some i ∧ i.failure = none) ∧
      ∃ i, e'.find? ⟨"0"⟩ = some i ∧ i.failure = some "cpu0 line in /proc/stat disappeared" := by
  intro k s host steps now
  have hread : ((k.empty.run steps).value.toOption.bind fun x =>
      (x.2.update (k.kind s) now true).value.toOption.map fun y => (x.2.phase, y.2.ids)) =
      some (.initialized, [⟨"0"⟩, ⟨"1"⟩]) := by
    decide +kernel
  have hlines : readAs (now.read (s.paths.proc / ⟨"stat"⟩)) Format.CpuTicks.read =
      .ok [{ user := 9 }, { processor := some 1, user := 5 }] := by
    decide +kernel
  have hover : ¬Cpu.Overflows (s.paths.proc / ⟨"stat"⟩) now := by
    rintro ⟨all, t, hr, hf, hsum⟩
    rw [hlines] at hr
    cases hr
    have hsmall : ∀ t ∈ [({ user := 9 } : Format.CpuTicks), { processor := some 1, user := 5 }],
        t.counters.sum < Text.wordBound64 := by decide
    exact absurd (hsmall t (Cpu.processor_of_find hf).1) (Nat.not_lt.2 hsum)
  obtain ⟨x, hx, hread⟩ := Option.bind_eq_some_iff.1 hread
  obtain ⟨y, hv, hread⟩ := Option.map_eq_some_iff.1 hread
  rw [Outcome.toOption_eq_some] at hx hv
  obtain ⟨hp, hids⟩ := Prod.mk.inj hread
  have hinit : Proper s k ⟨k.kind s, .init⟩ := .of_brought .init rfl
  have hupdate : ∀ host, Proper s k ⟨k.kind s, .update host true⟩ := fun _ => .of_brought _ rfl
  have h : Reachable s k x.2 := ⟨steps, x.1, by simp [steps, hinit, hupdate], hx⟩
  have hd : ((k.kind s).discover now ()).value = .ok ([⟨"1"⟩], ()) := by decide +kernel
  obtain ⟨-, r, m, -, -, -, -, -, hrefresh⟩ := listed_are_held_and_found h hp hd
  obtain ⟨count, e', hv', -, hlisted, hgone⟩ := hrefresh (.inl ⟨rfl, hover⟩)
  rw [hv] at hv'
  cases hv'
  obtain ⟨i, hi⟩ := Option.isSome_iff_exists.1
    (find?_isSome.2 (by rw [hids]; decide) : (e'.find? ⟨"0"⟩).isSome = true)
  exact ⟨x, _, _, hx, hd, hover, hv, hids, hlisted _ List.mem_cons_self, i, hi,
    (hgone rfl _ i hi (by decide)).trans (by decide +kernel)⟩

end KindName
end HostInventory
