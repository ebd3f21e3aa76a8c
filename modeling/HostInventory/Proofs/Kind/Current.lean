import HostInventory.FileTree.Tree
import HostInventory.Proofs.Kind.Listing
import HostInventory.Proofs.Kind.Software
import HostInventory.Proofs.Kind.Sound

/-! What a refresh says.

A look at an instance rewrites all that is reported of it from what is there at the time. So
two instances of one subject, whatever has become of either before, fail alike or are alike
after a look at one host, except that the usage of a processor is measured against the sample
before (`KindName.refresh_agrees`). What has been listed before plays no part either: the cache
is that of the present listing. Hence what is reported depends on the host alone
(`KindName.reported_of_present_host`). -/
namespace HostInventory

open Enumeration FileTree

namespace KindName

/-- The data of an instance but for a processor's usage, which is about the time between two
samples. -/
def withoutUsage : (k : KindName) → k.Data → k.Data
  | .cpu, d => { d with info := { d.info with usage := none } }
  | _, d => d

/-! ### Two looks at one host -/

/-- What a look has found, without what it leaves where it fails. -/
def finding {Data : Type} (r : Except (Failure × Data) Data) : Except Failure Data :=
  r.mapError Prod.fst

/-- What a look has found, with these data left where it fails. -/
def leavingInstead {Data : Type} (d : Data) (r : Except (Failure × Data) Data) :
    Except (Failure × Data) Data :=
  leaving d (finding r)

@[simp] theorem finding_leavingInstead {Data : Type} (d : Data) (r : Except (Failure × Data) Data) :
    finding (leavingInstead d r) = finding r := by
  cases r <;> rfl

section Looks
variable {host : Provider}

theorem memory_look_afresh (table : Path) (last last' : Memory.Info) :
    (Memory.look table host last').value =
      (Memory.look table host last).value.map (leavingInstead last') := by
  unfold Memory.look
  cases host.read table with
  | error e => rfl
  | ok text =>
    dsimp only
    split
    · rfl
    · cases Memory.available? (Format.MemInfo.read text) <;> rfl

theorem os_look_afresh (places : Os.Places) (last last' : Os.Info) :
    (Os.look places host last').value =
      (Os.look places host last).value.map (leavingInstead last') := by
  unfold Os.look
  cases Os.release? places host with
  | error f => rfl
  | ok release =>
    dsimp only
    split <;> rfl

theorem bios_look_afresh (tables : Path) (last last' : Bios.Info) :
    Bios.look tables host last' = leavingInstead last' (Bios.look tables host last) := by
  unfold Bios.look
  cases (host.readValue (tables / ⟨"bios_vendor"⟩)).mapError Failure.io <;> rfl

/-- A look rewrites everything that is reported of an interface but its name. -/
theorem network_look_afresh (places : Network.Places) {last last' : Network.Info}
    (hname : last.name = last'.name) :
    Network.look places host last' = leavingInstead last' (Network.look places host last) := by
  simp only [Network.look, hname]
  cases Network.flags places host last'.name with
  | error f => rfl
  | ok flags => cases Network.row places host last'.name <;> rfl

theorem software_look_afresh (snapshot : Software.Snapshot) {last last' : Software.Data}
    (hkey : last.key = last'.key) :
    Software.look snapshot last' = leavingInstead last' (Software.look snapshot last) := by
  rw [Software.look, Software.look, hkey]
  cases snapshot.find? last'.key <;> rfl

theorem cpu_look_agrees {statistics : Path} {d₁ d₂ : Cpu.Data}
    (hd : d₁.info.processor = d₂.info.processor) {r₁ r₂ : Except (Failure × Cpu.Data) Cpu.Data}
    (h₁ : Cpu.look statistics host d₁ = .ok r₁) (h₂ : Cpu.look statistics host d₂ = .ok r₂) :
    (finding r₁).map (withoutUsage .cpu) = (finding r₂).map (withoutUsage .cpu) := by
  cases hl : Cpu.line statistics host d₂.info.processor with
  | error f =>
    rw [Cpu.look_eq, hd, hl] at h₁
    rw [Cpu.look_eq, hl] at h₂
    cases h₁
    cases h₂
    rfl
  | ok now =>
    obtain ⟨d₁', rfl, hs₁⟩ := Cpu.found_of_line (hd ▸ hl) h₁
    obtain ⟨d₂', rfl, hs₂⟩ := Cpu.found_of_line hl h₂
    obtain ⟨total₁, ht₁, heq₁⟩ := Cpu.sample?_eq hs₁
    obtain ⟨total₂, ht₂, heq₂⟩ := Cpu.sample?_eq hs₂
    obtain rfl : total₁ = total₂ := Option.some.inj (ht₁.symm.trans ht₂)
    rw [heq₁, heq₂, hd]
    rfl

end Looks

/-- What has been found of an instance has no part in a look at it, unless the kind measures
against it or keeps what it is told. -/
theorem refresh_afresh {k : KindName} (hdisk : k ≠ .disk) (hcpu : k ≠ .cpu) {s : Settings}
    {host : Provider} {cache : k.Cache} {i j : Instance k.Data}
    (hnames : k.subjectOf i.data = k.subjectOf j.data) :
    ((k.kind s).refresh host cache j).value =
      ((k.kind s).refresh host cache i).value.map (leavingInstead j.data) := by
  cases k with
  | disk => exact absurd rfl hdisk
  | cpu => exact absurd rfl hcpu
  | memory => exact memory_look_afresh _ _ _
  | os => exact os_look_afresh _ _ _
  | bios => exact congrArg Except.ok (bios_look_afresh _ _ _)
  | network =>
    have hname : i.data.name = j.data.name := congrArg Identity.text (Subject.named.inj hnames)
    exact congrArg Except.ok (network_look_afresh _ hname)
  | software =>
    have hkey : i.data.key = j.data.key := congrArg Identity.text (Subject.named.inj hnames)
    exact congrArg Except.ok (software_look_afresh cache hkey)

/-- A look at an instance, when it does not end in a fault. -/
theorem refresh_agrees {k : KindName} (hk : k ≠ .disk) {s₁ s₂ : Settings}
    (hpaths : s₁.paths = s₂.paths) {host : Provider} {cache : k.Cache} {i₁ i₂ : Instance k.Data}
    (hi₁ : k.Sound i₁) (hi₂ : k.Sound i₂) (hsub : i₁.subject = i₂.subject)
    {r₁ r₂ : Except (Failure × k.Data) k.Data}
    (h₁ : ((k.kind s₁).refresh host cache i₁.reset).value = .ok r₁)
    (h₂ : ((k.kind s₂).refresh host cache i₂.reset).value = .ok r₂) :
    (finding r₁).map k.withoutUsage = (finding r₂).map k.withoutUsage := by
  have hnames : k.subjectOf i₁.data = k.subjectOf i₂.data := by
    rw [← hi₁.named, ← hi₂.named, hsub]
  have hsame : ((k.kind s₁).refresh host cache i₁.reset).value =
      ((k.kind s₂).refresh host cache i₁.reset).value := by
    cases k
    case disk => exact absurd rfl hk
    all_goals rw [kind, kind, hpaths]
    all_goals rfl
  rw [hsame] at h₁
  by_cases hcpu : k = .cpu
  · subst hcpu
    exact cpu_look_agrees (Cpu.subjectOf_injective hnames) h₁ h₂
  · rw [refresh_afresh hk hcpu (i := i₁.reset) (j := i₂.reset) hnames, h₁] at h₂
    cases h₂
    rw [finding_leavingInstead]

/-- The cache is that of the present listing. -/
theorem cache_agrees {k : KindName} (hk : k ≠ .disk) {s₁ s₂ : Settings}
    (hpaths : s₁.paths = s₂.paths) {host : Provider} {cache₁ cache₂ new₁ new₂ : k.Cache}
    {listing₁ listing₂ : List Identity}
    (h₁ : ((k.kind s₁).discover host cache₁).value = .ok (listing₁, new₁))
    (h₂ : ((k.kind s₂).discover host cache₂).value = .ok (listing₂, new₂)) : new₁ = new₂ := by
  cases k with
  | disk => exact absurd rfl hk
  | memory | os | bios | cpu | network => rfl
  | software =>
    obtain ⟨all₁, hread₁, rfl⟩ := Software.of_discover_eq_ok h₁
    obtain ⟨all₂, hread₂, rfl⟩ := Software.of_discover_eq_ok h₂
    rw [hpaths] at hread₁
    rw [Except.ok.inj (hread₁.symm.trans hread₂)]

/-! ### Two histories -/

/-- What two looks make of the instances. -/
theorem lookedAt_agrees {k : KindName} (hk : k ≠ .disk) {s₁ s₂ : Settings}
    (hpaths : s₁.paths = s₂.paths) {host : Provider} {cache : k.Cache} {i₁ i₂ : Instance k.Data}
    (hi₁ : k.Sound i₁) (hi₂ : k.Sound i₂) (hsub : i₁.subject = i₂.subject)
    (hf₁ : (k.kind s₁).Faultless host cache i₁) (hf₂ : (k.kind s₂).Faultless host cache i₂) :
    let j₁ := ((k.kind s₁).lookedAt host cache i₁).2
    let j₂ := ((k.kind s₂).lookedAt host cache i₂).2
    j₁.failure = j₂.failure ∧
      (j₁.failure = none → k.withoutUsage j₁.data = k.withoutUsage j₂.data) := by
  obtain ⟨r₁, h₁⟩ := hf₁
  obtain ⟨r₂, h₂⟩ := hf₂
  have hagree := refresh_agrees hk hpaths hi₁ hi₂ hsub h₁ h₂
  cases r₁ with
  | ok d₁ =>
    cases r₂ with
    | ok d₂ =>
      rw [lookedAt_of_ok h₁, lookedAt_of_ok h₂]
      exact ⟨rfl, fun _ => Except.ok.inj hagree⟩
    | error f₂ => cases hagree
  | error f₁ =>
    cases r₂ with
    | ok d₂ => cases hagree
    | error f₂ =>
      rw [lookedAt_of_error h₁, lookedAt_of_error h₂, Except.error.inj hagree]
      exact ⟨rfl, nofun⟩

/-- **What is reported depends on the present host alone.** Whatever two enumerations of a kind
other than disks have been through, after an update from one host instances of one subject have
the same failure, or the same data but for the usage of a processor. -/
theorem reported_of_present_host {k : KindName} (hk : k ≠ .disk) {s₁ s₂ : Settings}
    (hpaths : s₁.paths = s₂.paths) {e₁ e₂ : Enumeration k.Cache k.Data}
    (h₁ : Reachable s₁ k e₁) (h₂ : Reachable s₂ k e₂) {host : Provider} {r₁ r₂ : UpdateReport}
    {e₁' e₂' : Enumeration k.Cache k.Data}
    (hv₁ : (e₁.update (k.kind s₁) host true).value = .ok (.ok r₁, e₁'))
    (hv₂ : (e₂.update (k.kind s₂) host true).value = .ok (.ok r₂, e₂')) {i₁ i₂ : Instance k.Data}
    (hi₁ : i₁ ∈ e₁'.instances) (hi₂ : i₂ ∈ e₂'.instances) (hsub : i₁.subject = i₂.subject) :
    i₁.failure = i₂.failure ∧
      (i₁.failure = none → k.withoutUsage i₁.data = k.withoutUsage i₂.data) := by
  obtain ⟨-, listing₁, cache₁, hd₁, -, hf₁, rfl⟩ := refreshed_of_update_ok hv₁
  obtain ⟨-, listing₂, cache₂, hd₂, -, hf₂, rfl⟩ := refreshed_of_update_ok hv₂
  obtain rfl : cache₁ = cache₂ := cache_agrees hk hpaths hd₁ hd₂
  obtain ⟨j₁, hj₁, rfl⟩ := mem_instances_refreshed hi₁
  obtain ⟨j₂, hj₂, rfl⟩ := mem_instances_refreshed hi₂
  rw [lookedAt_subject, lookedAt_subject] at hsub
  exact lookedAt_agrees hk hpaths (h₁.sound.kept_reconciled (keeps_sound s₁ k) j₁ hj₁)
    (h₂.sound.kept_reconciled (keeps_sound s₂ k) j₂ hj₂) hsub (hf₁ j₁ hj₁) (hf₂ j₂ hj₂)

/-- The firmware's table loses an entry; an enumeration that has known it and one that has just been
set up report the same. -/
theorem reported_of_present_host_reread :
    let k := KindName.bios
    let now := Tree.addFile {} ⟨"/sys/class/dmi/id/bios_vendor"⟩ "Acme\n"
    let before := now.addFile ⟨"/sys/class/dmi/id/bios_release"⟩ "5.17\n"
    let steps₁ : List (Step Provider k.Cache k.Data) :=
      [⟨k.kind {}, .init⟩, ⟨k.kind {}, .update before.provider true⟩]
    let steps₂ : List (Step Provider k.Cache k.Data) := [⟨k.kind {}, .init⟩]
    ∃ x₁ x₂ r₁ r₂ e₁ e₂ i₀ i₁ i₂,
      (k.empty.run steps₁).value = .ok x₁ ∧ (k.empty.run steps₂).value = .ok x₂ ∧
      x₁.2.total = some i₀ ∧ i₀.data.release = some "5.17" ∧
      (x₁.2.update (k.kind {}) now.provider true).value = .ok (.ok r₁, e₁) ∧
      (x₂.2.update (k.kind {}) now.provider true).value = .ok (.ok r₂, e₂) ∧
      e₁.total = some i₁ ∧ e₂.total = some i₂ ∧ i₁.data.release = none ∧
      i₁.failure = none ∧ i₁.failure = i₂.failure ∧ i₁.data = i₂.data := by
  intro k now before steps₁ steps₂
  have hread₁ : ((k.empty.run steps₁).value.toOption.bind fun x =>
      (x.2.update (k.kind {}) now.provider true).value.toOption.map fun y =>
        (x.2.total.map fun i => i.data.release, y.1.isOk,
          y.2.total.map fun i => (i.failure, i.data.release))) =
      some (some (some "5.17"), true, some (none, none)) := by
    decide +kernel
  have hread₂ : ((k.empty.run steps₂).value.toOption.bind fun x =>
      (x.2.update (k.kind {}) now.provider true).value.toOption.map fun y =>
        (y.1.isOk, y.2.total.isSome)) = some (true, true) := by
    decide +kernel
  obtain ⟨x₁, hx₁, hread₁⟩ := Option.bind_eq_some_iff.1 hread₁
  obtain ⟨⟨r₁, e₁⟩, hv₁, hread₁⟩ := Option.map_eq_some_iff.1 hread₁
  obtain ⟨x₂, hx₂, hread₂⟩ := Option.bind_eq_some_iff.1 hread₂
  obtain ⟨⟨r₂, e₂⟩, hv₂, hread₂⟩ := Option.map_eq_some_iff.1 hread₂
  rw [Outcome.toOption_eq_some] at hx₁ hv₁ hx₂ hv₂
  simp only [Prod.mk.injEq, Option.map_eq_some_iff] at hread₁ hread₂
  obtain ⟨⟨i₀, hi₀, hrelease⟩, hok₁, i₁, hi₁, hfailure, hnow⟩ := hread₁
  obtain ⟨hok₂, htotal⟩ := hread₂
  obtain ⟨i₂, hi₂⟩ := Option.isSome_iff_exists.1 htotal
  cases r₁ with
  | error f => cases hok₁
  | ok r₁ =>
    cases r₂ with
    | error f => cases hok₂
    | ok r₂ =>
      have hinit : Proper {} k ⟨k.kind {}, .init⟩ := .of_brought .init rfl
      have hupdate : Proper {} k ⟨k.kind {}, .update before.provider true⟩ := .of_brought _ rfl
      have h₁ : Reachable {} k x₁.2 := ⟨steps₁, x₁.1, by simp [steps₁, hinit, hupdate], hx₁⟩
      have h₂ : Reachable {} k x₂.2 := ⟨steps₂, x₂.1, by simp [steps₂, hinit], hx₂⟩
      obtain ⟨hsame, hdata⟩ := reported_of_present_host (by decide) rfl h₁ h₂ hv₁ hv₂
        (List.mem_append_left _ (Option.mem_toList.2 hi₁))
        (List.mem_append_left _ (Option.mem_toList.2 hi₂))
        (((h₁.update hv₁).wellFormed.whole i₁ hi₁).trans
          ((h₂.update hv₂).wellFormed.whole i₂ hi₂).symm)
      exact ⟨x₁, x₂, r₁, r₂, e₁, e₂, i₀, i₁, i₂, hx₁, hx₂, hi₀, hrelease, hv₁, hv₂, hi₁, hi₂, hnow,
        hfailure, hsame, hdata hfailure⟩

end KindName
end HostInventory
