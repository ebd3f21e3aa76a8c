import HostInventory.FileTree.Tree
import HostInventory.Proofs.Format.MemInfo
import HostInventory.Proofs.Format.Refusals
import HostInventory.Proofs.Kind.Memory
import HostInventory.Proofs.Kind.Regular
import HostInventory.Proofs.Kind.Sound
import HostInventory.Settings.Basic

/-! When a refresh fails.

For each of four kinds it is said of its sources when they are unusable: `Memory.Unusable`,
`Os.Unusable`, an unreadable vendor of the firmware, `Network.Unusable`. They speak of few of the
files that the kinds read. A refresh fails exactly where they are unusable, it succeeds everywhere
else but for the sum that memory may have to form, and no other file has a part in it
(`Kind.FailsBy`, `refreshes_fail_iff`).

What a look at an instance comes to is worked out for each kind (`Memory.look_fails_iff` and so on);
what that makes of a refresh and of an update is the same for all of them
(`Kind.FailsBy.of_look`). -/
namespace HostInventory

open Enumeration

/-! ### Files of a host -/

namespace FileTree.Provider

variable {host : Provider} {path : Path}

/-- The file cannot be read. -/
def Unreadable (host : Provider) (path : Path) : Prop :=
  ∃ e, host.read path = .error e

/-- The file cannot be read, or its text is bad. -/
def Unfit (host : Provider) (path : Path) (Bad : String → Prop) : Prop :=
  host.Unreadable path ∨ ∃ text, host.read path = .ok text ∧ Bad text

/-- The first readable one of some files has this text. -/
def FirstReadable (host : Provider) (paths : List Path) (text : String) : Prop :=
  ∃ before path after, paths = before ++ path :: after ∧ (∀ p ∈ before, host.Unreadable p) ∧
    host.read path = .ok text

theorem unfit_of_error {e : Error} (h : host.read path = .error e) (Bad : String → Prop) :
    host.Unfit path Bad :=
  .inl ⟨e, h⟩

theorem unfit_iff_of_ok {text : String} (h : host.read path = .ok text) {Bad : String → Prop} :
    host.Unfit path Bad ↔ Bad text := by
  simp [Unfit, Unreadable, h]

theorem unreadable_iff : host.Unreadable path ↔ (host.read path).toOption = none := by
  cases h : host.read path <;> simp [Unreadable, h, Except.toOption]

theorem toOption_read_eq_some_iff {text : String} :
    (host.read path).toOption = some text ↔ host.read path = .ok text := by
  cases host.read path <;> simp [Except.toOption]

theorem unreadable_congr {other : Provider} (h : host.read path = other.read path) :
    host.Unreadable path ↔ other.Unreadable path := by
  rw [Unreadable, Unreadable, h]

theorem unfit_congr {other : Provider} (h : host.read path = other.read path)
    {Bad : String → Prop} : host.Unfit path Bad ↔ other.Unfit path Bad := by
  rw [Unfit, Unfit, unreadable_congr h, h]

theorem firstReadable_iff {paths : List Path} {text : String} : host.FirstReadable paths text ↔
    paths.findSome? (fun path => (host.read path).toOption) = some text := by
  rw [List.findSome?_eq_some_iff]
  simp only [FirstReadable, unreadable_iff, toOption_read_eq_some_iff, and_comm]

theorem firstReadable_congr {other : Provider} {paths : List Path}
    (h : ∀ path ∈ paths, host.read path = other.read path) {text : String} :
    host.FirstReadable paths text ↔ other.FirstReadable paths text := by
  rw [firstReadable_iff, firstReadable_iff]
  induction paths with
  | nil => rfl
  | cons path rest ih =>
    obtain ⟨hpath, hrest⟩ := List.forall_mem_cons.1 h
    rw [List.findSome?_cons, List.findSome?_cons, hpath]
    split
    · rfl
    · exact ih hrest

/-- A value is what stands in its file but for the blanks around it. -/
theorem value?_eq_none_iff : host.value? path = none ↔ host.Unreadable path := by
  unfold value? readValue
  rw [unreadable_iff]
  cases host.read path <;> simp [Except.map, Except.toOption]

end FileTree.Provider

open FileTree

/-- A reading is good exactly if the file can be read and its reader refuses nothing. -/
theorem isOk_readAs_iff {α : Type} {source : Except FileTree.Error String}
    {reader : String → Except Format.Error α} :
    (readAs source reader).isOk = true ↔
      ∃ text, source = .ok text ∧ (reader text).isOk = true := by
  cases source with
  | error e => exact iff_of_false Bool.false_ne_true nofun
  | ok text =>
    have hread : (readAs (.ok text) reader).isOk = (reader text).isOk := by
      cases h : reader text <;> simp only [readAs, h] <;> rfl
    rw [hread]
    constructor
    · exact fun h => ⟨text, rfl, h⟩
    · rintro ⟨text', ht, h⟩
      exact Except.ok.inj ht ▸ h

/-! ### Refreshes -/

section Refreshes
variable {Env Cache Data : Type} {k : Kind Env Cache Data} {env : Env} {cache : Cache}
  {i : Instance Data}

/-- A refresh of the instance fails, and the instance is left with the failure. -/
def Enumeration.Kind.Fails (k : Kind Env Cache Data) (env : Env) (cache : Cache)
    (i : Instance Data) : Prop :=
  ∃ j, (refreshOne k env cache i).value = .ok (false, j)

/-- A refresh of the instance succeeds. -/
def Enumeration.Kind.Succeeds (k : Kind Env Cache Data) (env : Env) (cache : Cache)
    (i : Instance Data) : Prop :=
  ∃ j, (refreshOne k env cache i).value = .ok (true, j)

theorem fails_iff : k.Fails env cache i ↔
    ∃ left, (k.refresh env cache i.reset).value = .ok (.error left) := by
  unfold Kind.Fails
  cases h : (k.refresh env cache i.reset).value with
  | error fault => simp [refreshOne_of_fault h]
  | ok r =>
    rw [(refreshOne_eq ⟨r, h⟩).1]
    cases r with
    | ok d => simp [lookedAt_of_ok h]
    | error left => simp [lookedAt_of_error h]

theorem succeeds_of_faultless (hf : k.Faultless env cache i) (h : ¬k.Fails env cache i) :
    k.Succeeds env cache i := by
  obtain ⟨r, hr⟩ := hf
  cases r with
  | ok d => exact ⟨_, (refreshOne_eq ⟨_, hr⟩).1.trans (by rw [lookedAt_of_ok hr])⟩
  | error left => exact absurd (fails_iff.2 ⟨left, hr⟩) h

end Refreshes

/-- What decides whether a refresh of an instance of a kind fails: its sources are unusable, which
is a matter of the required files alone. -/
structure Enumeration.Kind.FailsBy {Cache Data : Type} (k : Kind Provider Cache Data)
    (required : Data → List Path) (Unusable : Provider → Data → Prop)
    (Overflows : Provider → Prop) : Prop where
  fails : ∀ host cache i, k.Fails host cache i ↔ Unusable host i.data
  succeeds : ∀ host cache i, ¬Unusable host i.data → ¬Overflows host → k.Succeeds host cache i
  /-- Whatever other files there are, and whatever they hold. -/
  alone : ∀ host other cache i, (∀ path ∈ required i.data, host.read path = other.read path) →
    (k.Fails host cache i ↔ k.Fails other cache i)
  /-- After an update the failures are those of the instances that cannot be refreshed. -/
  recorded : ∀ host (e e' : Enumeration Cache Data) report,
    (e.update k host true).value = .ok (.ok report, e') → ∀ i ∈ e'.instances,
      i.failure.isSome = true ↔ Unusable host i.data

/-- It is enough to know what a look at an instance comes to. -/
theorem Enumeration.Kind.FailsBy.of_look {Cache Data : Type} {k : Kind Provider Cache Data}
    {required : Data → List Path} {Unusable : Provider → Data → Prop}
    {Overflows : Provider → Prop} (hafter : k.afterFailure = id)
    (hlook : ∀ host cache i,
      (∃ left, (k.refresh host cache i).value = .ok (.error left)) ↔ Unusable host i.data)
    (hleaves : ∀ host cache i f left, (k.refresh host cache i).value = .ok (.error (f, left)) →
      left = i.data)
    (hkeeps : ∀ host cache i d, (k.refresh host cache i).value = .ok (.ok d) →
      (Unusable host d ↔ Unusable host i.data))
    (hfault : ∀ host cache i, ¬Overflows host → k.Faultless host cache i)
    (halone : ∀ host other d, (∀ path ∈ required d, host.read path = other.read path) →
      (Unusable host d ↔ Unusable other d)) :
    k.FailsBy required Unusable Overflows where
  fails host cache i := fails_iff.trans (hlook host cache i.reset)
  succeeds host cache i h ho :=
    succeeds_of_faultless (hfault host cache i ho) fun hf =>
      h ((hlook host cache i.reset).1 (fails_iff.1 hf))
  alone host other cache i hsame :=
    (fails_iff.trans (hlook host cache i.reset)).trans
      ((halone host other i.data hsame).trans
        (fails_iff.trans (hlook other cache i.reset)).symm)
  recorded host e e' report hu i hi := by
    obtain ⟨-, listing, cache, -, -, hfaultless, rfl⟩ := refreshed_of_update_ok hu
    obtain ⟨j, hj, rfl⟩ := mem_instances_refreshed hi
    obtain ⟨r, hr⟩ := hfaultless j hj
    have hfails := hlook host cache j.reset
    cases r with
    | ok d =>
      change (k.lookedAt host cache j).2.failure.isSome = true ↔
        Unusable host (k.lookedAt host cache j).2.data
      rw [lookedAt_of_ok hr]
      refine iff_of_false nofun fun h => ?_
      obtain ⟨left, hleft⟩ := hfails.2 ((hkeeps host cache j.reset d hr).1 h)
      cases hr.symm.trans hleft
    | error left =>
      change (k.lookedAt host cache j).2.failure.isSome = true ↔
        Unusable host (k.lookedAt host cache j).2.data
      rw [lookedAt_of_error hr, hafter, hleaves host cache j.reset left.1 left.2 hr]
      exact iff_of_true rfl (hfails.1 ⟨left, hr⟩)

/-! ### Memory -/

namespace Memory

/-- The memory table is unreadable, or has no line for the total. -/
def Unusable (table : Path) (host : Provider) : Prop :=
  host.Unfit table fun text => ∀ line ∈ Text.lines text.toList, ¬"MemTotal:".toList <+: line

theorem hasTotal_eq_false_iff {text : String} : (Format.MemInfo.read text).hasTotal = false ↔
    ∀ line ∈ Text.lines text.toList, ¬"MemTotal:".toList <+: line := by
  rw [← Bool.not_eq_true, Format.MemInfo.hasTotal_read]
  simp only [Format.MemInfo.Label.starts, List.isPrefixOf_iff_prefix, not_exists, not_and]
  rfl

theorem look_fails_iff {table : Path} {host : Provider} {last : Info} :
    (∃ left, (look table host last).value = .ok (.error left)) ↔ Unusable table host := by
  cases hr : host.read table with
  | error e =>
    refine iff_of_true ⟨(.io e, last), ?_⟩ (Provider.unfit_of_error hr _)
    rw [look, hr]
    rfl
  | ok text =>
    rw [Unusable, Provider.unfit_iff_of_ok hr, ← hasTotal_eq_false_iff, look, hr]
    dsimp only
    cases ht : (Format.MemInfo.read text).hasTotal with
    | false => exact iff_of_true ⟨_, rfl⟩ rfl
    | true =>
      refine iff_of_false ?_ nofun
      rintro ⟨left, hleft⟩
      cases ha : available? (Format.MemInfo.read text) <;> simp [ha] at hleft

theorem kind_failsBy (proc : Path) :
    (kind proc).FailsBy (fun _ => [proc / ⟨"meminfo"⟩])
      (fun host _ => Unusable (proc / ⟨"meminfo"⟩) host) (Overflows (proc / ⟨"meminfo"⟩)) :=
  .of_look rfl (fun _ _ _ => look_fails_iff) (fun _ _ _ _ _ => left_of_look)
    (fun _ _ _ _ _ => Iff.rfl)
    (fun host cache i ho => by
      cases hv : (look (proc / ⟨"meminfo"⟩) host i.data).value with
      | ok r => exact ⟨r, hv⟩
      | error fault => exact absurd (look_eq_error.1 hv).2 ho)
    fun _ _ _ hsame => Provider.unfit_congr (hsame _ (List.mem_singleton_self _))

end Memory

/-! ### The operating system -/

namespace Os

/-- The first readable file of the distribution is malformed, or there is none and the kernel's
name is unreadable too. -/
def Unusable (places : Places) (host : Provider) : Prop :=
  (∃ text, host.FirstReadable places.releases text ∧ Format.OsRelease.Malformed text) ∨
    (∀ path ∈ places.releases, host.Unreadable path) ∧
      host.Unreadable (places.kernel / ⟨"ostype"⟩)

theorem look_fails_iff {places : Places} {host : Provider} {last : Info} :
    (∃ left, (look places host last).value = .ok (.error left)) ↔ Unusable places host := by
  have hfirst : ∀ text, host.FirstReadable places.releases text ↔
      releaseText? places host = some text := fun _ => Provider.firstReadable_iff
  have hnone : (∀ path ∈ places.releases, host.Unreadable path) ↔
      releaseText? places host = none := by
    simp only [releaseText?, List.findSome?_eq_none_iff, Provider.unreadable_iff]
  simp only [Unusable, hfirst, hnone, look, release?]
  cases releaseText? places host with
  | none =>
    simp only [reduceCtorEq, false_and, exists_false, false_or, true_and,
      ← Provider.value?_eq_none_iff, Option.isNone_none, Bool.true_and]
    cases host.value? (places.kernel / ⟨"ostype"⟩) <;> simp
  | some text =>
    simp only [Option.some.injEq, exists_eq_left', reduceCtorEq, false_and, or_false]
    rw [← not_iff_not, ← Format.OsRelease.isOk_read_iff]
    cases Format.OsRelease.read text <;> simp [Except.map, Except.mapError, Except.isOk, Except.toBool]

theorem kind_failsBy (proc etc usr : Path) :
    (kind proc etc usr).FailsBy
      (fun _ => [etc / ⟨"os-release"⟩, usr / ⟨"lib/os-release"⟩, proc / ⟨"sys/kernel"⟩ / ⟨"ostype"⟩])
      (fun host _ => Unusable (Places.of proc etc usr) host) (fun _ => False) :=
  .of_look rfl (fun _ _ _ => look_fails_iff) (fun _ _ _ _ _ => left_of_look)
    (fun _ _ _ _ _ => Iff.rfl)
    (fun host _ i _ => look_returns (Places.of proc etc usr) host i.data)
    fun host other _ hsame => by
      have hreleases : ∀ path ∈ (Places.of proc etc usr).releases,
          host.read path = other.read path :=
        fun path hpath => hsame path (List.mem_append_left [_] hpath)
      have hkernel := hsame (proc / ⟨"sys/kernel"⟩ / ⟨"ostype"⟩) (by simp)
      refine or_congr (exists_congr fun text => and_congr_left fun _ =>
        Provider.firstReadable_congr hreleases) ?_
      exact and_congr (forall₂_congr fun path hpath =>
        Provider.unreadable_congr (hreleases path hpath)) (Provider.unreadable_congr hkernel)

end Os

/-! ### Firmware -/

theorem exists_ok_error_iff {ε α : Type} {x : Except ε α} :
    (∃ left, (Except.ok x : Except Fault (Except ε α)) = .ok (.error left)) ↔ ¬x.isOk = true := by
  cases x with
  | error left => exact iff_of_true ⟨left, rfl⟩ nofun
  | ok a => exact iff_of_false nofun (not_not_intro rfl)

namespace Bios

theorem isOk_look_iff {tables : Path} {host : Provider} {last : Info} :
    (look tables host last).isOk = true ↔ ¬host.Unreadable (tables / ⟨"bios_vendor"⟩) := by
  rw [← Provider.value?_eq_none_iff, Provider.value?, look]
  cases host.readValue (tables / ⟨"bios_vendor"⟩) with
  | error e => exact iff_of_false nofun (not_not_intro rfl)
  | ok vendor => exact iff_of_true rfl nofun

theorem kind_failsBy (sys : Path) :
    (kind sys).FailsBy (fun _ => [sys / ⟨"class/dmi/id"⟩ / ⟨"bios_vendor"⟩])
      (fun host _ => host.Unreadable (sys / ⟨"class/dmi/id"⟩ / ⟨"bios_vendor"⟩))
      (fun _ => False) :=
  .of_look rfl (fun _ _ _ => exists_ok_error_iff.trans (not_iff_comm.1 isOk_look_iff.symm))
    (fun _ _ _ _ _ h => left_of_look (Except.ok.inj h)) (fun _ _ _ _ _ => Iff.rfl)
    (fun _ _ _ _ => ⟨_, rfl⟩)
    fun _ _ _ hsame => Provider.unreadable_congr (hsame _ (List.mem_singleton_self _))

end Bios

/-! ### Interfaces -/

namespace Network

/-- The flags of the interface are unreadable or no flags, or the table of counters is unreadable,
has a row that is too short or has no row for the interface. -/
def Unusable (places : Places) (host : Provider) (name : String) : Prop :=
  (host.Unfit (places.interface name / ⟨"flags"⟩) fun text =>
    ∀ n, ¬Format.InterfaceFlags.Writes text n) ∨
  host.Unfit places.counters fun text =>
    Format.InterfaceTable.Short text ∨ ¬Format.InterfaceTable.Lists text name

section Look
variable {places : Places} {host : Provider} {name : String}

theorem isOk_flags_iff : (flags places host name).isOk = true ↔
    ¬host.Unfit (places.interface name / ⟨"flags"⟩) fun text =>
      ∀ n, ¬Format.InterfaceFlags.Writes text n := by
  rw [flags, isOk_readAs_iff, Provider.readValue]
  cases hr : host.read (places.interface name / ⟨"flags"⟩) with
  | error e => exact iff_of_false nofun (not_not_intro (Provider.unfit_of_error hr _))
  | ok text =>
    rw [Provider.unfit_iff_of_ok hr]
    simp only [Except.map, Except.ok.injEq, exists_eq_left', Format.InterfaceFlags.isOk_read_iff,
      Format.InterfaceFlags.writes_trim, not_forall, not_not]

theorem isOk_row_iff : (row places host name).isOk = true ↔
    ¬host.Unfit places.counters fun text =>
      Format.InterfaceTable.Short text ∨ ¬Format.InterfaceTable.Lists text name := by
  cases hr : host.read places.counters with
  | error e =>
    rw [row, hr]
    exact iff_of_false Bool.false_ne_true (not_not_intro (Provider.unfit_of_error hr _))
  | ok text =>
    have hshort : _ ↔ ¬Format.InterfaceTable.Short text := Format.InterfaceTable.isOk_read_iff
    rw [Provider.unfit_iff_of_ok hr, not_or, ← hshort, not_not, row, hr]
    cases hread : Format.InterfaceTable.read text with
    | error e =>
      simp only [readAs, hread]
      exact iff_of_false Bool.false_ne_true fun h => Bool.false_ne_true h.1
    | ok rows =>
      rw [← Format.InterfaceTable.find?_read_iff hread]
      simp only [readAs, hread, Except.mapError, bind, Except.bind]
      cases rows.find? fun row : Format.InterfaceTraffic => row.interface = name with
      | none => exact iff_of_false Bool.false_ne_true fun h => Bool.false_ne_true h.2
      | some found => exact iff_of_true rfl ⟨rfl, rfl⟩

theorem isOk_look_iff {info : Info} :
    (look places host info).isOk = true ↔ ¬Unusable places host info.name := by
  rw [Unusable, not_or, ← isOk_flags_iff, ← isOk_row_iff, look]
  cases flags places host info.name with
  | error f => exact iff_of_false Bool.false_ne_true fun h => Bool.false_ne_true h.1
  | ok word => cases row places host info.name <;> exact (and_iff_right rfl).symm

end Look

theorem kind_failsBy (proc sys : Path) (all : Bool) (policy : RemovalPolicy) :
    (kind proc sys all policy).FailsBy
      (fun info => [(Places.of proc sys).interface info.name / ⟨"flags"⟩, proc / ⟨"net/dev"⟩])
      (fun host info => Unusable (Places.of proc sys) host info.name) (fun _ => False) :=
  .of_look rfl (fun _ _ _ => exists_ok_error_iff.trans (not_iff_comm.1 isOk_look_iff.symm))
    (fun _ _ _ _ _ h => left_of_look (Except.ok.inj h))
    (fun _ _ _ _ hd => by rw [name_of_look (Except.ok.inj hd)]) (fun _ _ _ _ => ⟨_, rfl⟩)
    fun _ _ _ hsame => or_congr (Provider.unfit_congr (hsame _ (by simp)))
      (Provider.unfit_congr (hsame (Places.of proc sys).counters (by simp [Places.of])))

end Network

/-- **When a refresh fails.** Whatever is on the host, a refresh of memory, of the operating
system, of the firmware or of an interface fails exactly if its sources are unusable. Only the
required files have a part in that: all else that is read may be missing, or hold any text. -/
theorem refreshes_fail_iff (s : Settings) :
    (Memory.kind s.paths.proc).FailsBy
      (fun _ => [s.paths.proc / ⟨"meminfo"⟩])
      (fun host _ => Memory.Unusable (s.paths.proc / ⟨"meminfo"⟩) host)
      (Memory.Overflows (s.paths.proc / ⟨"meminfo"⟩)) ∧
    (Os.kind s.paths.proc s.paths.etc s.paths.usr).FailsBy
      (fun _ => [s.paths.etc / ⟨"os-release"⟩, s.paths.usr / ⟨"lib/os-release"⟩,
        s.paths.proc / ⟨"sys/kernel"⟩ / ⟨"ostype"⟩])
      (fun host _ => Os.Unusable (Os.Places.of s.paths.proc s.paths.etc s.paths.usr) host)
      (fun _ => False) ∧
    (Bios.kind s.paths.sys).FailsBy
      (fun _ => [s.paths.sys / ⟨"class/dmi/id"⟩ / ⟨"bios_vendor"⟩])
      (fun host _ => host.Unreadable (s.paths.sys / ⟨"class/dmi/id"⟩ / ⟨"bios_vendor"⟩))
      (fun _ => False) ∧
    (Network.kind s.paths.proc s.paths.sys s.network.all s.network.removal).FailsBy
      (fun info => [s.paths.sys / ⟨"class/net"⟩ / ⟨info.name⟩ / ⟨"flags"⟩,
        s.paths.proc / ⟨"net/dev"⟩])
      (fun host info =>
        Network.Unusable (Network.Places.of s.paths.proc s.paths.sys) host info.name)
      (fun _ => False) :=
  ⟨Memory.kind_failsBy _, Os.kind_failsBy _ _ _, Bios.kind_failsBy _,
    Network.kind_failsBy _ _ _ _⟩

/-- A host with the vendor of the firmware, the flags of an interface and its counters, and with
nothing else. -/
theorem refreshes_fail_iff_bare :
    let s : Settings := { paths := ⟨⟨""⟩, ⟨""⟩, ⟨""⟩, ⟨""⟩, ⟨""⟩⟩ }
    let host := (Tree.run {} [.addFile ⟨"class/dmi/id/bios_vendor"⟩ "",
      .addFile ⟨"class/net/eth0/flags"⟩ "0x1003\n",
      .addFile ⟨"net/dev"⟩ "eth0: 2 2 0 0 0 0 0 0 2 2 0 0 0 0 0 0\n"]).provider
    (KindName.memory.kind s).Fails host () (.ofWhole {}) ∧
      (KindName.os.kind s).Fails host () (.ofWhole {}) ∧
      (KindName.bios.kind s).Succeeds host () (.ofWhole {}) ∧
      (KindName.network.kind s).Succeeds host () (.fresh ⟨"eth0"⟩ { name := "eth0" }) ∧
      (KindName.network.kind s).Fails host () (.fresh ⟨"eth1"⟩ { name := "eth1" }) := by
  intro s host
  obtain ⟨hmemory, hos, hbios, hnetwork⟩ := refreshes_fail_iff s
  have htable : host.Unreadable (s.paths.proc / ⟨"meminfo"⟩) :=
    Provider.unreadable_iff.2 (by decide +kernel)
  have hreleases : ∀ path ∈ (Os.Places.of s.paths.proc s.paths.etc s.paths.usr).releases,
      (host.read path).toOption = none := by decide +kernel
  have hkernel : host.Unreadable (s.paths.proc / ⟨"sys/kernel"⟩ / ⟨"ostype"⟩) :=
    Provider.unreadable_iff.2 (by decide +kernel)
  have hvendor : (Bios.look (s.paths.sys / ⟨"class/dmi/id"⟩) host {}).isOk = true := by
    decide +kernel
  have hinterface : (Network.look (Network.Places.of s.paths.proc s.paths.sys) host
      { name := "eth0" }).isOk = true := by
    decide +kernel
  have hflags : host.Unreadable (s.paths.sys / ⟨"class/net"⟩ / ⟨"eth1"⟩ / ⟨"flags"⟩) :=
    Provider.unreadable_iff.2 (by decide +kernel)
  exact ⟨(hmemory.fails _ _ _).2 (.inl htable),
    (hos.fails _ _ _).2
      (.inr ⟨fun path hpath => Provider.unreadable_iff.2 (hreleases path hpath), hkernel⟩),
    hbios.succeeds _ _ _ (Bios.isOk_look_iff.1 hvendor) id,
    hnetwork.succeeds _ _ _ (Network.isOk_look_iff.1 hinterface) id,
    (hnetwork.fails _ _ _).2 (.inl (.inl hflags))⟩

end HostInventory
