import HostInventory.Proofs.Enumeration.Origin
import HostInventory.Proofs.FileTree.Coherence
import HostInventory.Proofs.Kind.Agreement
import HostInventory.Proofs.Kind.Atomic

/-! Active interfaces.

Unless all interfaces are wanted, those are listed that are up and running. The listing asks for
the flags and the state of each entry of a directory, and a look at an interface asks for them
again, by the name of the interface. Both read the same, so they agree about an interface that is
an entry (`isActive_iff_of_look`). Whether it is one is a question to the host: in a tree, who can
read the flags of an interface finds it in the directory, provided that its name is one that an
entry can have (`mem_listing_of_active`). Names come from listings, or from callers
(`plain_of_run`). So an update lists the interfaces that it finds to be active, and no others, as
far as the looks succeed and under such names (`listed_iff_active`). Without either it may not
(`active_unlisted_and_listed_inactive`). -/
namespace HostInventory.Network

open Enumeration FileTree

/-! ### Two ways to read an interface -/

section Reading
variable {places : Places} {host : Provider} {last info : Info}

theorem isActive_value {name : String} : (isActive places host name).value = true ↔
    ∃ word, flags places host name = .ok word ∧ Format.InterfaceFlags.isUp word = true ∧
      isRunning (state places host name) = true := by
  unfold isActive
  cases flags places host name <;> simp

/-- A look that succeeds has read the flags and the state. -/
theorem look_eq_ok (h : look places host last = .ok info) :
    ∃ word, flags places host last.name = .ok word ∧
      info.up = Format.InterfaceFlags.isUp word ∧
      info.running = isRunning (state places host last.name) := by
  unfold look at h
  cases hflags : flags places host last.name with
  | error f =>
    rw [hflags] at h
    cases h
  | ok word =>
    cases hrow : row places host last.name with
    | error f =>
      rw [hflags, hrow] at h
      cases h
    | ok traffic =>
      rw [hflags, hrow] at h
      cases h
      exact ⟨word, rfl, rfl, rfl⟩

/-- The filter and a look that succeeds say the same. -/
theorem isActive_iff_of_look (h : look places host last = .ok info) :
    (isActive places host last.name).value = true ↔ info.up = true ∧ info.running = true := by
  obtain ⟨word, hflags, hup, hrunning⟩ := look_eq_ok h
  rw [isActive_value, hup, hrunning]
  constructor
  · rintro ⟨word', hflags', hactive⟩
    obtain rfl := Except.ok.inj (hflags.symm.trans hflags')
    exact hactive
  · exact fun hactive => ⟨word, hflags, hactive⟩

/-- The names that are listed among those of all interfaces. -/
theorem mem_select {all : Bool} {names : List String} {id : Identity} :
    id ∈ (select places all host names).value ↔
      id.text ∈ names ∧ (all = true ∨ (isActive places host id.text).value = true) := by
  induction names with
  | nil => simp [select]
  | cons name rest ih =>
    have hwanted : (select places all host (name :: rest)).value =
        if all = true ∨ (isActive places host name).value = true
        then ⟨name⟩ :: (select places all host rest).value
        else (select places all host rest).value := by
      cases all <;> simp [select]
    have hid : id = ⟨name⟩ ↔ id.text = name :=
      ⟨congrArg Identity.text, congrArg Identity.mk⟩
    rw [hwanted, List.mem_cons]
    split
    · next h =>
      rw [List.mem_cons, ih, hid]
      constructor
      · rintro (rfl | ⟨hmem, hactive⟩)
        · exact ⟨.inl rfl, h⟩
        · exact ⟨.inr hmem, hactive⟩
      · rintro ⟨rfl | hmem, hactive⟩
        · exact .inl rfl
        · exact .inr ⟨hmem, hactive⟩
    · next h =>
      rw [ih]
      constructor
      · exact fun ⟨hmem, hactive⟩ => ⟨.inr hmem, hactive⟩
      · rintro ⟨rfl | hmem, hactive⟩
        · exact absurd hactive h
        · exact ⟨hmem, hactive⟩

end Reading

/-! ### The listing -/

section Listing
variable {proc sys : Path} {all : Bool} {policy : RemovalPolicy} {host : Provider}
  {listing : List Identity} {id : Identity}

/-- What is listed is chosen among the entries of the directory of interfaces. -/
theorem discover_eq_ok : ((kind proc sys all policy).discover host ()).value = .ok (listing, ()) ↔
    ∃ paths, host.list (Places.of proc sys).interfaces = .ok paths ∧
      listing = (select (Places.of proc sys) all host (paths.filterMap Path.fileName)).value := by
  show (leaving () (discover (Places.of proc sys) all host).value).map _ = _ ↔ _
  unfold discover
  cases host.list (Places.of proc sys).interfaces with
  | error e => exact ⟨nofun, fun ⟨_, h, _⟩ => nomatch h⟩
  | ok paths =>
    simp only [Log.Logged.value_bind, Log.Logged.value_pure, leaving_ok, Except.map,
      Except.ok.injEq, Prod.mk.injEq, and_true, exists_eq_left', eq_comm]

/-- An interface is listed under the name of an entry. -/
theorem plain_of_mem_listing
    (hd : ((kind proc sys all policy).discover host ()).value = .ok (listing, ()))
    (hid : id ∈ listing) : Path.Plain id.text := by
  obtain ⟨paths, -, rfl⟩ := discover_eq_ok.1 hd
  obtain ⟨path, -, hname⟩ := List.mem_filterMap.1 (mem_select.1 hid).1
  exact Path.plain_of_fileName hname

/-- An interface that is listed and can be looked at is found to be active. -/
theorem active_of_mem_listing
    (hd : ((kind proc sys false policy).discover host ()).value = .ok (listing, ()))
    {last info : Info} (hid : ⟨last.name⟩ ∈ listing)
    (hlook : look (Places.of proc sys) host last = .ok info) :
    info.up = true ∧ info.running = true := by
  obtain ⟨paths, -, rfl⟩ := discover_eq_ok.1 hd
  obtain ⟨-, hactive⟩ := mem_select.1 hid
  exact (isActive_iff_of_look hlook).1 (hactive.resolve_left Bool.false_ne_true)

/-- In a tree that hangs together, one that is found to be active under the name of an entry is
listed. -/
theorem mem_listing_of_active {t : Tree} (ht : t.Closed)
    (hd : ((kind proc sys false policy).discover t.provider ()).value = .ok (listing, ()))
    {last info : Info} (hname : Path.Plain last.name)
    (hlook : look (Places.of proc sys) t.provider last = .ok info)
    (hactive : info.up = true ∧ info.running = true) : ⟨last.name⟩ ∈ listing := by
  obtain ⟨paths, hlist, rfl⟩ := discover_eq_ok.1 hd
  obtain ⟨word, hflags, -⟩ := look_eq_ok hlook
  have hentry : last.name ∈ paths.filterMap Path.fileName := by
    unfold flags Provider.readValue at hflags
    cases hread : t.read ((Places.of proc sys).interface last.name / ⟨"flags"⟩) with
    | error e =>
      rw [show t.provider.read = t.read from rfl, hread] at hflags
      cases hflags
    | ok text => exact ht.mem_fileNames hlist hname (by decide) hread
  exact mem_select.2 ⟨hentry, .inr ((isActive_iff_of_look hlook).2 hactive)⟩

end Listing

/-! ### Names -/

section Names
variable {proc sys : Path} {all : Bool} {policy : RemovalPolicy}

/-- An interface keeps its name. -/
theorem fixes_name (proc sys : Path) (all : Bool) (policy : RemovalPolicy) :
    (kind proc sys all policy).Fixes Info.name where
  failedLook := fun _ _ _ _ _ h => by rw [left_of_look (Except.ok.inj h)]
  afterFailure := fun _ => rfl
  setPresent := fun _ _ => rfl
  refresh := fun _ _ _ _ h => name_of_look (Except.ok.inj h)

/-- Callers bring the interface, if they do, under a name that an entry can have. -/
def Ordinary (steps : List (Step Provider Unit Info)) (id : Identity) : Prop :=
  ∀ step ∈ steps, ∀ i, step.operation.brought? = some i → i.subject = .named id →
    Path.Plain id.text

/-- Every interface that is held after a run has such a name, but for what callers bring. -/
theorem plain_of_run {steps : List (Step Provider Unit Info)}
    (hk : ∀ step ∈ steps, step.kind = kind proc sys all policy) {history : List Event}
    {e : Enumeration Unit Info} (hrun : (run { cache := () } steps).value = .ok (history, e))
    {id : Identity} (hordinary : Ordinary steps id) (hid : id ∈ e.ids) : Path.Plain id.text := by
  have hempty : WellFormed ({ cache := () } : Enumeration Unit Info) := .empty ()
  obtain ⟨j, hj⟩ := Option.isSome_iff_exists.1 (find?_isSome.2 hid)
  have hsubject := (hempty.run hrun).subject_of_find? hj
  have hfixes : ∀ step ∈ steps, step.kind.Fixes Info.name :=
    fun step hstep => hk step hstep ▸ fixes_name proc sys all policy
  obtain ⟨i, hsame, ⟨-, hi⟩ | ⟨step, hmem, -, hin⟩⟩ :=
    trait_of_run hempty hfixes hrun (mem_instances_of_find? hj)
  · cases hi
  · have hnamed : i.subject = .named id := hsame.1.symm.trans hsubject
    rw [hk step hmem] at hin
    cases hin with
    | whole hw => cases hw
    | brought hb => exact hordinary step hmem i hb hnamed
    | listed _ hlists =>
      obtain ⟨old, listing, cache, hd, id', hid', hbuilt⟩ := hlists
      cases hbuilt
      obtain rfl : id' = id := Subject.named.inj hnamed
      exact plain_of_mem_listing hd hid'

end Names

/-! ### An update -/

/-- An interface that an update has looked at without a failure is as a look under its name has
found it. -/
theorem look_of_update {s : Settings} {e e' : Enumeration Unit Info}
    (h : KindName.Reachable s .network e) {host : Provider} {r : UpdateReport}
    (hv : (e.update (KindName.network.kind s) host true).value = .ok (.ok r, e'))
    {id : Identity} {i : Instance Info} (hi : e'.find? id = some i) (hfailure : i.failure = none) :
    ∃ last, last.name = id.text ∧
      look (Places.of s.paths.proc s.paths.sys) host last = .ok i.data := by
  have h' := h.update hv
  have hsubject : i.subject = .named ⟨i.data.name⟩ := h'.sound i (mem_instances_of_find? hi)
  have hname : i.data.name = id.text := congrArg Identity.text
    (Subject.named.inj (hsubject.symm.trans (h'.wellFormed.subject_of_find? hi)))
  obtain ⟨-, listing, cache, -, -, -, rfl⟩ := refreshed_of_update_ok hv
  rw [find?_refreshed] at hi
  obtain ⟨j, -, rfl⟩ := Option.map_eq_some_iff.1 hi
  cases hlook : look (Places.of s.paths.proc s.paths.sys) host j.data with
  | ok info =>
    rw [lookedAt_of_ok (congrArg Except.ok hlook)] at hname ⊢
    exact ⟨j.data, (name_of_look hlook).symm.trans hname, hlook⟩
  | error left =>
    rw [lookedAt_of_error (congrArg Except.ok hlook)] at hfailure
    cases hfailure

/-- An update is one more step, by which callers bring nothing. -/
theorem plain_of_update {s : Settings} {steps : List (Step Provider Unit Info)}
    (hsteps : ∀ step ∈ steps, KindName.Proper s .network step) {history : List Event}
    {e e' : Enumeration Unit Info}
    (hrun : (KindName.network.empty.run steps).value = .ok (history, e)) {host : Provider}
    {r : UpdateReport} (hv : (e.update (KindName.network.kind s) host true).value = .ok (.ok r, e'))
    {id : Identity} (hordinary : Ordinary steps id) (hid : id ∈ e'.ids) : Path.Plain id.text := by
  have hstep : (e.apply ⟨KindName.network.kind s, .update host true⟩).value =
      .ok (addedBy (.ok r.reconciliation) e', e') := Outcome.value_bind_of_ok hv _
  obtain ⟨history', hrun'⟩ := run_concat hrun hstep
  have hkinds : ∀ step ∈ steps ++ [⟨KindName.network.kind s, .update host true⟩],
      step.kind = KindName.network.kind s :=
    List.forall_mem_append.2 ⟨fun step hstep => (hsteps step hstep).kind_eq,
      List.forall_mem_singleton.2 rfl⟩
  have hordinary' : Ordinary (steps ++ [⟨KindName.network.kind s, .update host true⟩]) id :=
    List.forall_mem_append.2 ⟨hordinary, List.forall_mem_singleton.2 nofun⟩
  exact plain_of_run hkinds hrun' hordinary' hid

/-- **What is listed is what is found to be active.** After an update from a tree with a directory
of interfaces, an interface that could be looked at is up and running if it was listed, and was
listed if it is up and running, unless a caller has brought it under a name that no entry of a
directory can have. -/
theorem listed_iff_active {s : Settings} (hall : s.network.all = false)
    {steps : List (Step Provider Unit Info)}
    (hsteps : ∀ step ∈ steps, KindName.Proper s .network step) {history : List Event}
    {e : Enumeration Unit Info}
    (hrun : (KindName.network.empty.run steps).value = .ok (history, e))
    (hp : e.phase = .initialized) {edits : List Tree.Edit}
    (hdirectory : ((Tree.run {} edits).list (s.paths.sys / ⟨"class/net"⟩)).isOk = true) :
    let host := (Tree.run {} edits).provider
    ∃ listing r count e',
      ((KindName.network.kind s).discover host e.cache).value = .ok (listing, ()) ∧
      (e.update (KindName.network.kind s) host true).value = .ok (.ok ⟨r, some count⟩, e') ∧
      (∀ id ∈ listing, id ∈ e'.ids) ∧
      ∀ id i, e'.find? id = some i → i.failure = none →
        (id ∈ listing → i.data.up = true ∧ i.data.running = true) ∧
        (Ordinary steps id →
          (id ∈ listing ↔ i.data.up = true ∧ i.data.running = true)) := by
  intro host
  have hclosed : (Tree.run {} edits).Closed := Tree.Closed.empty.run edits
  have hreachable : KindName.Reachable s .network e := ⟨steps, history, hsteps, hrun⟩
  obtain ⟨listing, hd⟩ : ∃ listing,
      ((KindName.network.kind s).discover host e.cache).value = .ok (listing, ()) := by
    cases hlist : (Tree.run {} edits).list (s.paths.sys / ⟨"class/net"⟩) with
    | ok paths => exact ⟨_, discover_eq_ok.2 ⟨paths, hlist, rfl⟩⟩
    | error cause =>
      rw [hlist] at hdirectory
      cases hdirectory
  have hregular : (KindName.network.kind s).Regular := kind_regular _ _ _ _
  have hv := update_with_refresh hp hd (hregular.truthful host e.cache _ _ hd)
    fun i _ => hregular.faultless host () i
  refine ⟨listing, _, _, _, hd, hv, fun id hid => ?_, fun id i hi hfailure => ?_⟩
  · rw [refreshed_ids]
    exact mem_ids_reconciled hid ((KindName.network.reliable s).builds hd id hid)
  · have hactive : (kind s.paths.proc s.paths.sys false s.network.removal).discover host () =
        (KindName.network.kind s).discover host e.cache := hall ▸ rfl
    obtain ⟨last, hname, hlook⟩ := look_of_update hreachable hv hi hfailure
    obtain rfl : ⟨last.name⟩ = id := congrArg Identity.mk hname
    have hfound : ⟨last.name⟩ ∈ listing → i.data.up = true ∧ i.data.running = true :=
      fun hin => active_of_mem_listing (hactive ▸ hd) hin hlook
    refine ⟨hfound, fun hordinary => ⟨hfound, ?_⟩⟩
    have hid : ⟨last.name⟩ ∈ Enumeration.ids _ :=
      find?_isSome.1 (Option.isSome_iff_exists.2 ⟨i, hi⟩)
    have hplain : Path.Plain last.name := plain_of_update hsteps hrun hv hordinary hid
    exact mem_listing_of_active hclosed (hactive ▸ hd) hplain hlook

/-- An interface has gone down and is kept. -/
theorem listed_iff_active_retained :
    let s : Settings :=
      { paths := { proc := ⟨""⟩, sys := ⟨""⟩ }, network := { removal := .retain } }
    let k := KindName.network
    let before : List Tree.Edit := [.addFile ⟨"class/net/eth0/flags"⟩ "0x1003\n",
      .addFile ⟨"class/net/eth0/operstate"⟩ "up\n"]
    let edits := before ++ [.addFile ⟨"class/net/eth0/./operstate"⟩ "down\n",
      .addFile ⟨"net/dev"⟩ "eth0: 2 2 0 0 0 0 0 0 2 2 0 0 0 0 0 0\n"]
    let steps : List (Step Provider Unit Info) := [⟨k.kind s, .init⟩,
      ⟨k.kind s, .update (Tree.run {} before).provider false⟩]
    let host := (Tree.run {} edits).provider
    ∃ history e listing r count e' i, (k.empty.run steps).value = .ok (history, e) ∧
      ((k.kind s).discover host e.cache).value = .ok (listing, ()) ∧
      (e.update (k.kind s) host true).value = .ok (.ok ⟨r, some count⟩, e') ∧
      e'.find? ⟨"eth0"⟩ = some i ∧ i.failure = none ∧ i.data.up = true ∧
      ⟨"eth0"⟩ ∉ listing ∧ ¬(i.data.up = true ∧ i.data.running = true) := by
  intro s k before edits steps host
  have hread : ((k.empty.run steps).value.toOption.bind fun x =>
      (x.2.update (k.kind s) host true).value.toOption.map fun y =>
        (x.2.phase, (y.2.find? ⟨"eth0"⟩).map fun i => (i.failure, i.data.up, i.data.running))) =
      some (.initialized, some (none, true, false)) := by
    decide +kernel
  have hdirectory : ((Tree.run {} edits).list (s.paths.sys / ⟨"class/net"⟩)).isOk = true := by
    decide +kernel
  obtain ⟨⟨history, e⟩, hrun, hread⟩ := Option.bind_eq_some_iff.1 hread
  obtain ⟨⟨found, e'⟩, hupdate, hread⟩ := Option.map_eq_some_iff.1 hread
  rw [Outcome.toOption_eq_some] at hrun hupdate
  obtain ⟨hp, hfound⟩ := Prod.mk.inj hread
  obtain ⟨i, hi, hdata⟩ := Option.map_eq_some_iff.1 hfound
  simp only [Prod.mk.injEq] at hdata
  obtain ⟨hfailure, hup, hrunning⟩ := hdata
  have hsteps : ∀ step ∈ steps, KindName.Proper s k step := by
    simp only [steps, List.forall_mem_cons]
    exact ⟨.of_brought .init rfl, .of_brought _ rfl, List.forall_mem_nil _⟩
  obtain ⟨listing, r, count, e'', hd, hv, -, hiff⟩ :=
    listed_iff_active rfl hsteps hrun hp hdirectory
  obtain ⟨-, rfl⟩ := Prod.mk.inj (Except.ok.inj (hupdate.symm.trans hv))
  have hdown : ¬(i.data.up = true ∧ i.data.running = true) := by simp [hrunning]
  have hordinary : Ordinary steps ⟨"eth0"⟩ := fun _ _ _ _ _ => by decide
  exact ⟨history, e, listing, r, count, e', i, hrun, hd, hv, hi, hfailure, hup,
    fun hin => hdown (((hiff _ i hi hfailure).2 hordinary).1 hin), hdown⟩

/-- Neither proviso can be left out. The directory of interfaces itself can pass for one that a
caller brings as `.`; it is up and running then, and is never listed. And an interface that is
listed as active may have no counters; the look at it fails, and leaves it as it was built. -/
theorem active_unlisted_and_listed_inactive :
    let s : Settings :=
      { paths := { proc := ⟨""⟩, sys := ⟨""⟩ }, network := { removal := .retain } }
    let k := KindName.network.kind s
    let dot : Step Provider Unit Info := ⟨k, .add (Instance.fresh ⟨"."⟩ { name := "." })⟩
    let bare : List Tree.Edit := [.addFile ⟨"class/net/flags"⟩ "0x1",
      .addFile ⟨"class/net/operstate"⟩ "up",
      .addFile ⟨"net/dev"⟩ ".: 1 1 0 0 0 0 0 0 1 1 0 0 0 0 0 0"]
    let uncounted : List Tree.Edit := [.addFile ⟨"class/net/eth0/flags"⟩ "0x1",
      .addFile ⟨"class/net/eth0/operstate"⟩ "up", .addFile ⟨"net/dev"⟩ ""]
    let listed (edits : List Tree.Edit) :=
      (k.discover (Tree.run {} edits).provider ()).value.toOption.map Prod.fst
    let updated (steps : List (Step Provider Unit Info)) (edits : List Tree.Edit) :=
      (KindName.network.empty.run steps).value.toOption.bind fun x =>
        (x.2.update k (Tree.run {} edits).provider true).value.toOption.map fun y =>
          y.2.held.map fun entry =>
            (entry.1.text, entry.2.failure, entry.2.data.up, entry.2.data.running)
    s.network.all = false ∧
      KindName.Proper s .network ⟨k, .init⟩ ∧ KindName.Proper s .network dot ∧
      listed bare = some [] ∧
      updated [⟨k, .init⟩, dot] bare = some [(".", none, true, true)] ∧
      listed uncounted = some [⟨"eth0"⟩] ∧
      updated [⟨k, .init⟩] uncounted =
        some [("eth0", some "interface eth0 in net/dev disappeared", false, false)] := by
  intro s k dot bare uncounted listed updated
  refine ⟨rfl, .of_brought .init rfl, ⟨rfl, fun i hi => ?_⟩, ?_⟩
  · cases hi
    rfl
  · refine ⟨?_, ?_, ?_, ?_⟩ <;> decide +kernel

end HostInventory.Network
