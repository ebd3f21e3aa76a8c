import HostInventory.FileTree.Tree
import HostInventory.Proofs.Enumeration.Run
import HostInventory.Proofs.Format.MemInfo
import HostInventory.Proofs.Kind.Memory

/-! What memory is available.

A memory table of today says what is available; where it does not, that is what is free, in
buffers or in the cache (`spare`). A refresh takes the table's word for it only if that is not
zero, so a host that says that nothing is available is taken for one that says nothing. Apart from
that, every figure after a refresh is what the table states, and the used ones are differences
that stop at zero (`available_of_update`). -/
namespace HostInventory.Memory

open Enumeration FileTree Format.MemInfo

/-- What is free or could be freed by a table. -/
def spare (text : String) : Nat :=
  (stated .free text).getD 0 + (stated .buffers text).getD 0 + (stated .cached text).getD 0

/-- The instance shows the figures of a table, and what is used and available by them. -/
structure Shows (text : String) (info : Info) : Prop where
  total : info.total = (stated .total text).getD 0
  free : info.free = (stated .free text).getD 0
  buffers : info.buffers = (stated .buffers text).getD 0
  cached : info.cached = (stated .cached text).getD 0
  swapTotal : info.swapTotal = (stated .swapTotal text).getD 0
  swapFree : info.swapFree = (stated .swapFree text).getD 0
  /-- What the table says is available, if it says that something is. -/
  available : ∀ n, stated .available text = some n → n ≠ 0 → info.available = n
  /-- What is spare, if the table says that nothing is available, or does not say. -/
  unavailable : (∀ n, stated .available text = some n → n = 0) → info.available = spare text
  used : info.used = info.total - info.available
  swapUsed : info.swapUsed = info.swapTotal - info.swapFree

section Look
variable {text : String} {table : Path} {host : Provider}

/-- The sum is formed where the table's own figure is zero. -/
theorem available?_eq_some {m : Format.MemInfo} {n : Nat} (h : available? m = some n) :
    n = if m.available = 0 then m.free + m.buffers + m.cached else m.available := by
  unfold available? addBelow64? at h
  by_cases ha : m.available > 0
  · rw [if_pos ha] at h
    rw [if_neg (Nat.ne_of_gt ha), Option.some.inj h]
  · rw [if_neg ha] at h
    obtain ⟨sum, hsum, h⟩ := Option.bind_eq_some_iff.1 h
    obtain ⟨-, hsum⟩ := Option.ite_none_right_eq_some.1 hsum
    obtain ⟨-, hn⟩ := Option.ite_none_right_eq_some.1 h
    rw [if_pos (Nat.eq_zero_of_not_pos ha), Option.some.inj hsum, Option.some.inj hn]

theorem spare_eq (text : String) : spare text = (Format.MemInfo.read text).free +
    (Format.MemInfo.read text).buffers + (Format.MemInfo.read text).cached := by
  rw [spare, ← get_read, ← get_read, ← get_read]
  rfl

/-- The figures are shown as they are stated. -/
theorem shows_ofTable {n : Nat} (h : available? (Format.MemInfo.read text) = some n) :
    Shows text (Info.ofTable (Format.MemInfo.read text) n) where
  total := get_read .total text
  free := get_read .free text
  buffers := get_read .buffers text
  cached := get_read .cached text
  swapTotal := get_read .swapTotal text
  swapFree := get_read .swapFree text
  available := fun a ha hne => by
    have hfigure : (Format.MemInfo.read text).available = a := by
      rw [← Option.getD_some (a := a) (b := 0), ← ha]
      exact get_read .available text
    rw [← hfigure] at hne ⊢
    exact (available?_eq_some h).trans (if_neg hne)
  unavailable := fun hzero => by
    have hfigure : (Format.MemInfo.read text).available = 0 := by
      refine (get_read .available text).trans ?_
      cases hstated : stated .available text with
      | none => rfl
      | some a => exact hzero a hstated
    rw [spare_eq]
    exact (available?_eq_some h).trans (if_pos hfigure)
  used := rfl
  swapUsed := rfl

/-- So the table is believed unless it says that nothing is available and something is spare. -/
theorem Shows.believed_iff {info : Info} (h : Shows text info) :
    info.available = (stated .available text).getD (spare text) ↔
      (stated .available text = some 0 → spare text = 0) := by
  cases hstated : stated .available text with
  | none =>
    have hspare := h.unavailable fun n hn => nomatch hstated.symm.trans hn
    exact iff_of_true hspare nofun
  | some a =>
    rw [Option.getD_some, Option.some_inj]
    by_cases ha : a = 0
    · subst ha
      have hspare := h.unavailable fun n hn => Option.some.inj (hn.symm.trans hstated)
      rw [hspare]
      exact ⟨fun h _ => h, fun h => h rfl⟩
    · exact iff_of_true (h.available a hstated ha) fun hzero => absurd hzero ha

/-- A look at a table that has a total ends in a fault or shows the table. -/
theorem shows_of_look (hread : host.read table = .ok text)
    (htotal : (Format.MemInfo.read text).hasTotal = true) {last : Info}
    {r : Except (Failure × Info) Info} (hlook : (look table host last).value = .ok r) :
    ∃ info, r = .ok info ∧ Shows text info := by
  unfold look at hlook
  simp only [hread, htotal, Bool.not_true, Bool.false_eq_true, if_false] at hlook
  cases ha : available? (Format.MemInfo.read text) with
  | none =>
    rw [ha] at hlook
    cases hlook
  | some n =>
    rw [ha] at hlook
    exact ⟨_, (Except.ok.inj hlook).symm, shows_ofTable ha⟩

/-- The sum is not needed, or it fits. -/
theorem not_overflows (hread : host.read table = .ok text)
    (h : (∃ n, stated .available text = some n ∧ n ≠ 0) ∨ spare text < Text.wordBound64) :
    ¬Overflows table host := by
  rintro ⟨text', hread', -, hzero, hsum⟩
  obtain rfl := Except.ok.inj (hread.symm.trans hread')
  rcases h with ⟨n, hn, hne⟩ | hspare
  · have hfigure := get_read .available text
    rw [hn] at hfigure
    exact hne (hfigure.symm.trans hzero)
  · rw [spare_eq] at hspare
    exact absurd hspare (Nat.not_lt.2 hsum)

end Look

/-- **Memory shows what the table states**, each figure being the number on the last line with
its label. What is available is what the table says, unless it says nothing or zero; then it is what
is spare. So the table is believed exactly if it does not say zero with something to spare. -/
theorem available_of_update {proc : Path} {e : Enumeration Unit Info}
    (hp : e.phase = .initialized) {host : Provider} {text : String}
    (hread : host.read (proc / ⟨"meminfo"⟩) = .ok text)
    (htotal : ∃ line ∈ Text.lines text.toList, Label.total.starts line = true) :
    ((∃ n, stated .available text = some n ∧ n ≠ 0) ∨ spare text < Text.wordBound64 →
      ∃ r e', (e.update (kind proc) host true).value = .ok (.ok r, e')) ∧
    ∀ r e', (e.update (kind proc) host true).value = .ok (.ok r, e') →
      e'.total.isSome = e.total.isSome ∧
      ∀ i ∈ e'.instances, i.failure = none ∧ Shows text i.data ∧
        (i.data.available = (stated .available text).getD (spare text) ↔
          (stated .available text = some 0 → spare text = 0)) := by
  refine ⟨fun h => update_reports hp (not_overflows hread h), fun r e' hv => ?_⟩
  refine ⟨(update_keeps hv).2, fun i hi => ?_⟩
  obtain ⟨-, listing, cache, -, -, hfaultless, rfl⟩ := refreshed_of_update_ok hv
  obtain ⟨j, hj, rfl⟩ := mem_instances_refreshed hi
  obtain ⟨found, hlook⟩ := hfaultless j hj
  obtain ⟨info, rfl, hshows⟩ := shows_of_look hread ((hasTotal_read text).2 htotal) hlook
  rw [lookedAt_of_ok hlook]
  exact ⟨rfl, hshows, hshows.believed_iff⟩

/-- A host whose memory table is the text. -/
def hostWith (text : String) : Provider :=
  (Tree.addFile {} ⟨"/proc/meminfo"⟩ text).provider

/-- The table has two lines for what is available, and no line for the swap space in total. -/
theorem available_of_update_repeated :
    let k := kind ⟨"/proc"⟩
    let text := "MemTotal: 1000 kB\nMemAvailable: 1 kB\nMemAvailable: 600 kB\nSwapFree: 5 kB\n"
    ∃ history e r e' i, (run { cache := () } [⟨k, .init⟩]).value = .ok (history, e) ∧
      (e.update k (hostWith text) true).value = .ok (.ok r, e') ∧ e'.total = some i ∧
      i.failure = none ∧ i.data.available = 600 ∧ i.data.used = 400 ∧ i.data.swapUsed = 0 := by
  intro k text
  have hread : (run { cache := () } [⟨k, .init⟩]).value.toOption.map (fun x =>
      (x.2.phase, x.2.total.isSome)) = some (.initialized, true) := by decide +kernel
  have hstated : Label.all.map (stated · text) =
      [some 1000, none, some 600, none, none, none, some 5] := by decide +kernel
  simp only [Label.all, List.map_cons, List.map_nil, List.cons.injEq, and_true] at hstated
  obtain ⟨htotal, -, havailable, -, -, hswapTotal, -⟩ := hstated
  obtain ⟨⟨history, e⟩, hrun, hread⟩ := Option.map_eq_some_iff.1 hread
  rw [Outcome.toOption_eq_some] at hrun
  obtain ⟨hp, hwhole⟩ := Prod.mk.inj hread
  have hfile : (hostWith text).read (⟨"/proc"⟩ / ⟨"meminfo"⟩) = .ok text := by decide +kernel
  obtain ⟨hreturns, hshows⟩ := available_of_update hp hfile (by decide +kernel)
  obtain ⟨r, e', hv⟩ := hreturns (.inl ⟨600, havailable, by decide⟩)
  obtain ⟨hkept, hshows⟩ := hshows r e' hv
  obtain ⟨i, hi⟩ := Option.isSome_iff_exists.1 (hkept.trans hwhole)
  obtain ⟨hfailure, hi', -⟩ := hshows i (List.mem_append_left _ (Option.mem_toList.2 hi))
  have hi600 : i.data.available = 600 := hi'.available 600 havailable (by decide)
  refine ⟨history, e, r, e', i, hrun, hv, hi, hfailure, hi600, ?_, ?_⟩
  · rw [hi'.used, hi'.total, htotal, hi600]
    rfl
  · rw [hi'.swapUsed, hi'.swapTotal, hswapTotal]
    exact Nat.zero_sub _

/-- A host says that nothing is available while something is free: that is shown instead. -/
theorem available_zero_replaced :
    let k := kind ⟨"/proc"⟩
    let text := "MemTotal: 100 kB\nMemFree: 10 kB\nMemAvailable: 0 kB\n"
    stated .available text = some 0 ∧
    ∃ history e r e' i, (run { cache := () } [⟨k, .init⟩]).value = .ok (history, e) ∧
      (e.update k (hostWith text) true).value = .ok (.ok r, e') ∧ e'.total = some i ∧
      i.failure = none ∧ i.data.available = 10 ∧ i.data.used = 90 := by
  intro k text
  have hread : ((run { cache := () } [⟨k, .init⟩]).value.toOption.bind fun x =>
      (x.2.update k (hostWith text) true).value.toOption.bind fun y => y.1.toOption.bind fun _ =>
        y.2.total.map fun i => (i.failure, i.data.available, i.data.used)) =
      some (none, 10, 90) := by decide +kernel
  obtain ⟨⟨history, e⟩, hrun, hread⟩ := Option.bind_eq_some_iff.1 hread
  obtain ⟨⟨found, e'⟩, hv, hread⟩ := Option.bind_eq_some_iff.1 hread
  obtain ⟨r, hr, hread⟩ := Option.bind_eq_some_iff.1 hread
  obtain ⟨i, hi, hfigures⟩ := Option.map_eq_some_iff.1 hread
  rw [Outcome.toOption_eq_some] at hrun hv
  simp only [Prod.mk.injEq] at hfigures
  cases found with
  | error f => cases hr
  | ok report =>
    exact ⟨by decide +kernel, history, e, report, e', i, hrun, hv, hi, hfigures⟩

end HostInventory.Memory
