import HostInventory.FileTree.Tree
import HostInventory.Proofs.Inventory.Overflow
import HostInventory.Proofs.Inventory.Product
import HostInventory.Proofs.Kind.Repeat

/-! Updates of an unchanged host.

To update an inventory again is to update each of its enumerations again (`update_twice`): those
that could be listed settle, the others stay as they were, and the account of the listings is the
same. So from the second update on a snapshot stays as it is, and between the first and the second
only processors lose their usage (`update_idempotent`). -/
namespace HostInventory

open Enumeration FileTree

/-! ### Reports -/

/-- The report on an instance that is looked at again on an unchanged host. -/
def InstanceReport.settled (k : KindName) (r : InstanceReport k.Data) : InstanceReport k.Data :=
  if r.failure = none then { r with data := k.withoutUsage r.data } else r

/-- The report on a kind that is updated again on an unchanged host: nothing is looked at where the
listing has failed. -/
def KindReport.settled (k : KindName) (r : KindReport k.Data) : KindReport k.Data :=
  if r.error.isSome then r
  else { r with
    total := r.total.map (InstanceReport.settled k)
    instances := r.instances.map (InstanceReport.settled k) }

theorem InstanceReport.of_settled (k : KindName) (i : Instance k.Data) :
    InstanceReport.of (i.settled k.withoutUsage) = (InstanceReport.of i).settled k := by
  by_cases hf : i.failure = none <;>
    simp only [Instance.settled, InstanceReport.settled, InstanceReport.of, hf, if_true, if_false]

/-- Only of processors does a report say what depends on the looks before. -/
theorem KindReport.settled_of_ne {k : KindName} (hk : k ≠ .cpu) (r : KindReport k.Data) :
    r.settled k = r := by
  have hsame : InstanceReport.settled k = id := by
    funext i
    rw [InstanceReport.settled, KindName.withoutUsage_of_ne hk, ite_self, id]
  simp only [settled, hsame, Option.map_id, List.map_id, id, ite_self]

namespace Inventory

variable {s : Settings} {host : Provider} {inv inv₁ : Inventory}

/-- The enumeration of a kind is turned by an update of its own that adds nothing, takes nothing
out and skips nothing. -/
def QuietlyUpdated (s : Settings) (host : Provider) (k : KindName)
    (e e' : Enumeration k.Cache k.Data) : Prop :=
  ∃ r, (e.update (k.kind s) host true).value = .ok (r, e') ∧
    ∀ report, r = .ok report → report.reconciliation.Quiet

/-- What a second update makes of the enumeration of a kind. -/
def settledPart (inv : Inventory) (k : KindName) : Enumeration k.Cache k.Data :=
  if (inv.failure? k).isSome then inv.get k
  else (inv.get k).map (Instance.settled k.withoutUsage)

/-- What a second update makes of an inventory. -/
structure Settles (s : Settings) (host : Provider) (inv inv' : Inventory) : Prop where
  quiet : ∀ k, QuietlyUpdated s host k (inv.get k) (inv'.get k)
  failure : ∀ k, inv'.failure? k = inv.failure? k
  get_eq : ∀ k, inv'.get k = inv.settledPart k

/-- A second update of an unchanged host returns, and settles the enumerations. -/
theorem update_twice (hv : (inv.update s host true).value = .ok inv₁) :
    ∃ inv₂, (inv₁.update s host true).value = .ok inv₂ ∧ Settles s host inv₁ inv₂ := by
  have hkind : ∀ k, ∃ r, ((inv₁.get k).update (k.kind s) host true).value =
      .ok (r, inv₁.settledPart k) ∧ failureOf r = inv₁.failure? k ∧
        ∀ report, r = .ok report → report.reconciliation.Quiet := by
    intro k
    obtain ⟨r, hr, hf⟩ := update_part hv k
    have hfailure : inv₁.failure? k = failureOf r := hf
    rw [settledPart, hfailure]
    obtain ⟨f, rfl, hagain⟩ | ⟨report, report', rfl, hagain, hquiet⟩ := KindName.update_again hr
    · exact ⟨.error f, hagain, rfl, nofun⟩
    · refine ⟨.ok report', hagain, rfl, fun other hother => ?_⟩
      cases hother
      exact hquiet
  choose r hr hf hquiet using hkind
  obtain ⟨inv₂, hv₂⟩ := update_returns fun k => ⟨_, hr k⟩
  have hpart : ∀ k, inv₂.get k = inv₁.settledPart k ∧ inv₂.failure? k = failureOf (r k) := by
    intro k
    obtain ⟨r₂, hr₂, hf₂⟩ := update_part hv₂ k
    have hsame : (r k, inv₁.settledPart k) = (r₂, inv₂.get k) :=
      Except.ok.inj ((hr k).symm.trans hr₂)
    obtain ⟨rfl, hget⟩ := Prod.mk.inj hsame
    exact ⟨hget.symm, hf₂⟩
  refine ⟨inv₂, hv₂, fun k => ⟨r k, ?_, hquiet k⟩, fun k => (hpart k).2.trans (hf k),
    fun k => (hpart k).1⟩
  rw [(hpart k).1]
  exact hr k

namespace Settles

variable {inv₂ inv₃ : Inventory}

theorem report_eq (h : Settles s host inv₁ inv₂) (k : KindName) :
    inv₂.report k = (inv₁.report k).settled k := by
  rw [report, report, h.get_eq, h.failure, settledPart, KindReport.settled, Option.isSome_map]
  split
  · rfl
  · simp only [total_map, held_map, Option.map_map, List.map_map, Function.comp_def,
      InstanceReport.of_settled]

/-- What has settled settles no further. -/
theorem get_eq_get (h : Settles s host inv₁ inv₂) (h' : Settles s host inv₂ inv₃) (k : KindName) :
    inv₃.get k = inv₂.get k := by
  rw [h'.get_eq, settledPart, h.failure, h.get_eq, settledPart]
  split
  · rfl
  · exact map_settled_settled k.withoutUsage_withoutUsage (inv₁.get k)

end Settles

theorem Reachable.accounted (h : Reachable s inv) : Accounted inv := by
  induction h with
  | @init host inv h =>
    have hserve : (({} : Inventory).serve s host .init).value = .ok inv := h
    have hempty : Accounted {} := List.nodup_nil
    exact accounted_serve hempty hserve
  | update _ hv ih => exact accounted_update ih hv

/-- The number of failed kinds goes by the account of the listings. -/
theorem failedKinds_congr {inv' : Inventory} (h : Accounted inv) (h' : Accounted inv')
    (hf : ∀ k, inv'.failure? k = inv.failure? k) : inv'.failedKinds = inv.failedKinds := by
  rw [failedKinds_eq h, failedKinds_eq h']
  simp only [hf]

/-- **Updating an unchanged host again changes nothing but the usage of processors.** Two more
updates return and are quiet, with as many failed kinds as before. The snapshot is as it was, except
that in the first of them the processors that are looked at with success lose their usage. -/
theorem update_idempotent (h : Reachable s inv) (hv : (inv.update s host true).value = .ok inv₁) :
    ∃ inv₂ inv₃, (inv₁.update s host true).value = .ok inv₂ ∧
      (inv₂.update s host true).value = .ok inv₃ ∧
      inv₂.failedKinds = inv₁.failedKinds ∧ inv₃.failedKinds = inv₁.failedKinds ∧
      (∀ k, QuietlyUpdated s host k (inv₁.get k) (inv₂.get k) ∧
        QuietlyUpdated s host k (inv₂.get k) (inv₃.get k)) ∧
      ∃ snap₁ snap₂ snap₃, inv₁.snapshot s = .ok snap₁ ∧ inv₂.snapshot s = .ok snap₂ ∧
        inv₃.snapshot s = .ok snap₃ ∧
        (∀ k, k ≠ .cpu → snap₂ k = snap₁ k) ∧ snap₂ .cpu = (snap₁ .cpu).settled .cpu ∧
        snap₃ = snap₂ := by
  obtain ⟨inv₂, hv₂, hsecond⟩ := update_twice hv
  obtain ⟨inv₃, hv₃, hthird⟩ := update_twice hv₂
  have h₁ : Reachable s inv₁ := h.update hv
  have h₂ : Reachable s inv₂ := h₁.update hv₂
  have h₃ : Reachable s inv₃ := h₂.update hv₃
  have hfixed : inv₃.report = inv₂.report := by
    funext k
    rw [report, report, hsecond.get_eq_get hthird, hthird.failure]
  refine ⟨inv₂, inv₃, hv₂, hv₃, failedKinds_congr h₁.accounted h₂.accounted hsecond.failure,
    failedKinds_congr h₁.accounted h₃.accounted fun k => (hthird.failure k).trans (hsecond.failure k),
    fun k => ⟨hsecond.quiet k, hthird.quiet k⟩, inv₁.report, inv₂.report, inv₃.report,
    snapshot_eq h₁.ready.initialized, snapshot_eq h₂.ready.initialized,
    snapshot_eq h₃.ready.initialized, fun k hk => ?_, hsecond.report_eq .cpu, hfixed⟩
  rw [hsecond.report_eq, KindReport.settled_of_ne hk]

/-- A processor has worked from the first look to the second; then nothing moves any more. -/
theorem update_idempotent_halted :
    let before := (Tree.addFile {} ⟨"/proc/stat"⟩ "cpu 1\ncpu0 1\n").provider
    let now := (Tree.addFile {} ⟨"/proc/stat"⟩ "cpu 3\ncpu0 3\n").provider
    ∃ inv inv₁ inv₂ inv₃ snap₁ snap₂ snap₃ i, (({} : Inventory).init {} before).value = .ok inv ∧
      (inv.update {} now true).value = .ok inv₁ ∧ (inv₁.update {} now true).value = .ok inv₂ ∧
      (inv₂.update {} now true).value = .ok inv₃ ∧ inv₃.failedKinds = inv₁.failedKinds ∧
      inv₁.snapshot {} = .ok snap₁ ∧ inv₂.snapshot {} = .ok snap₂ ∧ inv₃.snapshot {} = .ok snap₃ ∧
      (snap₁ .cpu).instances = [i] ∧ i.data.info.usage.isSome = true ∧
      (snap₂ .cpu).instances = [{ i with data := KindName.withoutUsage .cpu i.data }] ∧
      snap₃ = snap₂ := by
  intro before now
  have hread : ((({} : Inventory).init {} before).value.toOption.bind fun inv =>
      (inv.update {} now true).value.toOption.map fun inv₁ =>
        ((inv₁.failure? .cpu).isSome,
          (inv₁.report .cpu).instances.map fun i => (i.failure, i.data.info.usage.isSome))) =
      some (false, [(none, true)]) := by
    decide +kernel
  obtain ⟨inv, hinit, hread⟩ := Option.bind_eq_some_iff.1 hread
  obtain ⟨inv₁, hv, hread⟩ := Option.map_eq_some_iff.1 hread
  rw [Outcome.toOption_eq_some] at hinit hv
  obtain ⟨hlisted, hreported⟩ := Prod.mk.inj hread
  obtain ⟨i, hi, hfound⟩ := List.map_eq_singleton_iff.1 hreported
  obtain ⟨hfailure, husage⟩ := Prod.mk.inj hfound
  have h : Reachable {} inv := .init hinit
  obtain ⟨inv₂, inv₃, hv₂, hv₃, -, hfailed, -, snap₁, snap₂, snap₃, hs₁, hs₂, hs₃, -, hcpu, hlast⟩ :=
    update_idempotent h hv
  have hreport : snap₁ = inv₁.report :=
    Except.ok.inj (hs₁.symm.trans (snapshot_eq (h.update hv).ready.initialized))
  have herror : (snap₁ .cpu).error.isSome = false := by
    rw [hreport]
    exact Option.isSome_map.trans hlisted
  rw [← hreport] at hi
  refine ⟨inv, inv₁, inv₂, inv₃, snap₁, snap₂, snap₃, i, hinit, hv, hv₂, hv₃, hfailed, hs₁, hs₂, hs₃,
    hi, husage, ?_, hlast⟩
  rw [hcpu, KindReport.settled, herror]
  simp only [Bool.false_eq_true, if_false, hi, List.map_cons, List.map_nil,
    InstanceReport.settled, hfailure, if_true]

end Inventory
end HostInventory
