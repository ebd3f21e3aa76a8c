import HostInventory.FileTree.Tree
import HostInventory.Inventory.Snapshot
import HostInventory.Proofs.Inventory.Request

/-! The inventory as a product.

Each of the seven enumerations goes its own way: beside the others it is what it would be alone,
for the same changes of the tree and the same requests (`KindName.serve`). What the others do
shows neither in it nor in the account of its listings, which holds a failure exactly when the
last update of that kind had one (`product_of_enumerations`). -/
namespace HostInventory

open Enumeration FileTree

/-- A change of the tree or a request. -/
inductive Action
  | edit (edit : Tree.Edit)
  | request (q : Request)
deriving DecidableEq, Repr

/-- Goes through a row of actions with what serves the requests. -/
def drive {σ : Type} (serve : Provider → σ → Request → Outcome σ) :
    Tree → σ → List Action → Outcome (Tree × σ)
  | t, x, [] => pure (t, x)
  | t, x, .edit edit :: rest => drive serve (t.apply edit) x rest
  | t, x, .request q :: rest => do
    let x ← serve t.provider x q
    drive serve t x rest

namespace Inventory

/-! ### Snapshots -/

/-- What a snapshot says of a kind: every instance under its identity, in order, and the failure
of the listing. -/
theorem report_eq {inv : Inventory} {k : KindName} (h : (inv.get k).WellFormed) :
    inv.report k = {
      total := (inv.get k).total.map fun i => ⟨none, i.failure, i.data⟩
      instances := (inv.get k).held.map fun entry => ⟨some entry.1, entry.2.failure, entry.2.data⟩
      error := (inv.failure? k).map Failure.message } := by
  have htotal : (inv.get k).total.map InstanceReport.of =
      (inv.get k).total.map fun i => ⟨none, i.failure, i.data⟩ := by
    apply Option.map_congr
    intro i hi
    rw [InstanceReport.of, h.whole i hi]
    rfl
  have hheld : ((inv.get k).held.map fun entry => InstanceReport.of entry.2) =
      (inv.get k).held.map fun entry => ⟨some entry.1, entry.2.failure, entry.2.data⟩ := by
    apply List.map_congr_left
    intro entry hm
    rw [InstanceReport.of, h.named entry hm]
    rfl
  rw [report, htotal, hheld]

theorem snapshot_eq {inv : Inventory} {s : Settings}
    (h : ∀ k, (inv.get k).phase = .initialized) : inv.snapshot s = .ok inv.report := by
  have hreq : ∀ k : KindName, (inv.get k).require (k.kind s) "get_total_instance" = .ok () :=
    fun k => require_eq_ok.2 (h k)
  simp only [snapshot, hreq]
  rfl

/-! ### Runs -/

section Runs
variable {s : Settings}

theorem wellFormed_answer {host : Provider} {k : KindName} {e e' : Enumeration k.Cache k.Data}
    (h : e.WellFormed) {q : Request} {r : Option (Except Failure UpdateReport)}
    (hv : (k.answer s host e q).value = .ok (r, e')) : e'.WellFormed := by
  cases q with
  | init =>
    obtain ⟨m, hm, hv⟩ := Outcome.value_bind_eq_ok.1 hv
    obtain ⟨x, hx, hv⟩ := Outcome.value_bind_eq_ok.1 hv
    cases hv
    exact (transition_update (transition_init h hm).wellFormed hx).wellFormed
  | update refresh =>
    obtain ⟨x, hx, hv⟩ := Outcome.value_bind_eq_ok.1 hv
    cases hv
    exact (transition_update h hx).wellFormed
  | cleanup =>
    obtain ⟨m, hm, hv⟩ := Outcome.value_bind_eq_ok.1 hv
    cases hv
    exact (transition_cleanup h hm).wellFormed

/-- After a request with an update the enumeration is in use, and the update has a report. -/
theorem initialized_answer {host : Provider} {k : KindName} {e e' : Enumeration k.Cache k.Data}
    {q : Request} (hq : q ≠ .cleanup) {r : Option (Except Failure UpdateReport)}
    (hv : (k.answer s host e q).value = .ok (r, e')) :
    e'.phase = .initialized ∧ ∃ report, r = some report := by
  have hupdate : ∀ {m : Enumeration k.Cache k.Data} {refresh : Bool}
      {x : Except Failure UpdateReport × Enumeration k.Cache k.Data},
      (m.update (k.kind s) host refresh).value = .ok x → x.2.phase = .initialized := by
    intro m refresh x hx
    obtain ⟨found, m', hm', -⟩ := Enumeration.update_cases hx
    exact (update_keeps hx).1.trans (updateEnumeration_cases hm').1
  cases q with
  | init =>
    obtain ⟨m, hm, hv⟩ := Outcome.value_bind_eq_ok.1 hv
    obtain ⟨x, hx, hv⟩ := Outcome.value_bind_eq_ok.1 hv
    cases hv
    exact ⟨hupdate hx, x.1, rfl⟩
  | update refresh =>
    obtain ⟨x, hx, hv⟩ := Outcome.value_bind_eq_ok.1 hv
    cases hv
    exact ⟨hupdate hx, x.1, rfl⟩
  | cleanup => exact absurd rfl hq

/-- A run of the inventory is a run of each of its enumerations. -/
theorem drive_part {t t' : Tree} {actions : List Action} {inv inv' : Inventory}
    (hv : (drive (serve s) t inv actions).value = .ok (t', inv')) (k : KindName) :
    (drive (k.serve s) t (inv.get k) actions).value = .ok (t', inv'.get k) := by
  induction actions generalizing t inv with
  | nil =>
    cases hv
    rfl
  | cons action rest ih =>
    cases action with
    | edit edit => exact ih hv
    | request q =>
      obtain ⟨m, hm, hv⟩ := Outcome.value_bind_eq_ok.1 hv
      rw [drive, Outcome.value_bind_of_ok (serve_get hm k)]
      exact ih hv

/-- It returns when each of those does. -/
theorem drive_returns {t : Tree} {actions : List Action} {inv : Inventory}
    (h : ∀ k : KindName, ∃ x, (drive (k.serve s) t (inv.get k) actions).value = .ok x) :
    ∃ x, (drive (serve s) t inv actions).value = .ok x := by
  induction actions generalizing t inv with
  | nil => exact ⟨_, rfl⟩
  | cons action rest ih =>
    cases action with
    | edit edit => exact ih h
    | request q =>
      obtain ⟨m, hm⟩ : ∃ m, (inv.serve s t.provider q).value = .ok m := by
        refine serve_returns fun k => ?_
        obtain ⟨x, hx⟩ := h k
        obtain ⟨e, he, -⟩ := Outcome.value_bind_eq_ok.1 hx
        obtain ⟨y, hy, -⟩ := Outcome.value_bind_eq_ok.1 he
        exact ⟨y, hy⟩
      rw [drive, Outcome.value_bind_of_ok hm]
      refine ih fun k => ?_
      obtain ⟨x, hx⟩ := h k
      obtain ⟨e, he, hx⟩ := Outcome.value_bind_eq_ok.1 hx
      obtain rfl : m.get k = e := Except.ok.inj ((serve_get hm k).symm.trans he)
      exact ⟨x, hx⟩

/-- What a run keeps. -/
theorem kept_of_drive {t t' : Tree} {actions : List Action} {inv inv' : Inventory}
    (hw : ∀ k, (inv.get k).WellFormed) (ha : Accounted inv)
    (hv : (drive (serve s) t inv actions).value = .ok (t', inv')) :
    (∀ k, (inv'.get k).WellFormed) ∧ Accounted inv' := by
  induction actions generalizing t inv with
  | nil =>
    cases hv
    exact ⟨hw, ha⟩
  | cons action rest ih =>
    cases action with
    | edit edit => exact ih hw ha hv
    | request q =>
      obtain ⟨m, hm, hv⟩ := Outcome.value_bind_eq_ok.1 hv
      refine ih (fun k => ?_) (accounted_serve ha hm) hv
      obtain ⟨r, hr, -⟩ := serve_part hm k
      exact wellFormed_answer (hw k) hr

end Runs

/-- **An inventory is the product of its enumerations.** It comes through any actions exactly
when each of the seven enumerations does alone, and then each is what it is alone. The account of a
request is that of the kinds' own reports, and the snapshot has them beside all that is held. -/
theorem product_of_enumerations (s : Settings) (t : Tree) (actions : List Action) :
    ((∃ x, (drive (serve s) t {} actions).value = .ok x) ↔
        ∀ k : KindName, ∃ x, (drive (k.serve s) t k.empty actions).value = .ok x) ∧
      ∀ t' inv, (drive (serve s) t {} actions).value = .ok (t', inv) →
        (∀ k : KindName, (drive (k.serve s) t k.empty actions).value = .ok (t', inv.get k)) ∧
        ∀ q inv', q ≠ .cleanup → (inv.serve s t'.provider q).value = .ok inv' →
          ∃ r : KindName → Except Failure UpdateReport,
            (∀ k : KindName,
              (k.answer s t'.provider (inv.get k) q).value = .ok (some (r k), inv'.get k)) ∧
            (∀ k f, inv'.failure? k = some f ↔ r k = .error f) ∧
            inv'.failedKinds = KindName.all.countP (fun k => (failureOf (r k)).isSome) ∧
            ∃ snap, inv'.snapshot s = .ok snap ∧ ∀ k, snap k = {
              total := (inv'.get k).total.map fun i => ⟨none, i.failure, i.data⟩
              instances := (inv'.get k).held.map fun entry =>
                ⟨some entry.1, entry.2.failure, entry.2.data⟩
              error := (failureOf (r k)).map Failure.message } := by
  have hempty : ∀ k : KindName, ({} : Inventory).get k = k.empty := fun k => by cases k <;> rfl
  have hnew : ∀ k, (({} : Inventory).get k).WellFormed := fun k => by cases k <;> exact .empty _
  refine ⟨⟨fun ⟨x, hx⟩ k => ⟨_, hempty k ▸ drive_part hx k⟩, fun h => ?_⟩, ?_⟩
  · exact drive_returns fun k => by
      rw [hempty k]
      exact h k
  · intro t' inv hv
    refine ⟨fun k => hempty k ▸ drive_part hv k, ?_⟩
    intro q inv' hq hserve
    obtain ⟨hw, ha⟩ := kept_of_drive hnew List.nodup_nil hv
    have hanswer : ∀ k : KindName, ∃ r, (k.answer s t'.provider (inv.get k) q).value =
        .ok (some r, inv'.get k) ∧ inv'.failure? k = failureOf r := by
      intro k
      obtain ⟨r, hr, hf⟩ := serve_part hserve k
      obtain ⟨-, report, rfl⟩ := initialized_answer hq hr
      exact ⟨report, hr, hf⟩
    choose r hr hf using hanswer
    have hfailure : ∀ k f, inv'.failure? k = some f ↔ r k = .error f := by
      intro k f
      rw [hf k]
      cases r k <;> simp [failureOf]
    have hsnap : inv'.snapshot s = .ok inv'.report :=
      snapshot_eq fun k => (initialized_answer hq (hr k)).1
    refine ⟨r, hr, hfailure, ?_, inv'.report, hsnap, fun k => ?_⟩
    · rw [failedKinds_eq (accounted_serve ha hserve)]
      simp only [hf]
    · rw [report_eq (wellFormed_answer (hw k) (hr k)), hf k]

/-- Nothing can be listed on an empty host; then the table of mounts comes, and with it a disk. -/
theorem product_of_enumerations_recovered :
    let actions := [Action.request .init,
      .edit (.addFile ⟨"/proc/mounts"⟩ "/dev/sda1 / ext4 rw 0 0\n")]
    ∃ t inv inv' r, (drive (serve {}) {} {} actions).value = .ok (t, inv) ∧
      (inv.failure? .disk).isSome = true ∧
      (drive (KindName.disk.serve {}) {} KindName.disk.empty actions).value = .ok (t, inv.disk) ∧
      (inv.serve {} t.provider (.update true)).value = .ok inv' ∧
      (KindName.disk.answer {} t.provider inv.disk (.update true)).value =
        .ok (some (.ok r), inv'.disk) ∧
      inv'.disk.ids = [⟨"/"⟩] ∧ inv'.failure? .disk = none ∧
      ∃ snap, inv'.snapshot {} = .ok snap ∧ (snap .disk).error = none := by
  intro actions
  have hread : ((drive (serve {}) {} {} actions).value.toOption.bind fun x =>
      (x.2.serve {} x.1.provider (.update true)).value.toOption.map fun inv' =>
        ((x.2.failure? .disk).isSome, inv'.disk.ids, inv'.failure? .disk)) =
          some (true, [⟨"/"⟩], none) := by
    decide +kernel
  cases hv : (drive (serve {}) {} {} actions).value with
  | error fault =>
    rw [hv] at hread
    cases hread
  | ok x =>
    obtain ⟨t, inv⟩ := x
    rw [hv] at hread
    cases hserve : (inv.serve {} t.provider (.update true)).value with
    | error fault =>
      simp [Except.toOption, hserve] at hread
    | ok inv' =>
      obtain ⟨hbefore, hids, hafter⟩ : (inv.failure? .disk).isSome = true ∧
          inv'.disk.ids = [⟨"/"⟩] ∧ inv'.failure? .disk = none := by
        simpa [Except.toOption, hserve] using hread
      obtain ⟨-, hproduct⟩ := product_of_enumerations {} {} actions
      obtain ⟨halone, hrequest⟩ := hproduct t inv hv
      obtain ⟨r, hanswer, hfailure, -, snap, hsnap, hreport⟩ :=
        hrequest (.update true) inv' (by decide) hserve
      cases hr : r .disk with
      | error f =>
        rw [(hfailure .disk f).2 hr] at hafter
        cases hafter
      | ok report =>
        have hdisk := hanswer .disk
        rw [hr] at hdisk
        refine ⟨t, inv, inv', report, rfl, hbefore, halone .disk, hserve, hdisk, hids, hafter,
          snap, hsnap, ?_⟩
        rw [hreport .disk, hr]
        rfl

end Inventory
end HostInventory
