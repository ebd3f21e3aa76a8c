import HostInventory.Proofs.Enumeration.Operation
import HostInventory.Proofs.Inventory.Update

/-! Requests to an inventory.

An inventory is set up, updated and cleaned up as a whole. Each such request is the same request
to each of its enumerations (`Inventory.serve_part`), and it returns when it does for each of
them (`Inventory.serve_returns`). The account of the listings goes with them, one entry for each
kind with a failure (`Inventory.failedKinds_eq`). -/
namespace HostInventory

open Enumeration FileTree

/-- What is asked of an inventory, or of an enumeration that stands alone. -/
inductive Request
  | init
  | update (refresh : Bool)
  | cleanup
deriving DecidableEq, Repr

namespace KindName

/-- What a request makes of an enumeration that stands alone, and the report of the update that
belongs to the request. -/
def answer (s : Settings) (k : KindName) (host : Provider) (e : Enumeration k.Cache k.Data) :
    Request → Outcome (Option (Except Failure UpdateReport) × Enumeration k.Cache k.Data)
  | .init => do
    let e ← e.init (k.kind s)
    let (r, e) ← e.update (k.kind s) host true
    return (some r, e)
  | .update refresh => do
    let (r, e) ← e.update (k.kind s) host refresh
    return (some r, e)
  | .cleanup => do
    let e ← e.cleanup (k.kind s)
    return (none, e)

def serve (s : Settings) (k : KindName) (host : Provider) (e : Enumeration k.Cache k.Data)
    (q : Request) : Outcome (Enumeration k.Cache k.Data) := do
  let (_, e) ← k.answer s host e q
  return e

end KindName

namespace Inventory

def serve (s : Settings) (host : Provider) (inv : Inventory) : Request → Outcome Inventory
  | .init => inv.init s host
  | .update refresh => inv.update s host refresh
  | .cleanup => inv.cleanup s

/-! ### The part of a kind -/

/-- An operation on the enumeration of one kind. -/
def onKind (op : (k : KindName) → Enumeration k.Cache k.Data → Outcome (Enumeration k.Cache k.Data))
    (k : KindName) (inv : Inventory) : Outcome Inventory := do
  let e ← op k (inv.get k)
  return inv.set k e

section OnKind
variable {op : (k : KindName) → Enumeration k.Cache k.Data → Outcome (Enumeration k.Cache k.Data)}
  {k : KindName} {inv inv' : Inventory}

/-- The account of the listings is left alone. -/
def TurnedBy (op : (k : KindName) → Enumeration k.Cache k.Data → Outcome (Enumeration k.Cache k.Data))
    (k : KindName) (x y : Enumeration k.Cache k.Data × Option Failure) : Prop :=
  (op k x.1).value = .ok y.1 ∧ y.2 = x.2

theorem onKind_turns (hv : (onKind op k inv).value = .ok inv') :
    Turns (TurnedBy op) [k] inv inv' := by
  obtain ⟨e, he, hv⟩ := Outcome.value_bind_eq_ok.1 hv
  cases hv
  refine ⟨?_, fun k' hk' => ?_⟩
  · intro k' hk'
    obtain rfl := List.mem_singleton.1 hk'
    refine ⟨?_, failure?_set inv k' e k'⟩
    show (op k' (inv.get k')).value = .ok ((inv.set k' e).get k')
    rw [get_set_self]
    exact he
  · rw [part, get_set_of_ne inv (by simpa using hk'), failure?_set]
    rfl

theorem onKinds_part {ks : List KindName} (hnd : ks.Nodup)
    (hv : (forKinds (onKind op) ks inv).value = .ok inv') (hk : k ∈ ks) :
    TurnedBy op k (inv.part k) (inv'.part k) :=
  (forKinds_turns (fun _ _ _ => onKind_turns) hnd hv).1 k hk

theorem onKinds_return {ks : List KindName} (hnd : ks.Nodup)
    (h : ∀ k ∈ ks, ∃ e, (op k (inv.get k)).value = .ok e) :
    ∃ inv', (forKinds (onKind op) ks inv).value = .ok inv' := by
  refine forKinds_returns (fun _ _ _ => onKind_turns) hnd fun k hk m hm => ?_
  obtain ⟨e, he⟩ := h k hk
  rw [← get_eq_of_part hm] at he
  exact ⟨m.set k e, Outcome.value_bind_of_ok he _⟩

end OnKind

/-! ### One request -/

/-- The account after a report, if there is one. -/
def account (before : Option Failure) : Option (Except Failure UpdateReport) → Option Failure
  | none => before
  | some r => failureOf r

/-- The part of a kind is turned by the answer of its own enumeration to a request. -/
def AnsweredBy (s : Settings) (host : Provider) (q : Request) (k : KindName)
    (x y : Enumeration k.Cache k.Data × Option Failure) : Prop :=
  ∃ r, (k.answer s host x.1 q).value = .ok (r, y.1) ∧ y.2 = account x.2 r

section Serve
variable {s : Settings} {host : Provider} {inv inv' : Inventory}

theorem initKind_eq (s : Settings) : initKind s = onKind fun k e => e.init (k.kind s) := rfl

theorem cleanupKind_eq (s : Settings) : cleanupKind s = onKind fun k e => e.cleanup (k.kind s) :=
  rfl

theorem initKinds_part (hv : (forKinds (initKind s) KindName.all inv).value = .ok inv')
    (k : KindName) :
    TurnedBy (fun k e => e.init (k.kind s)) k (inv.part k) (inv'.part k) :=
  onKinds_part KindName.nodup_all (initKind_eq s ▸ hv) k.mem_all

theorem cleanup_part (hv : (inv.cleanup s).value = .ok inv') (k : KindName) :
    TurnedBy (fun k e => e.cleanup (k.kind s)) k (inv.part k) (inv'.part k) := by
  rw [cleanup, cleanupKind_eq] at hv
  exact onKinds_part (List.nodup_reverse.2 KindName.nodup_all) hv (List.mem_reverse.2 k.mem_all)

/-- A request to the inventory is a request to each of its enumerations. -/
theorem serve_part {q : Request} (hv : (inv.serve s host q).value = .ok inv') (k : KindName) :
    AnsweredBy s host q k (inv.part k) (inv'.part k) := by
  cases q with
  | init =>
    obtain ⟨m, hm, hv⟩ := Outcome.value_bind_eq_ok.1 hv
    obtain ⟨m', hm', hv⟩ := Outcome.value_bind_eq_ok.1 hv
    cases hv
    obtain ⟨hinit, -⟩ := initKinds_part hm k
    obtain ⟨r, hr, hf⟩ := update_part hm' k
    refine ⟨some r, ?_, hf⟩
    rw [KindName.answer, Outcome.value_bind_of_ok hinit, Outcome.value_bind_of_ok hr]
    rfl
  | update refresh =>
    obtain ⟨r, hr, hf⟩ := update_part hv k
    refine ⟨some r, ?_, hf⟩
    rw [KindName.answer, Outcome.value_bind_of_ok hr]
    rfl
  | cleanup =>
    obtain ⟨hcleanup, hf⟩ := cleanup_part hv k
    refine ⟨none, ?_, hf⟩
    rw [KindName.answer, Outcome.value_bind_of_ok hcleanup]
    rfl

theorem serve_get {q : Request} (hv : (inv.serve s host q).value = .ok inv') (k : KindName) :
    (k.serve s host (inv.get k) q).value = .ok (inv'.get k) := by
  obtain ⟨r, hr, -⟩ := serve_part hv k
  exact Outcome.value_bind_of_ok hr _

/-- A request to the inventory returns when it does for each of its enumerations. -/
theorem serve_returns {q : Request}
    (h : ∀ k : KindName, ∃ x, (k.answer s host (inv.get k) q).value = .ok x) :
    ∃ inv', (inv.serve s host q).value = .ok inv' := by
  cases q with
  | init =>
    obtain ⟨m, hm⟩ : ∃ m, (forKinds (initKind s) KindName.all inv).value = .ok m := by
      rw [initKind_eq]
      refine onKinds_return KindName.nodup_all fun k _ => ?_
      obtain ⟨x, hx⟩ := h k
      obtain ⟨e, he, -⟩ := Outcome.value_bind_eq_ok.1 hx
      exact ⟨e, he⟩
    obtain ⟨m', hm'⟩ : ∃ m', (m.update s host true).value = .ok m' := by
      refine update_returns fun k => ?_
      obtain ⟨x, hx⟩ := h k
      obtain ⟨e, he, hx⟩ := Outcome.value_bind_eq_ok.1 hx
      obtain ⟨y, hy, -⟩ := Outcome.value_bind_eq_ok.1 hx
      obtain rfl : m.get k = e := Except.ok.inj ((initKinds_part hm k).1.symm.trans he)
      exact ⟨y, hy⟩
    exact ⟨m', by rw [serve, init, Outcome.value_bind_of_ok hm, Outcome.value_bind_of_ok hm']; rfl⟩
  | update refresh =>
    refine update_returns fun k => ?_
    obtain ⟨x, hx⟩ := h k
    obtain ⟨y, hy, -⟩ := Outcome.value_bind_eq_ok.1 hx
    exact ⟨y, hy⟩
  | cleanup =>
    show ∃ inv', (forKinds (cleanupKind s) KindName.all.reverse inv).value = .ok inv'
    rw [cleanupKind_eq]
    refine onKinds_return (List.nodup_reverse.2 KindName.nodup_all) fun k _ => ?_
    obtain ⟨x, hx⟩ := h k
    obtain ⟨e, he, -⟩ := Outcome.value_bind_eq_ok.1 hx
    exact ⟨e, he⟩

/-! ### What is kept -/

/-- No kind is accounted for twice. -/
def Accounted (inv : Inventory) : Prop :=
  (inv.failures.map Prod.fst).Nodup

theorem accounted_record (h : Accounted inv) (k : KindName) (r : Except Failure UpdateReport) :
    Accounted (inv.record k r) := by
  have hrest : ((inv.failures.filter fun entry => entry.1 ≠ k).map Prod.fst).Nodup :=
    h.sublist (List.filter_sublist.map _)
  cases r with
  | ok _ => exact hrest
  | error f =>
    refine List.nodup_cons.2 ⟨fun hk => ?_, hrest⟩
    obtain ⟨entry, hentry, rfl⟩ := List.mem_map.1 hk
    simpa using (List.mem_filter.1 hentry).2

theorem accounted_set (k : KindName) (e : Enumeration k.Cache k.Data) :
    Accounted (inv.set k e) ↔ Accounted inv := by
  cases k <;> exact Iff.rfl

theorem accounted_onKind
    {op : (k : KindName) → Enumeration k.Cache k.Data → Outcome (Enumeration k.Cache k.Data)}
    {k : KindName} (h : Accounted inv) (hv : (onKind op k inv).value = .ok inv') :
    Accounted inv' := by
  obtain ⟨e, -, hv⟩ := Outcome.value_bind_eq_ok.1 hv
  cases hv
  exact (accounted_set k e).2 h

theorem accounted_update {refresh : Bool} (h : Accounted inv)
    (hv : (inv.update s host refresh).value = .ok inv') : Accounted inv' := by
  obtain ⟨m, hm, hv⟩ := Outcome.value_bind_eq_ok.1 hv
  cases hv
  have hkind : ∀ k m m', Accounted m → (updateKind s host refresh k m).value = .ok m' →
      Accounted m' := by
    intro k m m' h hv
    obtain ⟨x, hx, -⟩ := Outcome.value_bind_eq_ok.1 hv
    rw [updateKind_value hx] at hv
    cases hv
    exact accounted_record ((accounted_set k x.2).2 h) k x.1
  have hm' : Accounted m := forKinds_keeps hkind h hm
  exact hm'

theorem accounted_serve {q : Request} (h : Accounted inv)
    (hv : (inv.serve s host q).value = .ok inv') : Accounted inv' := by
  cases q with
  | init =>
    obtain ⟨m, hm, hv⟩ := Outcome.value_bind_eq_ok.1 hv
    obtain ⟨m', hm', hv⟩ := Outcome.value_bind_eq_ok.1 hv
    cases hv
    rw [initKind_eq] at hm
    exact accounted_update (forKinds_keeps (fun _ _ _ => accounted_onKind) h hm) hm'
  | update refresh => exact accounted_update h hv
  | cleanup =>
    rw [serve, cleanup, cleanupKind_eq] at hv
    exact forKinds_keeps (fun _ _ _ => accounted_onKind) h hv

/-- The account has as many entries as there are kinds with a failure. -/
theorem failedKinds_eq (h : Accounted inv) :
    inv.failedKinds = KindName.all.countP fun k => (inv.failure? k).isSome := by
  have hmem : ∀ k, k ∈ inv.failures.map Prod.fst ↔
      k ∈ KindName.all.filter fun k => (inv.failure? k).isSome := by
    intro k
    rw [List.mem_filter, failure?, List.lookup_isSome_iff, List.mem_map]
    constructor
    · rintro ⟨entry, hm, rfl⟩
      exact ⟨entry.1.mem_all, entry, hm, beq_self_eq_true _⟩
    · rintro ⟨-, entry, hm, hk⟩
      exact ⟨entry, hm, (eq_of_beq hk).symm⟩
  have hperm := (List.perm_ext_iff_of_nodup h (KindName.nodup_all.filter _)).2 hmem
  rw [List.countP_eq_length_filter, ← hperm.length_eq, List.length_map]
  rfl

end Serve

end Inventory
end HostInventory
