import HostInventory.Inventory.Basic
import HostInventory.Proofs.Enumeration.Update

/-! Updates of an inventory, kind by kind.

Each kind is updated on its own: what becomes of its enumeration is its own update, with the
failure of its listing, and the others are as they were (`update_part`). What goes through the
kinds one after another returns when each of its parts does (`forKinds_returns`), and ends in a
fault as soon as one of them does (`forKinds_fault`). -/
namespace HostInventory.Inventory

open Enumeration FileTree

/-! ### One kind after another -/

/-- What an inventory has of a kind: the enumeration and the account of its listings. -/
def part (inv : Inventory) (k : KindName) : Enumeration k.Cache k.Data × Option Failure :=
  (inv.get k, inv.failure? k)

theorem get_eq_of_part {inv m : Inventory} {k : KindName} (h : m.part k = inv.part k) :
    m.get k = inv.get k :=
  congrArg Prod.fst h

/-- The kinds in `ks` are turned as `R` says, and the others are left alone. -/
def Turns (R : (k : KindName) → Enumeration k.Cache k.Data × Option Failure →
    Enumeration k.Cache k.Data × Option Failure → Prop) (ks : List KindName)
    (inv inv' : Inventory) : Prop :=
  (∀ k ∈ ks, R k (inv.part k) (inv'.part k)) ∧ ∀ k, k ∉ ks → inv'.part k = inv.part k

section Kinds
variable {R : (k : KindName) → Enumeration k.Cache k.Data × Option Failure →
    Enumeration k.Cache k.Data × Option Failure → Prop}
  {f : KindName → Inventory → Outcome Inventory} {ks : List KindName} {inv : Inventory}

/-- An operation that turns one kind turns each of a row of kinds once. -/
theorem forKinds_turns (hf : ∀ k m m', (f k m).value = .ok m' → Turns R [k] m m')
    (hnd : ks.Nodup) {inv' : Inventory} (hv : (forKinds f ks inv).value = .ok inv') :
    Turns R ks inv inv' := by
  induction ks generalizing inv with
  | nil =>
    cases hv
    exact ⟨nofun, fun _ _ => rfl⟩
  | cons k rest ih =>
    obtain ⟨hk, hrest⟩ := List.nodup_cons.1 hnd
    rw [forKinds] at hv
    obtain ⟨m, hm, hv⟩ := Outcome.value_bind_eq_ok.1 hv
    obtain ⟨hone, hothers⟩ := hf k inv m hm
    obtain ⟨hall, hleft⟩ := ih hrest hv
    refine ⟨?_, ?_⟩
    · intro k' hk'
      rcases List.mem_cons.1 hk' with rfl | hk'
      · rw [hleft k' hk]
        exact hone k' List.mem_cons_self
      · have hne : k' ∉ [k] := fun h => hk (List.mem_singleton.1 h ▸ hk')
        rw [← hothers k' hne]
        exact hall k' hk'
    · intro k' hk'
      obtain ⟨hne, hk'⟩ := not_or.1 (mt List.mem_cons.2 hk')
      rw [hleft k' hk', hothers k' (by simpa using hne)]

/-- A row of operations returns when each does on what it finds of its kind. -/
theorem forKinds_returns (hf : ∀ k m m', (f k m).value = .ok m' → Turns R [k] m m')
    (hnd : ks.Nodup)
    (hret : ∀ k ∈ ks, ∀ m : Inventory, m.part k = inv.part k → ∃ m', (f k m).value = .ok m') :
    ∃ inv', (forKinds f ks inv).value = .ok inv' := by
  induction ks generalizing inv with
  | nil => exact ⟨inv, rfl⟩
  | cons k rest ih =>
    obtain ⟨hk, hrest⟩ := List.nodup_cons.1 hnd
    obtain ⟨m, hm⟩ := hret k List.mem_cons_self inv rfl
    have hothers := (hf k inv m hm).2
    rw [forKinds, Outcome.value_bind_of_ok hm]
    refine ih hrest fun k' hk' m' hm' => ?_
    have hne : k' ∉ [k] := fun h => hk (List.mem_singleton.1 h ▸ hk')
    exact hret k' (List.mem_cons_of_mem _ hk') m' (hm'.trans (hothers k' hne))

/-- What each operation keeps a row of them keeps. -/
theorem forKinds_keeps {P : Inventory → Prop}
    (hf : ∀ k m m', P m → (f k m).value = .ok m' → P m') {inv' : Inventory} (h : P inv)
    (hv : (forKinds f ks inv).value = .ok inv') : P inv' := by
  induction ks generalizing inv with
  | nil =>
    cases hv
    exact h
  | cons k rest ih =>
    obtain ⟨m, hm, hv⟩ := Outcome.value_bind_eq_ok.1 hv
    exact ih (hf k inv m h hm) hv

/-- A row of operations ends in a fault when one of them does and no other fault comes before. -/
theorem forKinds_fault (hf : ∀ k m m', (f k m).value = .ok m' → Turns R [k] m m')
    (hnd : ks.Nodup) {fault : Fault}
    (honly : ∀ k ∈ ks, ∀ m : Inventory, m.part k = inv.part k →
      ∀ fault', (f k m).value = .error fault' → fault' = fault)
    {k : KindName} (hk : k ∈ ks)
    (hfault : ∀ m : Inventory, m.part k = inv.part k → (f k m).value = .error fault) :
    (forKinds f ks inv).value = .error fault := by
  induction ks generalizing inv with
  | nil => exact absurd hk List.not_mem_nil
  | cons k₀ rest ih =>
    obtain ⟨hk₀, hrest⟩ := List.nodup_cons.1 hnd
    rw [forKinds]
    cases hm : (f k₀ inv).value with
    | error fault' =>
      rw [Outcome.value_bind_of_error hm, honly k₀ List.mem_cons_self inv rfl fault' hm]
    | ok m =>
      have hothers := (hf k₀ inv m hm).2
      have hne : k ≠ k₀ := by
        rintro rfl
        rw [hfault inv rfl] at hm
        cases hm
      rw [Outcome.value_bind_of_ok hm]
      refine ih hrest ?_ ((List.mem_cons.1 hk).resolve_left hne) ?_
      · intro k' hk' m' hm'
        have hne' : k' ∉ [k₀] := fun h => hk₀ (List.mem_singleton.1 h ▸ hk')
        exact honly k' (List.mem_cons_of_mem _ hk') m' (hm'.trans (hothers k' hne'))
      · intro m' hm'
        exact hfault m' (hm'.trans (hothers k (by simpa using hne)))

end Kinds

/-! ### One kind -/

/-- Why a listing failed, if it did. -/
def failureOf {α : Type} : Except Failure α → Option Failure
  | .ok _ => none
  | .error f => some f

/-- The inventory with account kept of a kind's listing. -/
def record (inv : Inventory) (k : KindName) (r : Except Failure UpdateReport) : Inventory :=
  match r with
  | .ok _ => inv.clearFailure k
  | .error f => inv.setFailure k f

section Record
variable (inv : Inventory) (k : KindName) (r : Except Failure UpdateReport)

@[simp] theorem get_record (k' : KindName) : (inv.record k r).get k' = inv.get k' := by
  cases r <;> cases k' <;> rfl

theorem failure?_set (e : Enumeration k.Cache k.Data) (k' : KindName) :
    (inv.set k e).failure? k' = inv.failure? k' := by
  cases k <;> rfl

theorem failure?_record_self : (inv.record k r).failure? k = failureOf r := by
  cases r with
  | ok _ => exact inv.failure?_clearFailure_self k
  | error f => exact inv.failure?_setFailure_self k f

theorem failure?_record_of_ne {k' : KindName} (h : k' ≠ k) :
    (inv.record k r).failure? k' = inv.failure? k' := by
  cases r with
  | ok _ => exact inv.failure?_clearFailure_of_ne h
  | error f => exact inv.failure?_setFailure_of_ne h f

end Record

section Update
variable {s : Settings} {host : Provider} {refresh : Bool} {k : KindName} {inv : Inventory}

theorem updateKind_of_error {fault : Fault}
    (h : ((inv.get k).update (k.kind s) host refresh).value = .error fault) :
    (updateKind s host refresh k inv).value = .error fault :=
  Outcome.value_bind_of_error h _

theorem updateKind_value {r : Except Failure UpdateReport} {e : Enumeration k.Cache k.Data}
    (h : ((inv.get k).update (k.kind s) host refresh).value = .ok (r, e)) :
    (updateKind s host refresh k inv).value = .ok ((inv.set k e).record k r) := by
  rw [updateKind, Outcome.value_bind_of_ok h]
  cases r with
  | error f => rfl
  | ok report =>
    dsimp only
    split <;> rfl

/-- The update of a kind's own enumeration, and the failure of its listing. -/
def UpdatedBy (s : Settings) (host : Provider) (refresh : Bool) (k : KindName)
    (x y : Enumeration k.Cache k.Data × Option Failure) : Prop :=
  ∃ r, (x.1.update (k.kind s) host refresh).value = .ok (r, y.1) ∧ y.2 = failureOf r

theorem updateKind_turns {inv' : Inventory}
    (hv : (updateKind s host refresh k inv).value = .ok inv') :
    Turns (UpdatedBy s host refresh) [k] inv inv' := by
  cases h : ((inv.get k).update (k.kind s) host refresh).value with
  | error fault =>
    rw [updateKind_of_error h] at hv
    cases hv
  | ok x =>
    obtain ⟨r, e⟩ := x
    rw [updateKind_value h] at hv
    cases hv
    refine ⟨?_, fun k' hk' => ?_⟩
    · intro k' hk'
      obtain rfl := List.mem_singleton.1 hk'
      refine ⟨r, ?_, failure?_record_self _ k' r⟩
      show _ = Except.ok (r, ((inv.set k' e).record k' r).get k')
      rw [get_record, get_set_self]
      exact h
    · have hne : k' ≠ k := by simpa using hk'
      rw [part, get_record, get_set_of_ne inv hne, failure?_record_of_ne _ _ _ hne, failure?_set]
      rfl

/-- An update returns when that of each enumeration does. -/
theorem update_returns {refresh : Bool}
    (h : ∀ k, ∃ x, ((inv.get k).update (k.kind s) host refresh).value = .ok x) :
    ∃ inv', (inv.update s host refresh).value = .ok inv' := by
  have hret : ∀ k ∈ KindName.all, ∀ m : Inventory, m.part k = inv.part k →
      ∃ m', (updateKind s host refresh k m).value = .ok m' := by
    intro k _ m hm
    obtain ⟨x, hx⟩ := h k
    rw [← get_eq_of_part hm] at hx
    exact ⟨_, updateKind_value hx⟩
  obtain ⟨m, hm⟩ :=
    forKinds_returns (fun _ _ _ hv => updateKind_turns hv) KindName.nodup_all hret
  exact ⟨{ m with updated := true }, by rw [Inventory.update, Outcome.value_bind_of_ok hm]; rfl⟩

/-- What an update that returns has made of an inventory. -/
theorem update_part {inv' : Inventory} (hv : (inv.update s host refresh).value = .ok inv')
    (k : KindName) : UpdatedBy s host refresh k (inv.part k) (inv'.part k) := by
  obtain ⟨m, hm, hv⟩ := Outcome.value_bind_eq_ok.1 hv
  cases hv
  have hturns := forKinds_turns (fun _ _ _ h => updateKind_turns h) KindName.nodup_all hm
  have hpart : part { m with updated := true } k = m.part k := by cases k <;> rfl
  rw [hpart]
  exact hturns.1 k k.mem_all

theorem update_cases {inv' : Inventory} (hv : (inv.update s host refresh).value = .ok inv')
    (k : KindName) :
    ∃ r, ((inv.get k).update (k.kind s) host refresh).value = .ok (r, inv'.get k) := by
  obtain ⟨r, hk, -⟩ := update_part hv k
  exact ⟨r, hk⟩

end Update

end HostInventory.Inventory
