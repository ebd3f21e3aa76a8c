import HostInventory.FileTree.Scenario
import HostInventory.Proofs.Inventory.Update
import HostInventory.Proofs.Kind.Atomic
import HostInventory.Proofs.Kind.Memory
import HostInventory.Proofs.Kind.Regular

/-! Overflow.

Five kinds always return from an update, memory and processors unless a sum of what was read
does not fit into 64 bits. Such an overflow is no failure of an instance: it ends the update
of the whole inventory. What the updates rely on holds once every kind is set up and is kept
by every update (`Ready`), so setting up and updating return on exactly those hosts on which
no sum overflows (`init_and_update_return_iff`). -/
namespace HostInventory.Inventory

open Enumeration FileTree

/-! ### States between operations -/

/-- What the updates of an inventory rely on and keep. -/
structure Ready (inv : Inventory) : Prop where
  initialized : ∀ k, (inv.get k).phase = .initialized
  memory : inv.memory.total.isSome = true
  cpu : inv.cpu.total.isSome = true
  wellFormed : inv.cpu.WellFormed
  sound : inv.cpu.All Cpu.Sound

/-- The inventory once every kind is set up. -/
def setUp : Inventory where
  memory := { phase := .initialized, total := some (Instance.ofWhole {}), cache := () }
  os := { phase := .initialized, total := some (Instance.ofWhole {}), cache := () }
  bios := { phase := .initialized, total := some (Instance.ofWhole {}), cache := () }
  cpu := {
    phase := .initialized
    total := some (Instance.ofWhole { info := { processor := none } })
    cache := () }
  disk := { phase := .initialized, cache := [] }
  network := { phase := .initialized, cache := () }
  software := { phase := .initialized, cache := [] }

theorem ready_setUp : Ready setUp where
  initialized := fun k => by cases k <;> rfl
  memory := rfl
  cpu := rfl
  wellFormed := ⟨List.nodup_nil, nofun, fun i hi => by cases hi; rfl⟩
  sound := fun i hi => by
    obtain rfl := List.mem_singleton.1 hi
    exact ⟨rfl, nofun⟩

/-- Setting up never fails; what follows is an update. -/
theorem init_value (s : Settings) (host : Provider) :
    (({} : Inventory).init s host).value = (setUp.update s host true).value := by
  have hset : (forKinds (initKind s) KindName.all {}).value = .ok setUp := rfl
  rw [init, Outcome.value_bind_of_ok hset]
  cases hv : (setUp.update s host true).value with
  | error fault => rw [Outcome.value_bind_of_error hv]
  | ok inv =>
    rw [Outcome.value_bind_of_ok hv]
    rfl

theorem Ready.update {s : Settings} {host : Provider} {refresh : Bool} {inv inv' : Inventory}
    (h : Ready inv) (hv : (inv.update s host refresh).value = .ok inv') : Ready inv' := by
  have hall := update_cases hv
  obtain ⟨_, hmemory⟩ := hall .memory
  obtain ⟨_, hcpu⟩ := hall .cpu
  refine ⟨fun k => ?_, ?_, ?_, ?_, ?_⟩
  · obtain ⟨_, hk⟩ := hall k
    exact (update_keeps hk).1.trans (h.initialized k)
  · exact (update_keeps hmemory).2.trans h.memory
  · exact (update_keeps hcpu).2.trans h.cpu
  · exact (transition_update h.wellFormed hcpu).wellFormed
  · exact Cpu.sound_update h.sound hcpu

/-- The inventories that are set up and not released, after any updates of any hosts. -/
inductive Reachable (s : Settings) : Inventory → Prop
  | init {host : Provider} {inv : Inventory} (h : (({} : Inventory).init s host).value = .ok inv) :
    Reachable s inv
  | update {inv inv' : Inventory} {host : Provider} {refresh : Bool} (h : Reachable s inv)
    (hv : (inv.update s host refresh).value = .ok inv') : Reachable s inv'

theorem Reachable.ready {s : Settings} {inv : Inventory} (h : Reachable s inv) : Ready inv := by
  induction h with
  | init h =>
    rw [init_value] at h
    exact ready_setUp.update h
  | update _ hv ih => exact ih.update hv

/-! ### Overflow -/

/-- A sum of what is read of memory or of the processors does not fit into 64 bits. -/
def Overflows (s : Settings) (host : Provider) : Prop :=
  Memory.Overflows (s.paths.proc / ⟨"meminfo"⟩) host ∨
    Cpu.Overflows (s.paths.proc / ⟨"stat"⟩) host

section Overflow
variable {s : Settings} {host : Provider} {inv : Inventory}

/-- An update of one kind returns or overflows. -/
theorem Ready.kind_cases (h : Ready inv) (s : Settings) (host : Provider) (k : KindName) :
    (∃ x, ((inv.get k).update (k.kind s) host true).value = .ok x) ∨
      (Overflows s host ∧ ((inv.get k).update (k.kind s) host true).value = .error .overflow) := by
  have hp := h.initialized k
  cases k with
  | memory =>
    by_cases hover : Memory.Overflows (s.paths.proc / ⟨"meminfo"⟩) host
    · exact .inr ⟨.inl hover, Memory.update_overflows hp h.memory hover⟩
    · exact .inl (Memory.update_returns hp hover)
  | cpu =>
    by_cases hover : Cpu.Overflows (s.paths.proc / ⟨"stat"⟩) host
    · exact .inr ⟨.inr hover, Cpu.update_overflows hp h.sound h.wellFormed h.cpu hover⟩
    · exact .inl (Cpu.update_returns hp h.sound hover)
  | os => exact .inl ((Os.kind_regular _ _ _).update_returns hp)
  | bios => exact .inl ((Bios.kind_regular _).update_returns hp)
  | disk => exact .inl ((Disk.kind_regular _ _ _).update_returns hp)
  | network => exact .inl ((Network.kind_regular _ _ _ _).update_returns hp)
  | software => exact .inl ((Software.kind_regular _ _).update_returns hp)

theorem Ready.update_returns (h : Ready inv) (hover : ¬Overflows s host) :
    ∃ inv', (inv.update s host true).value = .ok inv' :=
  Inventory.update_returns fun k => (h.kind_cases s host k).resolve_right fun hk => hover hk.1

theorem Ready.update_overflows (h : Ready inv) (hover : Overflows s host) :
    (inv.update s host true).value = .error .overflow := by
  obtain ⟨k, hk⟩ : ∃ k, ((inv.get k).update (k.kind s) host true).value = .error .overflow := by
    rcases hover with hover | hover
    · exact ⟨.memory, Memory.update_overflows (h.initialized .memory) h.memory hover⟩
    · exact ⟨.cpu, Cpu.update_overflows (h.initialized .cpu) h.sound h.wellFormed h.cpu hover⟩
  have honly : ∀ k ∈ KindName.all, ∀ m : Inventory, m.part k = inv.part k →
      ∀ fault, (updateKind s host true k m).value = .error fault → fault = .overflow := by
    intro k _ m hm fault hv
    rcases h.kind_cases s host k with ⟨x, hx⟩ | ⟨-, hx⟩
    · rw [← get_eq_of_part hm] at hx
      rw [updateKind_value hx] at hv
      cases hv
    · rw [← get_eq_of_part hm] at hx
      rw [updateKind_of_error hx] at hv
      exact (Except.error.inj hv).symm
  have hfault : ∀ m : Inventory, m.part k = inv.part k →
      (updateKind s host true k m).value = .error .overflow := by
    intro m hm
    rw [← get_eq_of_part hm] at hk
    exact updateKind_of_error hk
  exact Outcome.value_bind_of_error
    (forKinds_fault (fun _ _ _ hv => updateKind_turns hv) KindName.nodup_all honly k.mem_all
      hfault) _

end Overflow

/-- **Setting up and updating return unless a sum overflows.** -/
theorem init_and_update_return_iff {s : Settings} {inv : Inventory} (h : Reachable s inv)
    (host : Provider) :
    ((∃ inv', (({} : Inventory).init s host).value = .ok inv') ↔ ¬Overflows s host) ∧
      ((∃ inv', (inv.update s host true).value = .ok inv') ↔ ¬Overflows s host) ∧
      (Overflows s host → (({} : Inventory).init s host).value = .error .overflow ∧
        (inv.update s host true).value = .error .overflow) ∧
      ∀ inv', (inv.update s host true).value = .ok inv' → ∀ k : KindName,
        (∃ f left, ((k.kind s).discover host (inv.get k).cache).value = .error (f, left) ∧
          inv'.get k = inv.get k) ∨
        ∃ listing cache,
          ((k.kind s).discover host (inv.get k).cache).value = .ok (listing, cache) ∧
          inv'.get k = ((inv.get k).reconciled (k.kind s) host cache listing).refreshed
            (k.kind s) host := by
  have hiff : ∀ {m : Inventory}, Ready m →
      ((∃ inv', (m.update s host true).value = .ok inv') ↔ ¬Overflows s host) := by
    intro m hm
    constructor
    · rintro ⟨inv', hv⟩ hover
      rw [hm.update_overflows hover] at hv
      cases hv
    · exact hm.update_returns
  refine ⟨?_, hiff h.ready, ?_, ?_⟩
  · rw [init_value]
    exact hiff ready_setUp
  · intro hover
    rw [init_value]
    exact ⟨ready_setUp.update_overflows hover, h.ready.update_overflows hover⟩
  · intro inv' hv k
    obtain ⟨r, hk⟩ := update_cases hv k
    exact (k.atomic s).update_with_refresh_cases hk

/-- A memory table whose free and cached memory do not add up in 64 bits. -/
def fullTable : String :=
  "MemTotal: 1 kB\nMemFree: 18446744073709551615 kB\nCached: 1 kB\n"

theorem overflows_fullTable (t : Tree) :
    Overflows {} (t.addFile ⟨"/proc/meminfo"⟩ fullTable).provider := by
  refine .inl ⟨fullTable, ?_, by decide +kernel, by decide +kernel, by decide +kernel⟩
  show Tree.read _ ⟨"/proc/meminfo"⟩ = .ok fullTable
  rw [Tree.read, Tree.addFile, Table.find?_insert_self]

/-- An inventory of an empty host, updated when there is such a table. -/
theorem init_and_update_return_iff_fullTable :
    let host := (Tree.addFile {} ⟨"/proc/meminfo"⟩ fullTable).provider
    ∃ inv, Reachable {} inv ∧ Overflows {} host ∧
      (inv.update {} host true).value = .error .overflow := by
  intro host
  have hempty : ¬Overflows {} ({} : Tree).provider := by
    rintro (⟨text, htext, -⟩ | ⟨all, t, hread, -⟩)
    · cases htext
    · cases hread
  obtain ⟨inv, hv⟩ := ready_setUp.update_returns hempty
  have hreach : Reachable {} inv := .init ((init_value {} _).trans hv)
  have hover : Overflows {} host := overflows_fullTable {}
  obtain ⟨-, -, hfault, -⟩ := init_and_update_return_iff hreach host
  exact ⟨inv, hreach, hover, (hfault hover).2⟩

/-- With such a table not even a typical host is inventoried. -/
theorem init_overflow_of_fullTable :
    (({} : Inventory).init {}
      ((Tree.run {} Scenario.typicalEdits).addFile ⟨"/proc/meminfo"⟩ fullTable).provider).value =
        .error .overflow := by
  rw [init_value]
  exact ready_setUp.update_overflows (overflows_fullTable _)

end HostInventory.Inventory
