import HostInventory.FileTree.Tree
import HostInventory.Proofs.Enumeration.Invariant
import HostInventory.Proofs.Kind.Atomic
import HostInventory.Proofs.Kind.Regular

/-! Packages over time.

A held package is looked up by the key it was listed with. Whether that key is the name alone
or has the architecture behind it depends on the other stanzas of the database, so the key of a
stanza may change while the stanza stays as it is. -/
namespace HostInventory.Software

open Enumeration FileTree Format

/-! ### Keys -/

/-- The key depends on the name and the architecture only, and on the rest of the database. -/
theorem isMultiArch_congr (all : List Package) {p q : Package} (hn : p.name = q.name)
    (ha : p.architecture = q.architecture) : isMultiArch all p = isMultiArch all q := by
  simp only [isMultiArch, hn, ha]

theorem key_congr (all : List Package) {p q : Package} (hn : p.name = q.name)
    (ha : p.architecture = q.architecture) : key all p = key all q := by
  simp only [key, isMultiArch_congr all hn ha, hn, ha]

/-- The key of a package with an architecture changes with what else there is of its name. -/
theorem isMultiArch_ne_of_key_ne {past all : List Package} {p : Package}
    (h : key past p ≠ key all p) :
    p.architecture ≠ "" ∧ isMultiArch past p ≠ isMultiArch all p := by
  constructor
  · intro ha
    simp [key, ha] at h
  · intro hm
    exact h (by simp only [key, hm])

/-! ### Snapshots -/

theorem mem_add {s : Snapshot} {key : String} {p : Package} {entry : String × Package}
    (h : entry ∈ s.add key p) : entry ∈ s ∨ entry = (key, p) := by
  induction s with
  | nil => exact .inr (List.mem_singleton.1 h)
  | cons first rest ih =>
    unfold Snapshot.add at h
    split at h
    · split at h
      · rcases List.mem_cons.1 h with h | h
        · exact .inr h
        · exact .inl (List.mem_cons_of_mem _ h)
      · exact .inl h
    · rcases List.mem_cons.1 h with rfl | h
      · exact .inl List.mem_cons_self
      · exact (ih h).imp_left (List.mem_cons_of_mem _)

theorem mem_keys_add {s : Snapshot} {key key' : String} {p : Package} :
    key' ∈ (s.add key p).map Prod.fst ↔ key' ∈ s.map Prod.fst ∨ key' = key := by
  induction s with
  | nil => simp [Snapshot.add]
  | cons first rest ih =>
    unfold Snapshot.add
    split
    · next h =>
      split <;> simp [← h] <;> tauto
    · simp [ih, or_assoc]

section Keyed
variable {f : Package → String} {ps : List Package} {s : Snapshot}

theorem mem_addAll {entry : String × Package}
    (h : entry ∈ ps.foldl (fun s p => Snapshot.add s (f p) p) s) :
    entry ∈ s ∨ (entry.2 ∈ ps ∧ f entry.2 = entry.1) := by
  induction ps generalizing s with
  | nil => exact .inl h
  | cons p rest ih =>
    rcases ih h with h | ⟨hm, hk⟩
    · rcases mem_add h with h | rfl
      · exact .inl h
      · exact .inr ⟨List.mem_cons_self, rfl⟩
    · exact .inr ⟨List.mem_cons_of_mem _ hm, hk⟩

theorem mem_keys_addAll {key : String} :
    key ∈ (ps.foldl (fun s p => Snapshot.add s (f p) p) s).map Prod.fst ↔
      key ∈ s.map Prod.fst ∨ key ∈ ps.map f := by
  induction ps generalizing s with
  | nil => simp
  | cons p rest ih =>
    rw [List.foldl_cons, ih, mem_keys_add, List.map_cons, List.mem_cons, or_assoc]

end Keyed

/-- The packages of a database by their keys. -/
def snapshot (all : List Package) : Snapshot :=
  all.foldl (fun s p => Snapshot.add s (key all p) p) []

/-- What is found in a snapshot is a package of the database, under its own key. -/
theorem of_find?_snapshot {all : List Package} {k : String} {p : Package}
    (h : (snapshot all).find? k = some p) : p ∈ all ∧ key all p = k := by
  obtain ⟨before, after, hs, -⟩ := List.lookup_eq_some_iff.1 h
  have hm : (k, p) ∈ snapshot all := by
    rw [hs]
    exact List.mem_append_right _ List.mem_cons_self
  exact (mem_addAll hm).resolve_left List.not_mem_nil

/-- What is not found is the key of no package. -/
theorem find?_snapshot_eq_none {all : List Package} {k : String} :
    (snapshot all).find? k = none ↔ k ∉ keys all := by
  have hkeys : k ∈ (snapshot all).map Prod.fst ↔ k ∈ keys all := by
    rw [snapshot, mem_keys_addAll, List.map_nil, keys]
    exact or_iff_right List.not_mem_nil
  rw [← hkeys, Snapshot.find?, List.lookup_eq_none_iff, List.mem_map]
  simp only [bne_iff_ne, ne_eq, not_exists, not_and]
  exact ⟨fun h entry hm hk => h entry hm hk.symm, fun h entry hm hk => h entry hm hk.symm⟩

/-! ### Listings -/

theorem snapshot_of_listing (entries : List (String × Package)) (l : Listing) :
    (entries.foldl Listing.add l).snapshot =
      entries.foldl (fun s entry => Snapshot.add s entry.1 entry.2) l.snapshot := by
  induction entries generalizing l with
  | nil => rfl
  | cons entry rest ih => exact ih (l.add entry)

/-- A listing succeeds when the database can be read. -/
theorem discover_eq_ok {database : Path} {host : Provider} {all : List Package}
    (h : readAs (host.read database) PackageDatabase.read = .ok all) (last : Snapshot) :
    ∃ ids, (discover database host last).value = .ok (ids, snapshot all) := by
  have hs : (((keys all).zip all).foldl Listing.add {}).snapshot = snapshot all := by
    rw [snapshot_of_listing, keys, ← List.map_prod_right_eq_zip, List.foldl_map]
    rfl
  refine ⟨(((keys all).zip all).foldl Listing.add {}).listed.reverse, ?_⟩
  rw [discover, h, ← hs]
  rfl

theorem of_discover_eq_ok {database : Path} {host : Provider} {ids : List Identity}
    {last cache : Snapshot} (h : (discover database host last).value = .ok (ids, cache)) :
    ∃ all, readAs (host.read database) PackageDatabase.read = .ok all ∧ cache = snapshot all := by
  cases hr : readAs (host.read database) PackageDatabase.read with
  | error f =>
    rw [discover, hr] at h
    cases h
  | ok all =>
    obtain ⟨ids', hd⟩ := discover_eq_ok hr last
    rw [hd] at h
    exact ⟨all, rfl, (Prod.mk.inj (Except.ok.inj h)).2.symm⟩

theorem mem_listed {entries : List (String × Package)} {l : Listing} {id : Identity}
    (h : id ∈ (entries.foldl Listing.add l).listed) :
    id ∈ l.listed ∨ id.text ∈ entries.map Prod.fst := by
  induction entries generalizing l with
  | nil => exact .inl h
  | cons entry rest ih =>
    rcases ih h with h | h
    · have hadd : (l.add entry).listed = l.listed ∨ (l.add entry).listed = ⟨entry.1⟩ :: l.listed := by
        unfold Listing.add
        dsimp only
        split
        · exact .inr rfl
        · exact .inl rfl
      rcases hadd with hadd | hadd
      · exact .inl (hadd ▸ h)
      · rw [hadd] at h
        rcases List.mem_cons.1 h with rfl | h
        · exact .inr List.mem_cons_self
        · exact .inl h
    · exact .inr (List.mem_cons_of_mem _ h)

/-- What is listed is the key of a package. -/
theorem key_of_listed {database : Path} {host : Provider} {ids : List Identity}
    {last cache : Snapshot} (h : (discover database host last).value = .ok (ids, cache)) :
    ∃ all, readAs (host.read database) PackageDatabase.read = .ok all ∧ cache = snapshot all ∧
      ∀ id ∈ ids, id.text ∈ keys all := by
  obtain ⟨all, hr, hcache⟩ := of_discover_eq_ok h
  refine ⟨all, hr, hcache, fun id hid => ?_⟩
  rw [discover, hr] at h
  have hids : (((keys all).zip all).foldl Listing.add {}).listed.reverse = ids :=
    (Prod.mk.inj (Except.ok.inj h)).1
  rw [← hids, List.mem_reverse] at hid
  have hkey := (mem_listed hid).resolve_left List.not_mem_nil
  rwa [List.map_fst_zip (by simp [keys])] at hkey

/-! ### Instances -/

/-- What is said of a package whose key is not there. -/
def goneMessage (key : String) : String :=
  s!"package {key} disappeared"

section Look
variable {database : Path} {policy : RemovalPolicy} {host : Provider} {s : Snapshot}
  {i : Instance Data}

theorem lookedAt_of_some {p : Package} (h : s.find? i.data.key = some p) :
    ((kind database policy).lookedAt host s i).2 =
      { i with failure := none, data := { i.data with info := Info.ofPackage p } } := by
  have hl : ((kind database policy).refresh host s i.reset).value =
      .ok (.ok { i.data with info := Info.ofPackage p }) := by
    show Except.ok (look s i.data) = _
    rw [look, h]
  simp only [Kind.lookedAt, hl]
  rfl

theorem lookedAt_of_none (h : s.find? i.data.key = none) :
    ((kind database policy).lookedAt host s i).2 =
      { i with failure := some (goneMessage i.data.key) } := by
  have hl : ((kind database policy).refresh host s i.reset).value =
      .ok (.error (.gone s!"package {i.data.key}", i.data)) := by
    show Except.ok (look s i.data) = _
    rw [look, h]
  simp only [Kind.lookedAt, hl]
  rfl

end Look

/-- An instance is looked up by the text of its identity. -/
def Keyed (i : Instance Data) : Prop :=
  ∀ id, i.subject = .named id → i.data.key = id.text

theorem keeps_keyed (database : Path) (policy : RemovalPolicy) :
    (kind database policy).Keeps Keyed where
  whole := nofun
  built := fun _ _ id i hi => by
    cases hi
    intro id' hid
    cases hid
    rfl
  told := fun _ _ hi => hi
  lookedAt := fun host s i hi => by
    cases h : s.find? i.data.key with
    | some p =>
      rw [lookedAt_of_some h]
      exact hi
    | none =>
      rw [lookedAt_of_none h]
      exact hi

/-- After a look that succeeded, the data is that of the package under the key. -/
theorem info_of_refreshed {database : Path} {policy : RemovalPolicy} {host : Provider}
    {e : Enumeration Snapshot Data} {id : Identity} {i : Instance Data}
    (hm : (id, i) ∈ (e.refreshed (kind database policy) host).held) (hok : i.failure = none) :
    ∃ p, e.cache.find? i.data.key = some p ∧ i.data.info = Info.ofPackage p := by
  obtain ⟨⟨id', old⟩, -, heq⟩ := List.mem_map.1 hm
  obtain ⟨-, rfl⟩ := Prod.mk.inj heq
  cases hf : e.cache.find? old.data.key with
  | none =>
    rw [lookedAt_of_none hf] at hok
    cases hok
  | some p =>
    rw [lookedAt_of_some hf]
    exact ⟨p, hf, rfl⟩

/-! ### Runs -/

/-- The database that an operation lists, if it can be read. -/
def listed? (database : Path) : Operation Provider Data → Option (List Package)
  | .updateEnumeration host | .update host _ =>
    (readAs (host.read database) PackageDatabase.read).toOption
  | _ => none

/-- The databases that a run lists, in order. -/
def listings (database : Path) (steps : List (Step Provider Snapshot Data)) :
    List (List Package) :=
  steps.filterMap fun step => listed? database step.operation

section Runs
variable {database : Path} {policy : RemovalPolicy} {e e' : Enumeration Snapshot Data}

/-- The cache is that of the listing, if there is one. -/
theorem cache_of_updateEnumeration {host : Provider} {r : Except Failure Reconciliation}
    (hv : (e.updateEnumeration (kind database policy) host).value = .ok (r, e')) :
    e'.cache =
      ((readAs (host.read database) PackageDatabase.read).toOption.map snapshot).getD e.cache := by
  obtain ⟨-, ⟨f, cache, hd, -, rfl⟩ | ⟨listing, cache, hd, -, -, rfl⟩⟩ :=
    updateEnumeration_cases hv
  · obtain ⟨hr, rfl⟩ := discover_eq_error.1 hd
    rw [hr]
    rfl
  · obtain ⟨all, hall, hcache⟩ := of_discover_eq_ok hd
    rw [hall]
    exact hcache

/-- An operation leaves the cache that it lists, unless it cleans up. -/
theorem cache_of_apply {operation : Operation Provider Data} {taken : List Handle}
    (hv : (e.apply ⟨kind database policy, operation⟩).value = .ok (taken, e')) :
    (operation = .cleanup ∧ e' = { phase := .cleanedUp, cache := [] }) ∨
      e'.cache = ((listed? database operation).map snapshot).getD e.cache := by
  have hdone := apply_cases hv
  cases operation
  case init =>
    obtain ⟨-, ⟨-, rfl, -⟩ | ⟨i, m, -, hm, rfl, -⟩⟩ := init_cases hdone.1
    · exact .inr rfl
    · obtain ⟨-, rfl, -⟩ := setTotal_cases hm
      exact .inr rfl
  case setTotal i =>
    obtain ⟨-, rfl, -⟩ := setTotal_cases hdone.1
    exact .inr rfl
  case add i =>
    obtain ⟨isNew, hm, -⟩ := hdone
    obtain ⟨id, -, ⟨-, -, rfl⟩ | ⟨-, -, rfl⟩⟩ := add_cases hm
    · exact .inr rfl
    · exact .inr rfl
  case remove id =>
    obtain ⟨found, hm, -⟩ := hdone
    rw [remove_value] at hm
    obtain ⟨-, rfl⟩ := Prod.mk.inj (Except.ok.inj hm)
    exact .inr rfl
  case updateEnumeration host =>
    obtain ⟨r, hm, -⟩ := hdone
    exact .inr (cache_of_updateEnumeration hm)
  case updateInstances host =>
    obtain ⟨count, hm, -⟩ := hdone
    obtain ⟨-, -, -, rfl⟩ := updateInstances_cases hm
    exact .inr rfl
  case update host refresh =>
    obtain ⟨r, hm, -⟩ := hdone
    obtain ⟨found, m, hm', -, ⟨-, rfl, -⟩ | ⟨-, -, count, hi, -⟩⟩ := update_cases hm
    · exact .inr (cache_of_updateEnumeration hm')
    · obtain ⟨-, -, -, rfl⟩ := updateInstances_cases hi
      have hc := cache_of_updateEnumeration hm'
      exact .inr hc
  case cleanup =>
    obtain ⟨hm, -⟩ := hdone
    by_cases hp : e.phase = .cleanedUp
    · rw [cleanup_of_cleanedUp _ hp] at hm
      cases hm
      exact .inr rfl
    · rw [(cleanup_eq hp).1] at hm
      cases hm
      exact .inl ⟨rfl, rfl⟩

/-- After a run the cache is empty or the snapshot of a database that was listed. -/
theorem cache_of_run {steps : List (Step Provider Snapshot Data)}
    (hk : ∀ step ∈ steps, step.kind = kind database policy) {history : List Event}
    (hv : (e.run steps).value = .ok (history, e')) :
    e'.cache = e.cache ∨ e'.cache = [] ∨
      ∃ past ∈ listings database steps, e'.cache = snapshot past := by
  induction steps generalizing e history with
  | nil =>
    obtain ⟨rfl, rfl⟩ := Prod.mk.inj (Except.ok.inj hv)
    exact .inl rfl
  | cons step rest ih =>
    obtain ⟨k, operation⟩ := step
    obtain ⟨rfl, hrest⟩ := List.forall_mem_cons.1 hk
    obtain ⟨taken, m, history', hm, hr, -⟩ := run_cons_cases hv
    have hmem : ∀ past, past ∈ listings database rest ∨ listed? database operation = some past →
        past ∈ listings database (⟨kind database policy, operation⟩ :: rest) := by
      intro past hpast
      rw [listings, List.mem_filterMap]
      rcases hpast with hpast | hpast
      · obtain ⟨step, hstep, hlist⟩ := List.mem_filterMap.1 hpast
        exact ⟨step, List.mem_cons_of_mem _ hstep, hlist⟩
      · exact ⟨_, List.mem_cons_self, hpast⟩
    rcases ih hrest hr with hc | hc | ⟨past, hpast, hc⟩
    · rcases cache_of_apply hm with ⟨-, rfl⟩ | hc'
      · exact .inr (.inl hc)
      · cases hl : listed? database operation with
        | none =>
          rw [hl] at hc'
          exact .inl (hc.trans hc')
        | some past =>
          rw [hl] at hc'
          exact .inr (.inr ⟨past, hmem past (.inr hl), hc.trans hc'⟩)
    · exact .inr (.inl hc)
    · exact .inr (.inr ⟨past, hmem past (.inl hpast), hc⟩)

end Runs

/-! ### What is reported gone -/

/-- A step of a caller who brings only packages that are looked up by their identities. -/
def Proper (database : Path) (step : Step Provider Snapshot Data) : Prop :=
  step.kind = kind database .retain ∧ ∀ i, step.operation.brought? = some i → Keyed i

/-- What is held is as a run of proper steps leaves it. -/
structure Sound (e : Enumeration Snapshot Data) : Prop where
  wellFormed : e.WellFormed
  keyed : e.All Keyed

section Sound
variable {database : Path} {e e' : Enumeration Snapshot Data}

theorem Sound.empty : Sound { cache := [] } :=
  ⟨.empty [], All.empty _ []⟩

theorem Sound.run (h : Sound e) {steps : List (Step Provider Snapshot Data)}
    (hs : ∀ step ∈ steps, Proper database step) {history : List Event}
    (hv : (e.run steps).value = .ok (history, e')) : Sound e' where
  wellFormed := h.wellFormed.run hv
  keyed := h.keyed.run (fun step hstep => (hs step hstep).1 ▸ keeps_keyed database .retain)
    (fun step hstep => (hs step hstep).2) hv

theorem Sound.key_eq (h : Sound e) {id : Identity} {i : Instance Data} (hi : (id, i) ∈ e.held) :
    i.data.key = id.text :=
  (all_iff.1 h.keyed).2 (id, i) hi id (h.wellFormed.named (id, i) hi)

/-- An update from a database that can be read finds exactly the packages gone whose keys are not
in it. -/
theorem Sound.update (h : Sound e) (hp : e.phase = .initialized) {id : Identity}
    (hid : id ∈ e.ids) {host : Provider} {all : List Package}
    (hall : readAs (host.read database) PackageDatabase.read = .ok all) :
    ∃ r e' j, (e.update (kind database .retain) host true).value = .ok (.ok r, e') ∧
      e'.find? id = some j ∧
      j.failure = if id.text ∈ keys all then none else some (goneMessage id.text) := by
  obtain ⟨ids, hd⟩ := discover_eq_ok hall e.cache
  have hregular := kind_regular database .retain
  have hv := update_with_refresh hp hd (hregular.truthful host e.cache ids _ hd)
    fun i _ => hregular.faultless host _ i
  obtain ⟨i, hi⟩ := mem_ids.1 hid
  have hkept : (id, i) ∈ (e.reconciled (kind database .retain) host (snapshot all) ids).held :=
    List.mem_append_left _ hi
  have hm := List.mem_map_of_mem (f := fun entry : Identity × Instance Data =>
    (entry.1, ((kind database .retain).lookedAt host (snapshot all) entry.2).2)) hkept
  refine ⟨_, _, _, hv, (transition_update h.wellFormed hv).wellFormed.find?_eq_some hm, ?_⟩
  have hkey := h.key_eq hi
  show (((kind database .retain).lookedAt host (snapshot all) i).2).failure = _
  cases hf : (snapshot all).find? i.data.key with
  | some p =>
    obtain ⟨hp, hk⟩ := of_find?_snapshot hf
    have hin : id.text ∈ keys all := List.mem_map.2 ⟨p, hp, hk.trans hkey⟩
    rw [lookedAt_of_some hf, if_pos hin]
  | none =>
    have hout : id.text ∉ keys all := hkey ▸ find?_snapshot_eq_none.1 hf
    rw [lookedAt_of_none hf, if_neg hout, hkey]

end Sound

/-- The data of a package whose last look succeeded is that of a package under its key, in a
database that was listed. -/
theorem reported_of_run {database : Path} {steps : List (Step Provider Snapshot Data)}
    {step : Step Provider Snapshot Data} (hs : ∀ step' ∈ steps ++ [step], Proper database step')
    {history : List Event} {taken : List Handle} {e m : Enumeration Snapshot Data}
    (hv : (run { cache := [] } steps).value = .ok (history, e))
    (hm : (e.apply step).value = .ok (taken, m)) {id : Identity}
    (hlook : .update (.named id) ∈ (e.apply step).calls) {i : Instance Data}
    (hi : m.find? id = some i) (hok : i.failure = none) :
    Sound m ∧ ∃ past ∈ listings database (steps ++ [step]), ∃ p ∈ past,
      key past p = id.text ∧ i.data.info = Info.ofPackage p := by
  obtain ⟨history', hrun⟩ := run_concat hv hm
  have hsound : Sound m := Sound.empty.run hs hrun
  have hse : Sound e := Sound.empty.run (fun step' h => hs step' (List.mem_append_left _ h)) hv
  have hkind : ∀ step' ∈ steps ++ [step], step'.kind = kind database .retain :=
    fun step' h => (hs step' h).1
  obtain ⟨x, env, hx⟩ := refreshed_of_update_call hse.wellFormed hm hlook
  rw [hkind step (by simp)] at hx
  have hheld : (id, i) ∈ m.held := mem_held_of_find? hi
  obtain ⟨p, hf, hinfo⟩ : ∃ p, m.cache.find? i.data.key = some p ∧ i.data.info = Info.ofPackage p := by
    rw [hx] at hheld ⊢
    exact info_of_refreshed (e := x) hheld hok
  refine ⟨hsound, ?_⟩
  rcases cache_of_run hkind hrun with hc | hc | ⟨past, hpast, hc⟩
  · rw [hc] at hf
    cases hf
  · rw [hc] at hf
    cases hf
  · rw [hc] at hf
    obtain ⟨hp, hk⟩ := of_find?_snapshot hf
    exact ⟨past, hpast, p, hp, hk.trans (hsound.key_eq hheld), hinfo⟩

/-- **A package is reported gone exactly when its key is**, and the key may go while the stanza
stays: what was reported before is a package of a database listed by then, and a stanza of the same
name and architecture may still be there if other architectures of the name are in one of the two
databases only. -/
theorem gone_iff_key_gone {database : Path} {steps between : List (Step Provider Snapshot Data)}
    {step : Step Provider Snapshot Data}
    (hs : ∀ step' ∈ steps ++ [step], Proper database step')
    (hb : ∀ step' ∈ between, Proper database step') {history history' : List Event}
    {taken : List Handle} {e m m' : Enumeration Snapshot Data}
    (hv : (run { cache := [] } steps).value = .ok (history, e))
    (hm : (e.apply step).value = .ok (taken, m)) {id : Identity}
    (hlook : .update (.named id) ∈ (e.apply step).calls) {i : Instance Data}
    (hi : m.find? id = some i) (hok : i.failure = none)
    (hv' : (m.run between).value = .ok (history', m')) (hp : m'.phase = .initialized)
    (hid : id ∈ m'.ids) {host : Provider} {all : List Package}
    (hall : readAs (host.read database) PackageDatabase.read = .ok all) :
    ∃ r e' j, (m'.update (kind database .retain) host true).value = .ok (.ok r, e') ∧
      e'.find? id = some j ∧
      j.failure = (if id.text ∈ keys all then none else some s!"package {id.text} disappeared") ∧
      ∃ past ∈ listings database (steps ++ [step]),
        (∃ p ∈ past, key past p = id.text ∧ i.data.info = Info.ofPackage p) ∧
        (j.failure = some s!"package {id.text} disappeared" →
          ∀ q ∈ all, q.name = i.data.info.name → q.architecture = i.data.info.architecture →
            q.architecture ≠ "" ∧ isMultiArch past q ≠ isMultiArch all q) := by
  obtain ⟨hsm, past, hpast, p, hpp, hkey, hinfo⟩ := reported_of_run hs hv hm hlook hi hok
  obtain ⟨r, e', j, hu, hj, hf⟩ := (hsm.run hb hv').update hp hid hall
  refine ⟨r, e', j, hu, hj, hf, past, hpast, ⟨p, hpp, hkey, hinfo⟩, ?_⟩
  intro hgone q hq hn ha
  have hout : id.text ∉ keys all := by
    intro hin
    rw [hf, if_pos hin] at hgone
    cases hgone
  rw [hinfo] at hn ha
  refine isMultiArch_ne_of_key_ne fun hsame => hout ?_
  rw [key_congr past hn ha, hkey] at hsame
  exact List.mem_map.2 ⟨q, hq, hsame.symm⟩

/-- The stanza of one architecture of a package. -/
def stanza (name architecture : String) : String :=
  s!"Package: {name}\nStatus: install ok installed\nArchitecture: {architecture}\n\n"

/-- A host with a package database and nothing else. -/
def hostOf (database : Path) (text : String) : Provider :=
  (Tree.addFile {} database text).provider

/-- A second architecture goes, and the stanza of the first one changes its key. -/
theorem gone_iff_key_gone_single :
    let database : Path := ⟨"/var/lib/dpkg/status"⟩
    let k := kind database .retain
    let both := hostOf database (stanza "bash" "amd64" ++ stanza "bash" "i386")
    let one := hostOf database (stanza "bash" "amd64")
    let e : Enumeration Snapshot Data := { phase := .initialized, cache := [] }
    let step : Step Provider Snapshot Data := ⟨k, .update both true⟩
    let id : Identity := ⟨"bash:amd64"⟩
    let q : Package :=
      { name := "bash", status := "install ok installed", architecture := "amd64" }
    readAs (one.read database) PackageDatabase.read = .ok [q] ∧
    ∃ taken m, (e.apply step).value = .ok (taken, m) ∧
      ∃ r e' j, (m.update k one true).value = .ok (.ok r, e') ∧ e'.find? id = some j ∧
        j.failure = some "package bash:amd64 disappeared" ∧
        ∃ past ∈ listings database [⟨k, .init⟩, step],
          q.architecture ≠ "" ∧ isMultiArch past q ≠ isMultiArch [q] q := by
  intro database k both one e step id q
  have hv : (run { cache := [] } [⟨k, .init⟩]).value = .ok ([], e) := rfl
  have hall : readAs (one.read database) PackageDatabase.read = .ok [q] := by decide +kernel
  have hlook : Call.update (.named id) ∈ (e.apply step).calls := by decide +kernel
  have hread : ((e.apply step).value.toOption.map fun x => (x.2.phase, x.2.find? id)) =
      some (.initialized, some { subject := .named id, data := ⟨id.text, .ofPackage q⟩ }) := by
    decide +kernel
  have hout : id.text ∉ keys [q] := by decide +kernel
  have hproper : ∀ step' ∈ [⟨k, .init⟩] ++ [step], Proper database step' := by
    simp [Proper, step, k, Operation.brought?]
  refine ⟨hall, ?_⟩
  cases hm : (e.apply step).value with
  | error fault =>
    rw [hm] at hread
    cases hread
  | ok x =>
    rw [hm] at hread
    obtain ⟨hp, hi⟩ := Prod.mk.inj (Option.some.inj hread)
    have hid : id ∈ x.2.ids := find?_isSome.1 (by rw [hi]; rfl)
    have hnil : (run x.2 ([] : List (Step Provider Snapshot Data))).value = .ok ([], x.2) := rfl
    obtain ⟨r, e', j, hu, hj, hf, past, hpast, -, hmulti⟩ :=
      gone_iff_key_gone hproper (List.forall_mem_nil _) hv hm hlook hi rfl hnil hp hid hall
    rw [if_neg hout] at hf
    exact ⟨x.1, x.2, rfl, r, e', j, hu, hj, hf, past, hpast,
      hmulti hf q (List.mem_singleton_self q) rfl rfl⟩

/-- A second architecture comes, and the package is reported gone while its stanza stays. -/
theorem gone_while_stanza_stays :
    let database : Path := ⟨"/var/lib/dpkg/status"⟩
    let k := kind database .retain
    let steps : List (Step Provider Snapshot Data) :=
      [⟨k, .init⟩, ⟨k, .update (hostOf database (stanza "bash" "amd64")) true⟩]
    let text := stanza "bash" "amd64" ++ stanza "bash" "i386"
    let held (steps : List (Step Provider Snapshot Data)) :=
      (run { cache := [] } steps).value.toOption.bind fun x => x.2.find? ⟨"bash"⟩
    let bash : Instance Data := {
      subject := .named ⟨"bash"⟩
      data := ⟨"bash", { name := "bash", architecture := "amd64", installed := true }⟩ }
    held steps = some bash ∧
      held (steps ++ [⟨k, .update (hostOf database text) true⟩]) =
        some { bash with failure := some "package bash disappeared" } ∧
      ∃ q ∈ (PackageDatabase.read text).toOption.getD [],
        q.name = "bash" ∧ q.architecture = "amd64" := by
  decide +kernel

end HostInventory.Software
