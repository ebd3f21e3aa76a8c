import HostInventory.Proofs.Enumeration.CleanedUp
import HostInventory.Proofs.Kind.Software
import Mathlib.Data.List.Induction

/-! What is reported of packages.

A listing goes through the stanzas once. It notes the keys of installed packages as it meets
them (`discover_of_read`), and for each key the package that counts: the first that is
installed, or else the first (`find?_snapshot`). Instances are refreshed from what was noted, so
what is reported is installed exactly when it was listed, and the file may change meanwhile
(`reported_from_listing`). -/
namespace HostInventory.Software

open Enumeration FileTree Format

/-- The stanza is that of an installed package under the key. -/
def installedAs (all : List Package) (key : String) (p : Package) : Bool :=
  p.isInstalled && Software.key all p = key

/-- The stanza that counts for a key: the first installed one, or else the first. -/
def chosen (all : List Package) (key : String) : Option Package :=
  (all.find? (installedAs all key)).or (all.find? fun p => Software.key all p = key)

/-- The place of the first installed stanza for a key. -/
def firstInstalled (all : List Package) (key : String) : Nat :=
  all.findIdx (installedAs all key)

/-- The identities are the keys of the installed packages, in the order of their first installed
stanzas. -/
structure ListsInstalled (all : List Package) (ids : List Identity) : Prop where
  mem : ∀ id, id ∈ ids ↔ ∃ p ∈ all, p.isInstalled = true ∧ key all p = id.text
  nodup : ids.Nodup
  ordered : ids.Pairwise fun a b => firstInstalled all a.text < firstInstalled all b.text

/-- A package is described as its stanza states it, and is installed by the one status that says
so. -/
structure States (q : Package) (info : Info) : Prop where
  name : info.name = q.name
  version : info.version = q.version
  architecture : info.architecture = q.architecture
  maintainer : info.maintainer = q.maintainer
  installedSize : info.installedSize = q.installedSize
  summary : info.summary = q.summary
  installed : info.installed = true ↔ q.status = "install ok installed"

/-- What is said of a package is what the stanzas say of its key. -/
structure Reported (all : List Package) (ids : List Identity) (i : Instance Data) : Prop where
  /-- It is gone when no stanza has its key. -/
  gone : i.failure = some s!"package {i.data.key} disappeared" ↔ ∀ p ∈ all, key all p ≠ i.data.key
  /-- Otherwise it is as the stanza says that counts. -/
  found : ∀ p ∈ all, key all p = i.data.key → i.failure = none ∧
    ∃ q, chosen all i.data.key = some q ∧ States q i.data.info
  /-- So it is installed exactly when it was listed. -/
  installed : i.failure = none → (i.data.info.installed = true ↔ ⟨i.data.key⟩ ∈ ids)

theorem states_ofPackage (q : Package) : States q (Info.ofPackage q) where
  name := rfl
  version := rfl
  architecture := rfl
  maintainer := rfl
  installedSize := rfl
  summary := rfl
  installed := decide_eq_true_iff

/-! ### What is listed -/

section Scan
variable {f : Package → String} {ps : List Package}

/-- The listing of stanzas by their keys. -/
def scan (f : Package → String) (ps : List Package) : Listing :=
  ps.foldl (fun l p => l.add (f p, p)) {}

theorem scan_concat (p : Package) : scan f (ps ++ [p]) = (scan f ps).add (f p, p) := by
  rw [scan, List.foldl_append]
  rfl

/-- An installed package is listed unless its key is. -/
theorem listed_add (l : Listing) (key : String) (p : Package) :
    (p.isInstalled = true ∧ ⟨key⟩ ∉ l.listed ∧ (l.add (key, p)).listed = ⟨key⟩ :: l.listed) ∨
      ((p.isInstalled = true → ⟨key⟩ ∈ l.listed) ∧ (l.add (key, p)).listed = l.listed) := by
  have hadd : (l.add (key, p)).listed =
      if p.isInstalled && !l.listed.contains ⟨key⟩ then ⟨key⟩ :: l.listed else l.listed := rfl
  rw [hadd]
  by_cases hp : p.isInstalled = true
  · by_cases hkey : ⟨key⟩ ∈ l.listed
    · exact .inr ⟨fun _ => hkey, if_neg (by simp [hkey])⟩
    · exact .inl ⟨hp, hkey, if_pos (by simp [hp, hkey])⟩
  · exact .inr ⟨fun h => absurd h hp, if_neg (by simp [hp])⟩

theorem mem_listed_scan {id : Identity} :
    id ∈ (scan f ps).listed ↔ ∃ p ∈ ps, p.isInstalled = true ∧ f p = id.text := by
  induction ps using List.reverseRecOn with
  | nil => simp [scan]
  | append_singleton ps p ih =>
    have hlast : (∃ q ∈ ps ++ [p], q.isInstalled = true ∧ f q = id.text) ↔
        id ∈ (scan f ps).listed ∨ p.isInstalled = true ∧ f p = id.text := by
      rw [ih]
      simp only [List.mem_append, List.mem_singleton, or_and_right, exists_or, exists_eq_left]
    have hid : f p = id.text ↔ id = ⟨f p⟩ := by
      cases id
      rw [Identity.mk.injEq, eq_comm]
    rw [scan_concat, hlast, hid]
    obtain ⟨hp, -, hl⟩ | ⟨hp, hl⟩ := listed_add (scan f ps) (f p) p
    · rw [hl, List.mem_cons, or_comm]
      exact or_congr_right (iff_and_self.2 fun _ => hp)
    · rw [hl]
      refine (or_iff_left_of_imp ?_).symm
      rintro ⟨hinstalled, rfl⟩
      exact hp hinstalled

/-- What was met later is listed later; the listing has the last one first. -/
theorem pairwise_listed_scan (f : Package → String) (ps : List Package) :
    (scan f ps).listed.Pairwise fun a b =>
      ps.findIdx (fun p => p.isInstalled && f p = b.text) <
        ps.findIdx (fun p => p.isInstalled && f p = a.text) := by
  induction ps using List.reverseRecOn with
  | nil => exact List.Pairwise.nil
  | append_singleton ps p ih =>
    -- One more stanza does not move those that have been met.
    have hbefore : ∀ id ∈ (scan f ps).listed,
        ps.findIdx (fun p => p.isInstalled && f p = id.text) < ps.length ∧
          (ps ++ [p]).findIdx (fun p => p.isInstalled && f p = id.text) =
            ps.findIdx (fun p => p.isInstalled && f p = id.text) := by
      intro id hid
      obtain ⟨q, hq, hinstalled, hkey⟩ := mem_listed_scan.1 hid
      have hlt := List.findIdx_lt_length_of_exists (p := fun p => p.isInstalled && f p = id.text)
        ⟨q, hq, by simp [hinstalled, hkey]⟩
      exact ⟨hlt, by rw [List.findIdx_append, if_pos hlt]⟩
    have hsame : (scan f ps).listed.Pairwise fun a b =>
        (ps ++ [p]).findIdx (fun p => p.isInstalled && f p = b.text) <
          (ps ++ [p]).findIdx (fun p => p.isInstalled && f p = a.text) :=
      ih.imp_of_mem fun {a b} ha hb hlt => by rwa [(hbefore a ha).2, (hbefore b hb).2]
    rw [scan_concat]
    obtain ⟨-, hnew, hl⟩ | ⟨-, hl⟩ := listed_add (scan f ps) (f p) p
    · rw [hl]
      refine List.pairwise_cons.2 ⟨fun b hb => ?_, hsame⟩
      have hnone : ps.findIdx (fun q => q.isInstalled && f q = f p) = ps.length := by
        refine List.findIdx_eq_length_of_false fun q hq => ?_
        rw [mem_listed_scan, not_exists] at hnew
        simpa [hq] using hnew q
      have hlast : ps.length ≤ (ps ++ [p]).findIdx (fun q => q.isInstalled && f q = f p) := by
        rw [List.findIdx_append, hnone, if_neg (Nat.lt_irrefl _)]
        exact Nat.le_add_left _ _
      rw [(hbefore b hb).2]
      exact Nat.lt_of_lt_of_le (hbefore b hb).1 hlast
    · rw [hl]
      exact hsame

end Scan

/-- The keys of installed packages are listed, and with them the snapshot is kept. -/
theorem discover_of_read {database : Path} {host : Provider} {all : List Package}
    (h : readAs (host.read database) PackageDatabase.read = .ok all) (last : Snapshot) :
    ∃ ids, (discover database host last).value = .ok (ids, snapshot all) ∧
      ListsInstalled all ids := by
  have hscan : ((keys all).zip all).foldl Listing.add {} = scan (key all) all := by
    rw [keys, ← List.map_prod_right_eq_zip, List.foldl_map]
    rfl
  obtain ⟨ids, hd⟩ := discover_eq_ok h last
  have hids : (scan (key all) all).listed.reverse = ids := by
    rw [discover, h] at hd
    rw [← hscan]
    exact (Prod.mk.inj (Except.ok.inj hd)).1
  have hordered := List.pairwise_reverse.2 (pairwise_listed_scan (key all) all)
  refine ⟨ids, hd, ?_, ?_, ?_⟩
  · intro id
    rw [← hids, List.mem_reverse]
    exact mem_listed_scan
  · rw [← hids, List.nodup_iff_pairwise_ne]
    refine hordered.imp fun hlt heq => ?_
    rw [heq] at hlt
    exact Nat.lt_irrefl _ hlt
  · rw [← hids]
    exact hordered

/-! ### What is noted for a key -/

/-- An installed package takes the place of one that is not. -/
theorem find?_add (s : Snapshot) (key' key : String) (p : Package) :
    (s.add key' p).find? key = if key' = key then
      some (match s.find? key with
        | none => p
        | some q => if p.isInstalled && !q.isInstalled then p else q)
    else s.find? key := by
  induction s with
  | nil =>
    by_cases hk : key' = key
    · simp [Snapshot.add, Snapshot.find?, hk]
    · simp [Snapshot.add, Snapshot.find?, hk, Ne.symm hk]
  | cons entry rest ih =>
    obtain ⟨first, q⟩ := entry
    simp only [Snapshot.find?] at ih ⊢
    unfold Snapshot.add
    by_cases hfirst : first = key'
    · subst hfirst
      by_cases hk : first = key
      · subst hk
        simp only [if_true, List.lookup_cons_self]
        split <;> rw [List.lookup_cons_self]
      · have hne : (key == first) = false := beq_eq_false_iff_ne.2 (Ne.symm hk)
        simp only [if_true, if_neg hk, List.lookup_cons, hne]
        split <;> simp only [List.lookup_cons, hne]
    · simp only [if_neg hfirst, List.lookup_cons]
      cases hkey : key == first with
      | false => exact ih
      | true =>
        have hne : key' ≠ key := fun heq => hfirst (by rw [heq, beq_iff_eq.1 hkey])
        rw [if_neg hne]

/-- What is noted for a key is the stanza that counts. -/
theorem find?_foldl_add (f : Package → String) (ps : List Package) (key : String) :
    Snapshot.find? (ps.foldl (fun s p => Snapshot.add s (f p) p) []) key =
      (ps.find? fun p => p.isInstalled && f p = key).or (ps.find? fun p => f p = key) := by
  induction ps using List.reverseRecOn with
  | nil => rfl
  | append_singleton ps p ih =>
    rw [List.foldl_append, List.foldl_cons, List.foldl_nil, find?_add, ih, List.find?_append,
      List.find?_append]
    by_cases hk : f p = key
    · rw [if_pos hk]
      cases hinstalled : ps.find? fun p => p.isInstalled && f p = key with
      | some q =>
        have hfound := List.find?_some hinstalled
        have hq : q.isInstalled = true := (Bool.and_eq_true_iff.1 hfound).1
        simp [hq]
      | none =>
        cases hany : ps.find? fun p => f p = key with
        | none => cases hp : p.isInstalled <;> simp [hk, hp]
        | some q =>
          have hq : q.isInstalled = false := by
            have hnot := List.find?_eq_none.1 hinstalled q (List.mem_of_find?_eq_some hany)
            have hkey := List.find?_some hany
            rwa [hkey, Bool.and_true, Bool.not_eq_true] at hnot
          cases hp : p.isInstalled <;> simp [hk, hp, hq]
    · rw [if_neg hk]
      simp [hk]

theorem find?_snapshot (all : List Package) (key : String) :
    (snapshot all).find? key = chosen all key :=
  find?_foldl_add (Software.key all) all key

/-- The stanza that counts for a key is one with that key, installed if one of them is. -/
theorem isInstalled_chosen {all : List Package} {key : String} {q : Package}
    (h : chosen all key = some q) :
    q.isInstalled = true ↔ ∃ p ∈ all, p.isInstalled = true ∧ Software.key all p = key := by
  constructor
  · intro hq
    obtain ⟨hmem, hkey⟩ := of_find?_snapshot ((find?_snapshot all key).trans h)
    exact ⟨q, hmem, hq, hkey⟩
  · rintro ⟨p, hmem, hp, hkey⟩
    have hsome : (all.find? (installedAs all key)).isSome = true :=
      List.find?_isSome.2 ⟨p, hmem, by simp [installedAs, hp, hkey]⟩
    obtain ⟨first, hfirst⟩ := Option.isSome_iff_exists.1 hsome
    rw [chosen, hfirst, Option.some_or] at h
    have hinstalled := List.find?_some hfirst
    rw [Option.some.inj h, installedAs, Bool.and_eq_true] at hinstalled
    exact hinstalled.1

/-! ### What is reported -/

section Reports
variable {database : Path} {policy : RemovalPolicy} {all : List Package} {ids : List Identity}
  {e m : Enumeration Snapshot Data}

/-- A look at an instance says what the listed stanzas say, whatever the file is by then. -/
theorem reported_lookedAt (hids : ListsInstalled all ids) (host : Provider) (i : Instance Data) :
    Reported all ids ((kind database policy).lookedAt host (snapshot all) i).2 := by
  cases hc : chosen all i.data.key with
  | some q =>
    have hf := (find?_snapshot all i.data.key).trans hc
    obtain ⟨hq, hkey⟩ := of_find?_snapshot hf
    rw [lookedAt_of_some hf]
    refine ⟨?_, fun _ _ _ => ⟨rfl, q, hc, states_ofPackage q⟩, fun _ => ?_⟩
    · exact ⟨nofun, fun h => absurd hkey (h q hq)⟩
    · rw [hids.mem]
      exact isInstalled_chosen hc
  | none =>
    have hf := (find?_snapshot all i.data.key).trans hc
    have hnone : ∀ p ∈ all, key all p ≠ i.data.key := fun p hp hkey =>
      find?_snapshot_eq_none.1 hf (List.mem_map.2 ⟨p, hp, hkey⟩)
    rw [lookedAt_of_none hf]
    exact ⟨⟨fun _ => hnone, fun _ => rfl⟩, fun p hp hkey => absurd hkey (hnone p hp), nofun⟩

theorem reported_refreshed (hids : ListsInstalled all ids) (hc : e.cache = snapshot all)
    (host : Provider) : ∀ i ∈ (e.refreshed (kind database policy) host).instances,
      Reported all ids i := by
  intro i hi
  obtain ⟨old, -, rfl⟩ := mem_instances_refreshed hi
  rw [hc]
  exact reported_lookedAt hids host old

/-- A listing that succeeds leaves its snapshot. -/
theorem cache_of_listed {operation : Operation Provider Data} {taken : List Handle}
    (hl : listed? database operation = some all)
    (hv : (e.apply ⟨kind database policy, operation⟩).value = .ok (taken, m)) :
    m.cache = snapshot all := by
  rcases cache_of_apply hv with ⟨rfl, -⟩ | hc
  · cases hl
  · rw [hc, hl]
    rfl

/-- The snapshot stays until another listing succeeds. -/
theorem cache_of_unlisted {steps : List (Step Provider Snapshot Data)}
    (hk : ∀ step ∈ steps, step.kind = kind database policy) (hl : listings database steps = [])
    {history : List Event} (hv : (e.run steps).value = .ok (history, m))
    (hp : m.phase = .initialized) : m.cache = e.cache := by
  induction steps generalizing e history with
  | nil =>
    obtain ⟨rfl, rfl⟩ := Prod.mk.inj (Except.ok.inj hv)
    rfl
  | cons step rest ih =>
    obtain ⟨k, operation⟩ := step
    obtain ⟨rfl, hrest⟩ := List.forall_mem_cons.1 hk
    obtain ⟨taken, m', history', hm, hr, -⟩ := run_cons_cases hv
    have hunlisted : listed? database operation = none ∧ listings database rest = [] := by
      cases hop : listed? database operation with
      | none => exact ⟨rfl, by simpa [listings, hop] using hl⟩
      | some past => simp [listings, hop] at hl
    rw [ih hrest hunlisted.2 hr]
    rcases cache_of_apply hm with ⟨-, rfl⟩ | hc
    · -- A cleanup is not undone.
      have hspent : Spent m := Spent.run ⟨rfl, rfl⟩ hr
      rw [hspent.phase] at hp
      cases hp
    · rw [hc, hunlisted.1]
      rfl

/-- **What is reported of packages is what the last listing read.** Each held package is reported
as the stanza that counts for its key (`Reported`), and only those are listed whose key an installed
stanza has. Until another listing succeeds every refresh says the same, however the file changes. -/
theorem reported_from_listing (hp : e.phase = .initialized) {host : Provider} {text : String}
    (htext : host.read database = .ok text) (hparse : PackageDatabase.read text = .ok all) :
    ∃ ids cache r e',
      ((kind database policy).discover host e.cache).value = .ok (ids, cache) ∧
      ListsInstalled all ids ∧
      (e.update (kind database policy) host true).value = .ok (.ok r, e') ∧
      (∀ i ∈ e'.instances, Reported all ids i) ∧
      ∀ operation, listed? database operation = some all →
        ∀ steps, (∀ step ∈ steps, step.kind = kind database policy) →
          listings database steps = [] → ∀ history m,
          (e.run (⟨kind database policy, operation⟩ :: steps)).value = .ok (history, m) →
          m.phase = .initialized → ∃ count m',
            (∀ later : Provider,
              (m.updateInstances (kind database policy) later).value = .ok (count, m')) ∧
            ∀ i ∈ m'.instances, Reported all ids i := by
  have hall : readAs (host.read database) PackageDatabase.read = .ok all := by
    rw [htext, readAs, hparse]
    rfl
  obtain ⟨ids, hd, hids⟩ := discover_of_read hall e.cache
  have hregular := kind_regular database policy
  have hv := update_with_refresh hp hd (hregular.truthful host e.cache ids _ hd)
    fun i _ => hregular.faultless host _ i
  refine ⟨ids, snapshot all, _, _, hd, hids, hv, reported_refreshed hids rfl host, ?_⟩
  intro operation hl steps hk hunlisted history m hrun hp'
  obtain ⟨taken, m₀, history', hm, hr, -⟩ := run_cons_cases hrun
  have hcache : m.cache = snapshot all :=
    (cache_of_unlisted hk hunlisted hr hp').trans (cache_of_listed hl hm)
  -- A refresh asks no host, so its result on one host is that on any.
  have hrefresh : ∀ later : Provider, (m.updateInstances (kind database policy) later).value =
      .ok (m.refreshCount (kind database policy) host, m.refreshed (kind database policy) host) :=
    fun later => (updateInstances_eq hp' fun i _ => hregular.faultless later m.cache i).1
  exact ⟨_, _, hrefresh, reported_refreshed hids hcache host⟩

end Reports

/-- What was left of a tool, two stanzas of it as installed, and what was left of another. -/
def leftovers : List Package :=
  [{ name := "tool", status := "deinstall ok config-files", version := "1" },
    { name := "tool", status := "install ok installed", version := "2" },
    { name := "tool", status := "install ok installed", version := "3" },
    { name := "other", status := "deinstall ok config-files", version := "4" }]

def leftoversText : String :=
  String.join (leftovers.map fun p =>
    s!"Package: {p.name}\nStatus: {p.status}\nVersion: {p.version}\n\n")

/-- One of three held packages is listed, one is left over and one is gone. -/
theorem reported_from_listing_leftovers :
    let database : Path := ⟨"/var/lib/dpkg/status"⟩
    let k := kind database .retain
    let host := hostOf database leftoversText
    let e : Enumeration Snapshot Data :=
      { phase := .initialized, cache := []
        held := ["tool", "other", "third"].map fun name => (⟨name⟩, instantiate ⟨name⟩) }
    host.read database = .ok leftoversText ∧
      PackageDatabase.read leftoversText = .ok leftovers ∧
      ∃ ids r e', ListsInstalled leftovers ids ∧ (e.update k host true).value = .ok (.ok r, e') ∧
        ∀ i ∈ e'.instances, Reported leftovers ids i := by
  intro database k host e
  have htext : host.read database = .ok leftoversText := by decide +kernel
  have hparse : PackageDatabase.read leftoversText = .ok leftovers := by decide +kernel
  obtain ⟨ids, cache, r, e', -, hids, hv, hreported, -⟩ :=
    @reported_from_listing database .retain leftovers e rfl host leftoversText htext hparse
  exact ⟨htext, hparse, ids, r, e', hids, hv, hreported⟩

end HostInventory.Software
