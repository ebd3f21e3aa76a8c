import HostInventory.FileTree.Scenario
import HostInventory.Proofs.FileTree.Listing

/-! Trees that hang together.

Files and directories are two tables that know nothing of each other, and each edit changes
them under the spelling it is given. Still every edit keeps what lies above a file or a
directory a directory (`Closed.apply`): adding adds what is above, and what is removed takes all
below with it. So the three ways to ask a tree agree at any time (`coherent_of_run`). -/
namespace HostInventory.FileTree

namespace Table

variable {α : Type} {t : Table α} {p q : Path}

theorem contains_iff : t.contains p = true ↔ ∃ q ∈ t.paths, q.same p = true := by
  simp [contains, paths]

theorem contains_congr (h : p.same q = true) : t.contains p = t.contains q := by
  rw [← find?_isSome, ← find?_isSome, find?_congr t h]

theorem contains_insert {a : α} :
    (t.insert p a).contains q = true ↔ t.contains q = true ∨ p.same q = true := by
  rw [← find?_isSome, ← find?_isSome]
  cases h : p.same q with
  | true => simp [← find?_congr _ h, find?_insert_self]
  | false => simp [find?_insert_of_not_same t h]

theorem contains_of_erase (h : (t.erase p).contains q = true) : t.contains q = true := by
  obtain ⟨entry, hm, hsame⟩ := List.any_eq_true.1 h
  exact List.any_eq_true.2 ⟨entry, (List.mem_filter.1 hm).1, hsame⟩

theorem contains_eraseBelow : (t.eraseBelow p).contains q = true ↔
    t.contains q = true ∧ q.isAtOrBelow p = false := by
  rw [← find?_isSome, ← find?_isSome]
  cases h : q.isAtOrBelow p with
  | true => simp [find?_eraseBelow_of_isAtOrBelow t h]
  | false => simp [find?_eraseBelow_of_not_isAtOrBelow t h]

theorem contains_foldl_insert {ps : List Path} {ds : Table Unit} :
    (ps.foldl (fun ds q => ds.insert q ()) ds).contains q = true ↔
      ds.contains q = true ∨ ∃ a ∈ ps, a.same q = true := by
  induction ps generalizing ds with
  | nil => simp
  | cons a rest ih => rw [List.foldl_cons, ih, contains_insert, List.exists_mem_cons_iff, or_assoc]

end Table

namespace Path

variable {p q r : Path}

theorem isAbove_congr (h : p.same q = true) (r : Path) : r.isAbove p = r.isAbove q := by
  rw [Bool.eq_iff_iff, isAbove_iff, isAbove_iff, same_iff.1 h]

theorem isAbove_trans (h : p.isAbove q = true) (h' : q.isAbove r = true) : p.isAbove r = true := by
  rw [isAbove_iff] at h h' ⊢
  refine ⟨h.1.trans h'.1, fun heq => h'.2 ?_⟩
  rw [heq] at h
  exact h'.1.eq_of_length_le h.1.length_le

/-- What lies below something at or below a path is below the path. -/
theorem isAtOrBelow_of_isAbove {top : Path} (h : q.isAbove p = true)
    (hq : q.isAtOrBelow top = true) : p.isAtOrBelow top = true :=
  isAtOrBelow_iff.2 ((isAtOrBelow_iff.1 hq).trans (isAbove_iff.1 h).1)

/-- A path lies above those one step below it. -/
theorem isAbove_of_isChild (h : Tree.isChild q p = true) : q.isAbove p = true := by
  obtain ⟨c, -, hp⟩ := isChild_iff.1 h
  rw [isAbove_iff, hp]
  exact ⟨List.prefix_append _ _, fun heq => by simpa using congrArg List.length heq⟩

end Path

namespace Tree

variable {t : Tree} {p q : Path}

theorem contains_iff :
    t.contains p = true ↔ t.files.contains p = true ∨ t.directories.contains p = true :=
  Bool.or_eq_true_iff

/-- Adding adds the directories above, under whatever spelling. -/
theorem directories_addAbove : (t.addAbove p).directories.contains q = true ↔
    t.directories.contains q = true ∨ q.isAbove p = true ∧ q.spelling ≠ "" := by
  have habove : (∃ a ∈ p.ancestors.filter (·.spelling ≠ ""), a.same q = true) ↔
      q.isAbove p = true ∧ q.spelling ≠ "" := by
    have hempty : ∀ a : Path, a.same q = true → (a.spelling ≠ "" ↔ q.spelling ≠ "") := fun a ha => by
      rw [ne_eq, ne_eq, ← Path.components_eq_nil, ← Path.components_eq_nil, Path.same_iff.1 ha]
    constructor
    · rintro ⟨a, ha, hsame⟩
      obtain ⟨ha, hspelled⟩ := List.mem_filter.1 ha
      have hq : q.spelling ≠ "" := (hempty a hsame).1 (of_decide_eq_true hspelled)
      exact ⟨(Path.exists_ancestor_iff (mt Path.components_eq_nil.1 hq)).1 ⟨a, ha, hsame⟩, hq⟩
    · rintro ⟨hq, hspelled⟩
      obtain ⟨a, ha, hsame⟩ :=
        (Path.exists_ancestor_iff (mt Path.components_eq_nil.1 hspelled)).2 hq
      exact ⟨a, List.mem_filter.2 ⟨ha, decide_eq_true ((hempty a hsame).2 hspelled)⟩, hsame⟩
  rw [← habove]
  exact Table.contains_foldl_insert

theorem contains_addFile {text : String} : (t.addFile p text).contains q = true ↔
    t.contains q = true ∨ p.same q = true ∨ q.isAbove p = true ∧ q.spelling ≠ "" := by
  rw [contains_iff, contains_iff, addFile, directories_addAbove, Table.contains_insert]
  tauto

theorem directories_addDirectory : (t.addDirectory p).directories.contains q = true ↔
    t.directories.contains q = true ∨ p.same q = true ∨ q.isAbove p = true ∧ q.spelling ≠ "" := by
  rw [addDirectory, Table.contains_insert, directories_addAbove]
  tauto

theorem contains_addDirectory : (t.addDirectory p).contains q = true ↔
    t.contains q = true ∨ p.same q = true ∨ q.isAbove p = true ∧ q.spelling ≠ "" := by
  rw [contains_iff, contains_iff, directories_addDirectory]
  tauto

theorem contains_removeDirectory : (t.removeDirectory p).contains q = true ↔
    t.contains q = true ∧ q.isAtOrBelow p = false := by
  rw [contains_iff, contains_iff, removeDirectory, Table.contains_eraseBelow,
    Table.contains_eraseBelow]
  tauto

/-! ### What lies above what exists -/

/-- What lies above a file or a directory is a directory, but for the empty path. -/
def Closed (t : Tree) : Prop :=
  ∀ p q, t.contains p = true → q.isAbove p = true → q.spelling ≠ "" →
    t.directories.contains q = true

theorem Closed.empty : Closed {} :=
  nofun

/-- Adding a path and the directories above it. -/
theorem Closed.of_added {t' : Tree} (h : t.Closed)
    (hall : ∀ x, t'.contains x = true →
      t.contains x = true ∨ p.same x = true ∨ x.isAbove p = true ∧ x.spelling ≠ "")
    (habove : ∀ x, t.directories.contains x = true ∨ x.isAbove p = true ∧ x.spelling ≠ "" →
      t'.directories.contains x = true) : t'.Closed := by
  intro x q hx hq hspelled
  rcases hall x hx with hx | hx | ⟨hx, -⟩
  · exact habove q (.inl (h x q hx hq hspelled))
  · exact habove q (.inr ⟨(Path.isAbove_congr hx q).trans hq, hspelled⟩)
  · exact habove q (.inr ⟨Path.isAbove_trans hq hx, hspelled⟩)

/-- Every edit keeps it. -/
theorem Closed.apply (h : t.Closed) (edit : Edit) : (t.apply edit).Closed := by
  cases edit with
  | addFile p text =>
    exact h.of_added (fun _ => contains_addFile.1) fun _ => directories_addAbove.2
  | addDirectory p =>
    refine h.of_added (fun _ => contains_addDirectory.1) fun x hx => ?_
    exact directories_addDirectory.2 (hx.imp_right .inr)
  | removeFile p =>
    intro x q hx
    refine h x q (contains_iff.2 ((contains_iff.1 hx).imp_left ?_))
    exact Table.contains_of_erase
  | removeDirectory p =>
    -- What stays does not lie below the directory, so nothing above it does either.
    intro x q hx hq hspelled
    obtain ⟨hx, hkept⟩ := contains_removeDirectory.1 hx
    refine Table.contains_eraseBelow.2 ⟨h x q hx hq hspelled, Bool.eq_false_iff.2 fun hbelow => ?_⟩
    exact Bool.eq_false_iff.1 hkept (Path.isAtOrBelow_of_isAbove hq hbelow)
  | setSpace p space => exact h
  | clearSpace p => exact h

theorem Closed.run (h : t.Closed) (edits : List Edit) : (t.run edits).Closed := by
  induction edits generalizing t with
  | nil => exact h
  | cons edit rest ih => exact ih (h.apply edit)

/-! ### The answers of a tree -/

/-- The children of a directory before they are put into order. -/
def children (t : Tree) (p : Path) : List Path :=
  t.files.paths.filter (isChild p) ++
    t.directories.paths.filter fun q => isChild p q && !q.same p

theorem list_eq_ok {listing : List Path} : t.list p = .ok listing ↔
    t.directories.contains p = true ∧ listing = ordered (t.children p) := by
  unfold list
  split
  · next h => simp only [h, true_and, Except.ok.injEq, ordered, children, eq_comm]
  · next h => simp only [h, false_and, reduceCtorEq]

theorem isOk_read_iff : (t.read p).isOk = true ↔ t.files.contains p = true := by
  rw [← Table.find?_isSome, read]
  cases t.files.find? p <;> simp [Except.isOk, Except.toBool]

theorem isOk_list_iff : (t.list p).isOk = true ↔ t.directories.contains p = true := by
  unfold list
  split <;> simp_all [Except.isOk, Except.toBool]

/-- A child lies strictly below, so no directory is among its own children. -/
theorem mem_children : q ∈ t.children p ↔
    isChild p q = true ∧ (q ∈ t.files.paths ∨ q ∈ t.directories.paths) := by
  have hself : isChild p q = true → q.same p = false := fun h => by
    have habove := Path.isAbove_of_isChild h
    rw [Path.isAbove, Bool.and_eq_true, Bool.not_eq_true'] at habove
    exact habove.2
  rw [children, List.mem_append, List.mem_filter, List.mem_filter, Bool.and_eq_true,
    Bool.not_eq_true']
  tauto

/-- What exists is in one of the tables, perhaps under another spelling. -/
theorem contains_iff_paths : t.contains p = true ↔
    ∃ q, (q ∈ t.files.paths ∨ q ∈ t.directories.paths) ∧ q.same p = true := by
  rw [contains_iff, Table.contains_iff, Table.contains_iff, ← exists_or]
  exact exists_congr fun q => or_and_right.symm

/-- A directory lists the places one step below it that exist. -/
theorem exists_mem_list_iff {listing : List Path} (h : t.list q = .ok listing) :
    (∃ r ∈ listing, r.same p = true) ↔ t.contains p = true ∧ isChild q p = true := by
  obtain ⟨-, rfl⟩ := list_eq_ok.1 h
  have hrespelled : ∀ {r}, r.same p = true → (isChild q r = true ↔ isChild q p = true) :=
    fun hr => by rw [Path.isChild_iff, Path.isChild_iff, Path.same_iff.1 hr]
  constructor
  · rintro ⟨r, hr, hsame⟩
    obtain ⟨hchild, hexists⟩ := mem_children.1 (mem_of_mem_ordered hr)
    exact ⟨contains_iff_paths.2 ⟨r, hexists, hsame⟩, (hrespelled hsame).1 hchild⟩
  · rintro ⟨hexists, hchild⟩
    obtain ⟨r, hr, hsame⟩ := contains_iff_paths.1 hexists
    obtain ⟨r', hr', hsame'⟩ :=
      exists_mem_ordered (mem_children.2 ⟨(hrespelled hsame).2 hchild, hr⟩)
    exact ⟨r', hr', Path.same_trans hsame' hsame⟩

theorem exists_parent_iff : isChild q p = true ↔
    ∃ parent, p.parent = some parent ∧ parent.same q = true := by
  unfold isChild
  cases p.parent <;> simp

/-- Who can read a file in one of the directories below a directory finds its name in the
listing. -/
theorem Closed.mem_fileNames {top : Path} {listing : List Path} (h : t.Closed)
    (hlist : t.list top = .ok listing) {name item text : String} (hname : Path.Plain name)
    (hitem : Path.Plain item) (hread : t.read (top / ⟨name⟩ / ⟨item⟩) = .ok text) :
    name ∈ listing.filterMap Path.fileName := by
  have hcomponents := Path.components_div hname top
  have hbelow := Path.components_div hitem (top / (⟨name⟩ : Path))
  have hentry : isChild top (top / ⟨name⟩) = true :=
    Path.isChild_iff.2 ⟨_, Component.noConfusion, hcomponents⟩
  have hfile : isChild (top / ⟨name⟩) (top / ⟨name⟩ / ⟨item⟩) = true :=
    Path.isChild_iff.2 ⟨_, Component.noConfusion, hbelow⟩
  have hspelled : (top / (⟨name⟩ : Path)).spelling ≠ "" := by
    rw [ne_eq, ← Path.components_eq_nil, hcomponents]
    exact List.concat_ne_nil _ _
  have hcontains : t.contains (top / ⟨name⟩ / ⟨item⟩) = true :=
    contains_iff.2 (.inl (isOk_read_iff.1 (by rw [hread]; rfl)))
  have hdirectory := h _ _ hcontains (Path.isAbove_of_isChild hfile) hspelled
  obtain ⟨r, hr, hsame⟩ :=
    (exists_mem_list_iff hlist).2 ⟨contains_iff.2 (.inr hdirectory), hentry⟩
  have hr' := (Path.same_iff.1 hsame).trans hcomponents
  exact List.mem_filterMap.2 ⟨r, hr, fileName_of_components hr'⟩

end Tree

/-- A tree that hangs together, whatever the spelling it is asked with. -/
structure Tree.Coherent (t : Tree) : Prop where
  /-- What lies above a file or a directory is a directory. -/
  above : ∀ p a q, t.contains p = true → a ∈ p.ancestors → a.same q = true →
    q.spelling ≠ "" → t.directories.contains q = true
  /-- What exists is listed by the directory above it. -/
  listed : ∀ p parent q, t.contains p = true → p.parent = some parent → parent.same q = true →
    q.spelling ≠ "" → ∃ listing, t.list q = .ok listing ∧ ∃ r ∈ listing, r.same p = true
  /-- What is listed exists, one step below. -/
  child : ∀ q listing, t.list q = .ok listing → ∀ r ∈ listing,
    t.contains r = true ∧ ∃ parent, r.parent = some parent ∧ parent.same q = true
  /-- A listing is in order and has each place once. -/
  increasing : ∀ q listing, t.list q = .ok listing →
    listing.Pairwise fun r r' => r.compare r' = .lt
  /-- Directories are what can be listed. -/
  directory : ∀ q, (t.list q).isOk = true ↔ t.directories.contains q = true
  /-- What exists can be read or listed. -/
  exists_iff : ∀ p, t.contains p = true ↔ (t.read p).isOk = true ∨ (t.list p).isOk = true
  /-- The answers about a place do not depend on its spelling. -/
  respelled : ∀ p q, p.same q = true → t.contains p = t.contains q ∧
    (t.read p).toOption = (t.read q).toOption ∧ (t.list p).toOption = (t.list q).toOption

namespace Tree

variable {t : Tree}

theorem toOption_list (t : Tree) (p : Path) : (t.list p).toOption =
    if t.directories.contains p then some (ordered (t.children p)) else none := by
  unfold list
  split <;> rfl

theorem toOption_read (t : Tree) (p : Path) : (t.read p).toOption = t.files.find? p := by
  unfold read
  split <;> simp_all [Except.toOption]

theorem isChild_congr {p q : Path} (h : p.same q = true) : isChild p = isChild q := by
  funext r
  unfold isChild
  split
  · exact Path.same_congr h _
  · rfl

theorem children_congr {p q : Path} (h : p.same q = true) : t.children p = t.children q := by
  simp only [children, isChild_congr h, Path.same_congr h]

theorem Closed.coherent (h : t.Closed) : t.Coherent where
  above p a q hp ha hsame hspelled := by
    have hq : q.components ≠ [] := mt Path.components_eq_nil.1 hspelled
    exact h p q hp ((Path.exists_ancestor_iff hq).1 ⟨a, ha, hsame⟩) hspelled
  listed p parent q hp hparent hsame hspelled := by
    have hchild : isChild q p = true := exists_parent_iff.2 ⟨parent, hparent, hsame⟩
    have hdirectory := h p q hp (Path.isAbove_of_isChild hchild) hspelled
    have hlist : t.list q = .ok (ordered (t.children q)) := list_eq_ok.2 ⟨hdirectory, rfl⟩
    exact ⟨_, hlist, (exists_mem_list_iff hlist).2 ⟨hp, hchild⟩⟩
  child q listing hlist r hr := by
    obtain ⟨hexists, hchild⟩ := (exists_mem_list_iff hlist).1 ⟨r, hr, r.same_refl⟩
    exact ⟨hexists, exists_parent_iff.1 hchild⟩
  increasing q listing hlist := by
    obtain ⟨-, rfl⟩ := list_eq_ok.1 hlist
    exact increasing_ordered
  directory q := isOk_list_iff
  exists_iff p := by rw [contains_iff, isOk_read_iff, isOk_list_iff]
  respelled p q hsame := by
    refine ⟨?_, ?_, ?_⟩
    · rw [contains, contains, Table.contains_congr hsame, Table.contains_congr hsame]
    · rw [toOption_read, toOption_read, Table.find?_congr t.files hsame]
    · rw [toOption_list, toOption_list, Table.contains_congr hsame, children_congr hsame]

/-- **Trees hang together at any time.** Whatever is added and removed, in any order and under
any spelling, starting from nothing or from a prepared host, what lies above something that
exists is a directory; a directory lists what lies one step below it and nothing else, in order
and once each; and what can be read or listed is what exists. -/
theorem coherent_of_run {start : Tree}
    (h : start ∈ [{}, Scenario.typical, Scenario.minimal, Scenario.broken]) (edits : List Edit) :
    (start.run edits).Coherent := by
  have hstart : ∃ before, start = run {} before := by
    simp only [List.mem_cons, List.not_mem_nil, or_false] at h
    rcases h with rfl | rfl | rfl | rfl
    exacts [⟨[], rfl⟩, ⟨_, rfl⟩, ⟨_, rfl⟩, ⟨_, rfl⟩]
  obtain ⟨before, rfl⟩ := hstart
  exact ((Closed.empty.run before).run edits).coherent

/-- A file below a file, which makes the latter a directory as well, and a removal under
another spelling. -/
def mixedEdits : List Edit :=
  [.addFile ⟨"/proc/./a"⟩ "text", .addFile ⟨"//proc/a/b/"⟩ "", .removeDirectory ⟨"/var/./lib/"⟩]

theorem coherent_of_run_mixed :
    (Scenario.broken.run mixedEdits).Coherent ∧
      (Scenario.broken.run mixedEdits).contains ⟨"/var/lib/dpkg/status"⟩ = false ∧
      (Scenario.broken.run mixedEdits).read ⟨"/proc/a"⟩ = .ok "text" ∧
      (Scenario.broken.run mixedEdits).list ⟨"/proc/a"⟩ = .ok [⟨"//proc/a/b/"⟩] :=
  ⟨coherent_of_run (by simp) mixedEdits, by decide +kernel, by decide +kernel, by decide +kernel⟩

end Tree
end HostInventory.FileTree
