import HostInventory.Proofs.FileTree.Coherence
import HostInventory.Proofs.FileTree.Directory

/-! Snapshots of directories.

A directory is loaded folder by folder. What is loaded is a row of edits that only add
(`loadNode_eq`): each folder, and each file that is text, at the place its names lead to below
the top. So the tree has a file or a directory exactly where the directory has one, and answers
about it as the directory does (`ofDirectory_mirrors`). -/
namespace HostInventory.FileTree

/-! ### Trees that are only added to -/

/-- The edit adds a file or a directory at a path. -/
inductive Tree.Edit.Adds (p : Path) : Tree.Edit → Prop
  | file (text : String) : Adds p (.addFile p text)
  | directory : Adds p (.addDirectory p)

theorem Tree.Edit.Adds.unique {edit : Tree.Edit} {p q : Path} (h : edit.Adds p)
    (h' : edit.Adds q) : p = q := by
  cases h <;> cases h' <;> rfl

namespace Tree

variable {t : Tree} {edits : List Edit} {q : Path}

/-- What can be read was added, or could be read before. -/
theorem of_find?_files_run {text : String} (h : ∀ edit ∈ edits, ∃ p, edit.Adds p)
    (hread : (t.run edits).files.find? q = some text) :
    (∃ p, .addFile p text ∈ edits ∧ p.same q = true) ∨ t.files.find? q = some text := by
  induction edits generalizing t with
  | nil => exact .inr hread
  | cons edit rest ih =>
    obtain ⟨⟨p, hp⟩, hrest⟩ := List.forall_mem_cons.1 h
    rcases ih hrest hread with ⟨p', hmem, hsame⟩ | hread
    · exact .inl ⟨p', List.mem_cons_of_mem _ hmem, hsame⟩
    · cases hp with
      | directory => exact .inr hread
      | file added =>
        have hfiles : (t.apply (.addFile p added)).files = t.files.insert p added := rfl
        rw [hfiles] at hread
        cases hsame : p.same q with
        | true =>
          rw [← Table.find?_congr _ hsame, Table.find?_insert_self] at hread
          obtain rfl := Option.some.inj hread
          exact .inl ⟨p, List.mem_cons_self, hsame⟩
        | false => exact .inr (by rwa [Table.find?_insert_of_not_same _ hsame] at hread)

theorem contains_files_run (h : ∀ edit ∈ edits, ∃ p, edit.Adds p) :
    (t.run edits).files.contains q = true ↔ t.files.contains q = true ∨
      ∃ p text, .addFile p text ∈ edits ∧ p.same q = true := by
  induction edits generalizing t with
  | nil => simp [run]
  | cons edit rest ih =>
    obtain ⟨⟨p, hp⟩, hrest⟩ := List.forall_mem_cons.1 h
    rw [run, ih hrest]
    cases hp with
    | directory => simp only [apply, addDirectory, addAbove, List.mem_cons, reduceCtorEq, false_or]
    | file text =>
      rw [apply, addFile, Table.contains_insert, or_assoc]
      refine or_congr_right ⟨?_, ?_⟩
      · rintro (hsame | ⟨p', text', hmem, hsame⟩)
        · exact ⟨p, text, List.mem_cons_self, hsame⟩
        · exact ⟨p', text', List.mem_cons_of_mem _ hmem, hsame⟩
      · rintro ⟨p', text', hmem, hsame⟩
        rcases List.mem_cons.1 hmem with heq | hmem
        · cases heq
          exact .inl hsame
        · exact .inr ⟨p', text', hmem, hsame⟩

theorem contains_directories_run (h : ∀ edit ∈ edits, ∃ p, edit.Adds p) :
    (t.run edits).directories.contains q = true ↔ t.directories.contains q = true ∨
      (∃ p, .addDirectory p ∈ edits ∧ p.same q = true) ∨
        ∃ edit ∈ edits, ∃ p, edit.Adds p ∧ q.isAbove p = true ∧ q.spelling ≠ "" := by
  induction edits generalizing t with
  | nil => simp [run]
  | cons edit rest ih =>
    obtain ⟨⟨p, hp⟩, hrest⟩ := List.forall_mem_cons.1 h
    have habove : (∃ p', edit.Adds p' ∧ q.isAbove p' = true ∧ q.spelling ≠ "") ↔
        q.isAbove p = true ∧ q.spelling ≠ "" := by
      constructor
      · rintro ⟨p', hp', hq⟩
        exact hp'.unique hp ▸ hq
      · exact fun hq => ⟨p, hp, hq⟩
    rw [run, ih hrest, List.exists_mem_cons_iff, habove]
    cases hp with
    | directory =>
      have hmem : (∃ p', Edit.addDirectory p' ∈ Edit.addDirectory p :: rest ∧ p'.same q = true) ↔
          p.same q = true ∨ ∃ p', Edit.addDirectory p' ∈ rest ∧ p'.same q = true := by
        simp only [List.mem_cons, Edit.addDirectory.injEq, or_and_right, exists_or,
          exists_eq_left]
      rw [apply, directories_addDirectory, hmem, or_assoc, or_or_or_comm]
    | file text =>
      have hmem : ∀ p', Edit.addDirectory p' ∈ Edit.addFile p text :: rest ↔
          Edit.addDirectory p' ∈ rest := by simp
      have hdirectories : (t.apply (.addFile p text)).directories =
          (t.addAbove p).directories := rfl
      simp only [hdirectories, directories_addAbove, hmem]
      rw [or_assoc, or_left_comm (a := q.isAbove p = true ∧ q.spelling ≠ "")]

end Tree

/-! ### Loading -/

/-- The edit that loads a node to its place below the top. A file that is no text is left out. -/
def Node.load? (top : Path) (row : List String × Node) : Option Tree.Edit :=
  match row.2 with
  | .file bytes => (textOf bytes).toOption.map (.addFile (top.below row.1))
  | .folder _ => some (.addDirectory (top.below row.1))

/-- The edits that load a node and all below it. -/
def Node.edits (top : Path) (node : Node) : List Tree.Edit :=
  node.rows.filterMap (load? top)

namespace Tree

mutual
/-- A node is loaded by its edits. -/
theorem loadNode_eq {source : Path} (t : Tree) (top : Path) (node : Node)
    (h : ∀ row ∈ node.rows, Directory.checkPath (source.below row.1) = .ok ()) :
    t.loadNode source top node = .ok (t.run (node.edits top)) := by
  match node with
  | .file bytes =>
    have hself : Directory.checkPath source = .ok () := h ([], .file bytes) (Node.self_mem_rows _)
    have hedits : Node.edits top (.file bytes) =
        ((textOf bytes).toOption.map (Edit.addFile top)).toList := by
      rw [Node.edits, Node.rows, List.filterMap_cons, List.filterMap_nil]
      cases htext : textOf bytes <;> simp [Node.load?, htext, Except.toOption, Path.below]
    rw [loadNode, hself, hedits]
    cases textOf bytes <;> rfl
  | .folder entries =>
    rw [Node.rows] at h
    obtain ⟨hself, hrows⟩ := List.forall_mem_cons.1 h
    have hself' : Directory.checkPath source = .ok () := hself
    have hedits : Node.edits top (.folder entries) =
        .addDirectory top :: (Node.rowsOf entries).filterMap (Node.load? top) := by
      rw [Node.edits, Node.rows, List.filterMap_cons]
      rfl
    rw [loadNode, hself', hedits]
    exact loadEntries_eq (t.addDirectory top) top entries hrows

theorem loadEntries_eq {source : Path} (t : Tree) (top : Path) (entries : List (String × Node))
    (h : ∀ row ∈ Node.rowsOf entries, Directory.checkPath (source.below row.1) = .ok ()) :
    t.loadEntries source top entries =
      .ok (t.run ((Node.rowsOf entries).filterMap (Node.load? top))) := by
  match entries with
  | [] => rfl
  | (name, node) :: rest =>
    rw [Node.rowsOf] at h
    obtain ⟨hnode, hrest⟩ := List.forall_mem_append.1 h
    have hbelow : ∀ row ∈ node.rows,
        Directory.checkPath ((source / ⟨name⟩).below row.1) = .ok () := fun row hrow => by
      rw [← Path.below_cons]
      exact hnode (name :: row.1, row.2) (List.mem_map_of_mem hrow)
    have hload := loadNode_eq t (top / ⟨name⟩) node hbelow
    have hedits : (node.rows.map fun row => (name :: row.1, row.2)).filterMap (Node.load? top) =
        node.edits (top / ⟨name⟩) := by
      rw [List.filterMap_map]
      rfl
    rw [loadEntries, hload, Node.rowsOf, List.filterMap_append, hedits, run_append]
    exact loadEntries_eq _ top rest hrest
end

end Tree

/-! ### The loaded tree -/

/-- The tree that a node is loaded to. -/
def Node.tree (top : Path) (node : Node) : Tree :=
  Tree.run {} (node.edits top)

namespace Node

variable {node inner : Node} {top p q : Path} {names : List String} {text : String}

theorem addFile_mem_edits : .addFile p text ∈ node.edits top ↔
    ∃ names bytes, (names, .file bytes) ∈ node.rows ∧ textOf bytes = .ok text ∧
      p = top.below names := by
  rw [edits, List.mem_filterMap]
  constructor
  · rintro ⟨⟨names, inner⟩, hmem, hload⟩
    cases inner with
    | folder entries => simp [load?] at hload
    | file bytes =>
      obtain ⟨text', htext, heq⟩ := Option.map_eq_some_iff.1 hload
      obtain ⟨rfl, rfl⟩ := Tree.Edit.addFile.inj heq
      refine ⟨names, bytes, hmem, ?_, rfl⟩
      cases hbytes : textOf bytes with
      | error e => rw [hbytes] at htext; cases htext
      | ok read => rw [hbytes] at htext; exact congrArg Except.ok (Option.some.inj htext)
  · rintro ⟨names, bytes, hmem, htext, rfl⟩
    exact ⟨_, hmem, by simp [load?, htext, Except.toOption]⟩

theorem addDirectory_mem_edits : .addDirectory p ∈ node.edits top ↔
    ∃ names entries, (names, .folder entries) ∈ node.rows ∧ p = top.below names := by
  rw [edits, List.mem_filterMap]
  constructor
  · rintro ⟨⟨names, inner⟩, hmem, hload⟩
    cases inner with
    | folder entries => exact ⟨names, entries, hmem, by simpa [load?, eq_comm] using hload⟩
    | file bytes => simp [load?] at hload
  · rintro ⟨names, entries, hmem, rfl⟩
    exact ⟨_, hmem, rfl⟩

/-- Each edit adds the place of a node. -/
theorem exists_row_of_mem_edits {edit : Tree.Edit} (h : edit ∈ node.edits top) :
    ∃ row ∈ node.rows, edit.Adds (top.below row.1) := by
  obtain ⟨⟨names, inner⟩, hmem, hload⟩ := List.mem_filterMap.1 h
  refine ⟨_, hmem, ?_⟩
  cases inner with
  | folder entries =>
    obtain rfl := Option.some.inj hload
    exact .directory
  | file bytes =>
    obtain ⟨text, -, rfl⟩ := Option.map_eq_some_iff.1 hload
    exact .file text

theorem edits_add : ∀ edit ∈ node.edits top, ∃ p, edit.Adds p := by
  intro edit hedit
  obtain ⟨row, -, hadds⟩ := exists_row_of_mem_edits hedit
  exact ⟨_, hadds⟩

/-- What exists in the loaded tree is the place of a node or lies above one. -/
theorem exists_row_of_contains (h : (node.tree top).contains q = true) :
    ∃ row ∈ node.rows, q.same (top.below row.1) = true ∨
      q.isAbove (top.below row.1) = true ∧ q.spelling ≠ "" := by
  rw [tree, Tree.contains_iff, Tree.contains_files_run edits_add,
    Tree.contains_directories_run edits_add] at h
  rcases h with (h | ⟨p, text, hmem, hsame⟩) | h | ⟨p, hmem, hsame⟩ | ⟨edit, hmem, p, hp, hq⟩
  · cases h
  · obtain ⟨names, bytes, hrow, -, rfl⟩ := addFile_mem_edits.1 hmem
    exact ⟨_, hrow, .inl (Path.same_symm hsame)⟩
  · cases h
  · obtain ⟨names, entries, hrow, rfl⟩ := addDirectory_mem_edits.1 hmem
    exact ⟨_, hrow, .inl (Path.same_symm hsame)⟩
  · obtain ⟨row, hrow, hadds⟩ := exists_row_of_mem_edits hmem
    exact ⟨row, hrow, .inr (hadds.unique hp ▸ hq)⟩

section Below

variable (h : ∀ row ∈ node.rows, row.2.HasNames) (hnames : ∀ name ∈ names, Path.Plain name)
include h hnames

/-- The files of the loaded tree are those that are text. -/
theorem find?_files_tree : (node.tree top).files.find? (top.below names) = some text ↔
    ∃ bytes, node.at? names = some (.file bytes) ∧ textOf bytes = .ok text := by
  have hsound : ∀ {text}, (node.tree top).files.find? (top.below names) = some text →
      ∃ bytes, node.at? names = some (.file bytes) ∧ textOf bytes = .ok text := fun hfind => by
    rcases Tree.of_find?_files_run edits_add hfind with ⟨p, hmem, hsame⟩ | hfind
    · obtain ⟨names', bytes, hrow, htext, rfl⟩ := addFile_mem_edits.1 hmem
      obtain rfl := (Path.below_same_iff (plain_of_mem_rows h hrow) hnames).1 hsame
      exact ⟨bytes, (mem_rows h).1 hrow, htext⟩
    · cases hfind
  refine ⟨hsound, ?_⟩
  rintro ⟨bytes, hat, htext⟩
  have hmem : .addFile (top.below names) text ∈ node.edits top :=
    addFile_mem_edits.2 ⟨names, bytes, (mem_rows h).2 hat, htext, rfl⟩
  have hcontains : (node.tree top).files.contains (top.below names) = true :=
    (Tree.contains_files_run edits_add).2 (.inr ⟨_, text, hmem, Path.same_refl _⟩)
  rw [← Table.find?_isSome, Option.isSome_iff_exists] at hcontains
  obtain ⟨text', hfind⟩ := hcontains
  -- Whatever is read there stands in the only file there is.
  obtain ⟨bytes', hat', htext'⟩ := hsound hfind
  obtain rfl : bytes = bytes' := by
    rw [hat] at hat'
    exact Node.file.inj (Option.some.inj hat')
  rw [htext] at htext'
  rw [hfind, Except.ok.inj htext']

/-- The directories of the loaded tree below its top are the folders. -/
theorem contains_directories_tree :
    (node.tree top).directories.contains (top.below names) = true ↔
      ∃ entries, node.at? names = some (.folder entries) := by
  rw [tree, Tree.contains_directories_run edits_add]
  constructor
  · rintro (hnone | ⟨p, hmem, hsame⟩ | ⟨edit, hmem, p, hp, habove, -⟩)
    · cases hnone
    · obtain ⟨names', entries, hrow, rfl⟩ := addDirectory_mem_edits.1 hmem
      obtain rfl := (Path.below_same_iff (plain_of_mem_rows h hrow) hnames).1 hsame
      exact ⟨entries, (mem_rows h).1 hrow⟩
    · -- What has something below it is a folder.
      obtain ⟨⟨names', inner⟩, hrow, hadds⟩ := exists_row_of_mem_edits hmem
      obtain rfl := hadds.unique hp
      obtain ⟨⟨others, rfl⟩, hne⟩ :=
        (Path.below_isAbove_iff hnames (plain_of_mem_rows h hrow)).1 habove
      exact exists_folder_of_at? (by simpa using hne) ((mem_rows h).1 hrow)
  · rintro ⟨entries, hat⟩
    have hmem : .addDirectory (top.below names) ∈ node.edits top :=
      addDirectory_mem_edits.2 ⟨names, entries, (mem_rows h).2 hat, rfl⟩
    exact .inr (.inl ⟨_, hmem, Path.same_refl _⟩)

/-- When all files are text, everything is loaded. -/
theorem contains_tree (htext : ∀ row ∈ node.rows, row.2.isText = true) :
    (node.tree top).contains (top.below names) = true ↔ (node.at? names).isSome = true := by
  rw [Tree.contains_iff, ← Table.find?_isSome, Option.isSome_iff_exists,
    contains_directories_tree h hnames]
  simp only [find?_files_tree h hnames]
  constructor
  · rintro (⟨text, bytes, hat, -⟩ | ⟨entries, hat⟩) <;> rw [hat] <;> rfl
  · intro hsome
    obtain ⟨inner, hat⟩ := Option.isSome_iff_exists.1 hsome
    cases inner with
    | folder entries => exact .inr ⟨entries, hat⟩
    | file bytes =>
      have hok : (textOf bytes).isOk = true := htext _ ((mem_rows h).2 hat)
      cases hbytes : textOf bytes with
      | error e => rw [hbytes] at hok; cases hok
      | ok text => exact .inl ⟨text, bytes, hat, hbytes⟩

/-- A folder is listed by the names in it. -/
theorem lists_tree (htext : ∀ row ∈ node.rows, row.2.isText = true)
    (hat : node.at? names = some inner) {listing : List Path}
    (hlist : (node.tree top).list (top.below names) = .ok listing) :
    Tree.Lists (top.below names).components inner.entryNames listing where
  increasing := by
    obtain ⟨-, rfl⟩ := Tree.list_eq_ok.1 hlist
    exact Tree.increasing_ordered
  sound p hp := by
    obtain ⟨hexists, hchild⟩ := (Tree.exists_mem_list_iff hlist).1 ⟨p, hp, p.same_refl⟩
    obtain ⟨c, -, hc⟩ := Path.isChild_iff.1 hchild
    obtain ⟨⟨others, found⟩, hrow, hplace⟩ := exists_row_of_contains hexists
    have hprefix : p.components <+: (top.below others).components := by
      rcases hplace with hsame | ⟨habove, -⟩
      · exact Path.same_iff.1 hsame ▸ List.prefix_rfl
      · exact (Path.isAbove_iff.1 habove).1
    -- So the names of a node begin with those of the folder and one more, which is in it.
    rw [hc] at hprefix
    obtain ⟨name, back, rfl, rfl⟩ :=
      Path.names_of_concat_prefix hnames (plain_of_mem_rows h hrow) hprefix
    have hfound := (mem_rows h).1 hrow
    rw [at?_append, Option.bind_eq_some_iff] at hfound
    obtain ⟨child, hchild, -⟩ := hfound
    obtain ⟨folder, hfolder, hentry⟩ := exists_at?_concat_iff.1 ⟨child, hchild⟩
    rw [hat] at hfolder
    exact ⟨name, Option.some.inj hfolder ▸ hentry, hc⟩
  complete name hname := by
    have hplain : ∀ other ∈ names ++ [name], Path.Plain other := by
      have hlast := (h _ ((mem_rows h).2 hat)).plain name hname
      simpa [or_imp, forall_and] using ⟨hnames, hlast⟩
    have hcomponents : (top.below (names ++ [name])).components =
        (top.below names).components ++ [.name name] := by
      rw [Path.components_below hplain, Path.components_below hnames, List.map_append,
        List.append_assoc, List.map_singleton]
    have hsome : (node.at? (names ++ [name])).isSome = true :=
      Option.isSome_iff_exists.2 (exists_at?_concat_iff.2 ⟨inner, hat, hname⟩)
    have hchild : Tree.isChild (top.below names) (top.below (names ++ [name])) = true :=
      Path.isChild_iff.2 ⟨.name name, nofun, hcomponents⟩
    obtain ⟨p, hp, hsame⟩ :=
      (Tree.exists_mem_list_iff hlist).2 ⟨(contains_tree h hplain htext).2 hsome, hchild⟩
    exact ⟨p, hp, (Path.same_iff.1 hsame).trans hcomponents⟩

end Below

/-- Nothing is loaded to another place. -/
theorem of_contains_tree (h : ∀ row ∈ node.rows, row.2.HasNames)
    (hq : (node.tree top).contains q = true) :
    q.isAtOrBelow top = true ∨ ∃ a ∈ top.ancestors, a.same q = true := by
  obtain ⟨⟨names, inner⟩, hrow, hplace⟩ := exists_row_of_contains hq
  have hbelow := Path.components_below (p := top) (plain_of_mem_rows h hrow)
  have htop : top.components <+: (top.below names).components := ⟨_, hbelow.symm⟩
  rcases hplace with hsame | ⟨habove, hspelled⟩
  · rw [← Path.same_iff.1 hsame] at htop
    exact .inl (Path.isAtOrBelow_iff.2 htop)
  · rcases List.prefix_or_prefix_of_prefix htop (Path.isAbove_iff.1 habove).1 with hle | hle
    · exact .inl (Path.isAtOrBelow_iff.2 hle)
    · by_cases heq : q.components = top.components
      · exact .inl (Path.isAtOrBelow_iff.2 (heq ▸ List.prefix_rfl))
      · have hne : q.components ≠ [] := mt Path.components_eq_nil.1 hspelled
        exact .inr ((Path.exists_ancestor_iff hne).2 (Path.isAbove_iff.2 ⟨hle, heq⟩))

end Node

/-! ### The directory itself -/

namespace Directory

variable {d : Directory} {p : Path}

theorem read_eq_ok {text : String} : d.read p = .ok text ↔
    ∃ bytes, (d.node p).toOption = some (.file bytes) ∧ textOf bytes = .ok text := by
  unfold read
  cases d.node p with
  | error e => simp [bind, Except.bind, Except.toOption]
  | ok node => cases node <;> simp [bind, Except.bind, Except.toOption]

theorem toOption_list (d : Directory) (p : Path) : (d.list p).toOption =
    (d.node p).toOption.bind fun node => match node with
      | .file _ => none
      | .folder entries => some (Tree.ordered (entries.map fun entry => p / ⟨entry.1⟩)) := by
  have hlist : d.list p = (d.node p).bind fun node => match node with
    | .file _ => .error .notDirectory
    | .folder entries => .ok (Tree.ordered (entries.map fun entry => p / ⟨entry.1⟩)) := rfl
  rw [hlist]
  cases d.node p with
  | error e => rfl
  | ok node => cases node <;> rfl

end Directory

/-- The answers of a tree below its top are those of a directory at a place of it, about every
relative path of names. -/
structure Tree.Mirrors (t : Tree) (top : Path) (d : Directory) (source : Path) (node : Node) :
    Prop where
  /-- A text is read from both or from neither. -/
  read : ∀ names, (∀ name ∈ names, Path.Plain name) → ∀ text,
    t.read (top.under names) = .ok text ↔ d.read (source.under names) = .ok text
  /-- Of the files, exactly those that are no text cannot be read. -/
  unreadable : ∀ names bytes, node.at? names = some (.file bytes) →
    ((t.read (top.under names)).isOk = false ↔ (textOf bytes).isOk = false)
  /-- If all files are text, the same exists. -/
  contains : (∀ row ∈ node.rows, row.2.isText = true) →
    ∀ names, (∀ name ∈ names, Path.Plain name) →
      t.contains (top.under names) = d.provider.contains (source.under names)
  /-- If all files are text, the same is listed, in the same order. -/
  list : (∀ row ∈ node.rows, row.2.isText = true) →
    ∀ names, (∀ name ∈ names, Path.Plain name) →
      (t.list (top.under names)).toOption.map (·.map Path.fileName) =
        (d.list (source.under names)).toOption.map (·.map Path.fileName)
  /-- Elsewhere there is only what lies above the top. -/
  outside : ∀ q, t.contains q = true →
    q.isAtOrBelow top = true ∨ ∃ a ∈ top.ancestors, a.same q = true

section Mirrors
variable {d : Directory} {source : Path} {node : Node}

theorem Node.mirrors_tree (hnode : d.node source = .ok node) (h : node.Readable source)
    (top : Path) : (node.tree top).Mirrors top d source node where
  read names hnames text := by
    rw [Path.under_eq_below hnames, Path.under_eq_below hnames, Directory.read_eq_ok,
      Directory.toOption_node_below hnode h hnames, ← find?_files_tree h.names hnames, Tree.read]
    cases (node.tree top).files.find? (top.below names) <;> simp
  unreadable names bytes hat := by
    have hnames := plain_of_mem_rows h.names ((mem_rows h.names).2 hat)
    have hfind : ∀ text, (node.tree top).files.find? (top.below names) = some text ↔
        textOf bytes = .ok text := fun text => by
      rw [find?_files_tree h.names hnames, hat]
      simp
    rw [Path.under_eq_below hnames, Bool.eq_false_iff, Bool.eq_false_iff, ne_eq, ne_eq,
      Tree.isOk_read_iff, ← Table.find?_isSome, Option.isSome_iff_exists]
    simp only [hfind]
    cases textOf bytes <;> simp [Except.isOk, Except.toBool]
  contains htext names hnames := by
    have hdirectory : d.provider.contains (source.below names) =
        (d.node (source.below names)).toOption.isSome := rfl
    rw [Path.under_eq_below hnames, Path.under_eq_below hnames, hdirectory,
      Directory.toOption_node_below hnode h hnames, Bool.eq_iff_iff]
    exact contains_tree h.names hnames htext
  list htext names hnames := by
    have hlist := Tree.toOption_list (node.tree top) (top.below names)
    have hfolder : (node.tree top).directories.contains (top.below names) = true ↔
        ∃ entries, node.at? names = some (.folder entries) :=
      contains_directories_tree h.names hnames
    rw [Path.under_eq_below hnames, Path.under_eq_below hnames, Directory.toOption_list,
      Directory.toOption_node_below hnode h hnames]
    rcases hat : node.at? names with _ | ⟨bytes⟩ | ⟨entries⟩
    · rw [hlist, if_neg (by simp [hfolder, hat])]
      rfl
    · rw [hlist, if_neg (by simp [hfolder, hat])]
      rfl
    · have hok : (node.tree top).list (top.below names) =
          .ok (Tree.ordered ((node.tree top).children (top.below names))) :=
        Tree.list_eq_ok.2 ⟨hfolder.2 ⟨entries, hat⟩, rfl⟩
      have hhas := h.names _ ((mem_rows h.names).2 hat)
      have hreal := Tree.lists_ordered_div (source.below names) hhas.plain
      rw [entryNames, List.map_map] at hreal
      rw [hok]
      exact congrArg some ((lists_tree h.names hnames htext hat hok).fileNames_eq hreal)
  outside q hq := of_contains_tree h.names hq

/-- **A snapshot answers as the directory does.** A folder of the host that can be read is
loaded, wherever the snapshot's top is and however it is spelled. Below the top, exactly what is
text can be read, as it is in the directory; if all files are text, the same exists and is
listed in the same order; and elsewhere there is only what lies above the top. -/
theorem Tree.ofDirectory_mirrors (hnode : d.node source = .ok node)
    (hfolder : node.isFolder = true) (h : node.Readable source) (top : Path) :
    ∃ t, Tree.ofDirectory d source top = .ok t ∧ t.Mirrors top d source node := by
  refine ⟨node.tree top, ?_, Node.mirrors_tree hnode h top⟩
  cases node with
  | file bytes => cases hfolder
  | folder entries =>
    have hload := Tree.loadNode_eq {} top (.folder entries) h.paths
    rw [Tree.ofDirectory, hnode]
    exact hload

end Mirrors

/-- A captured folder with a file, a folder in a folder and an empty one. -/
def captured : Node :=
  .folder [("name", .file [97, 98]), ("power", .folder [("now", .file [49]), ("old", .folder [])])]

def capturedDirectory : Directory := { root := .folder [("srv", captured)] }

theorem capturedDirectory_node : capturedDirectory.node ⟨"/srv/."⟩ = .ok captured :=
  Directory.node_eq_ok.2 ⟨Directory.checkPath_eq_ok.2 (by decide +kernel), rfl⟩

theorem captured_readable : captured.Readable ⟨"/srv/."⟩ where
  names := by decide +kernel
  paths := by
    simp only [Directory.checkPath_eq_ok]
    decide +kernel

theorem Tree.ofDirectory_mirrors_captured :
    capturedDirectory.node ⟨"/srv/."⟩ = .ok captured ∧ captured.Readable ⟨"/srv/."⟩ ∧
      (∀ row ∈ captured.rows, row.2.isText = true) ∧
      ∃ t, Tree.ofDirectory capturedDirectory ⟨"/srv/."⟩ ⟨"sys//class/"⟩ = .ok t ∧
        t.Mirrors ⟨"sys//class/"⟩ capturedDirectory ⟨"/srv/."⟩ captured :=
  ⟨capturedDirectory_node, captured_readable, by decide +kernel,
    Tree.ofDirectory_mirrors capturedDirectory_node rfl captured_readable _⟩

end HostInventory.FileTree
