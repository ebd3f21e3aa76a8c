import HostInventory.FileTree.Directory
import HostInventory.Proofs.FileTree.Components
import Mathlib.Data.List.Nodup

/-! Walking down a directory.

A path is walked piece by piece, so what stands behind a path that leads somewhere is walked
from there (`walk_append`). Names behind such a path lead to what stands under these names in
its folder (`node_below`): to nothing where a name is missing, where a file is in the way, and
where the path has become too long. -/
namespace HostInventory.FileTree

/-- The path with names behind it, one below the other. -/
def Path.below (p : Path) (names : List String) : Path :=
  names.foldl (fun p name => p / ⟨name⟩) p

/-- The path with a relative path behind it: the names with slashes between them. No name leaves
the path as it is. -/
def Path.under (p : Path) (names : List String) : Path :=
  if names = [] then p
  else p / ⟨String.ofList (Text.joinWith '/' (names.map String.toList))⟩

namespace Path

variable {p : Path} {name : String} {names : List String}

theorem below_cons : p.below (name :: names) = (p / ⟨name⟩).below names := rfl

/-- Names behind a path are as many components more. -/
theorem components_below (h : ∀ name ∈ names, Plain name) :
    (p.below names).components = p.components ++ names.map .name := by
  induction names generalizing p with
  | nil => exact (List.append_nil _).symm
  | cons name rest ih =>
    obtain ⟨hname, hrest⟩ := List.forall_mem_cons.1 h
    rw [below_cons, ih hrest, components_div hname, List.append_assoc, List.map_cons,
      List.singleton_append]

/-- A text that can stand behind a path as it is. -/
structure Relative (s : List Char) : Prop where
  head : s.head? ≠ some '/'
  last : ∃ init c, s = init ++ [c] ∧ c ≠ '/'

theorem Plain.relative (h : Plain name) : Relative name.toList where
  head hslash := h.noSlash (List.mem_of_head? hslash)
  last := by
    rcases List.eq_nil_or_concat' name.toList with hnil | ⟨init, c, hc⟩
    · exact absurd (String.toList_eq_nil_iff.1 hnil) h.ne_empty
    · refine ⟨init, c, hc, ?_⟩
      rintro rfl
      exact h.noSlash (by rw [hc]; exact List.mem_append_right _ (List.mem_singleton_self _))

/-- What stands between a path and a text behind it does not depend on the text. -/
theorem exists_front_div (p : Path) :
    ∃ front, ∀ s, Relative s → p / ⟨String.ofList s⟩ = ⟨front ++ String.ofList s⟩ := by
  have hdiv : ∀ s, Relative s → p / ⟨String.ofList s⟩ =
      if p.spelling = "" || p.spelling.toList.getLast? = some '/' then
        ⟨p.spelling ++ String.ofList s⟩
      else ⟨p.spelling ++ "/" ++ String.ofList s⟩ := fun s hs => by
    have hrelative : (⟨String.ofList s⟩ : Path).isAbsolute = false := by
      rw [isAbsolute, String.toList_ofList]
      exact beq_eq_false_iff_ne.2 hs.head
    have hjoin : p / ⟨String.ofList s⟩ = join p ⟨String.ofList s⟩ := rfl
    rw [hjoin, join, hrelative, if_neg Bool.false_ne_true]
  by_cases h : (p.spelling = "" || p.spelling.toList.getLast? = some '/') = true
  · exact ⟨p.spelling, fun s hs => by rw [hdiv s hs, if_pos h]⟩
  · exact ⟨p.spelling ++ "/", fun s hs => by rw [hdiv s hs, if_neg h]⟩

theorem Relative.append {s : List Char} (hs : Relative s) (h : Plain name) :
    Relative (s ++ '/' :: name.toList) := by
  obtain ⟨init, c, hinit, hc⟩ := h.relative.last
  refine ⟨?_, s ++ '/' :: init, c, by simp [hinit], hc⟩
  obtain ⟨init, c, rfl, -⟩ := hs.last
  have hhead := hs.head
  cases init <;> simpa using hhead

/-- A name behind a text that stands behind a path comes behind a slash. -/
theorem div_div {s : List Char} (hs : Relative s) (h : Plain name) (p : Path) :
    p / ⟨String.ofList s⟩ / ⟨name⟩ = p / ⟨String.ofList (s ++ '/' :: name.toList)⟩ := by
  obtain ⟨front, hfront⟩ := exists_front_div p
  have hslash : ∀ q : Path, (∃ init c, q.spelling.toList = init ++ [c] ∧ c ≠ '/') →
      q / ⟨name⟩ = ⟨q.spelling ++ "/" ++ name⟩ := by
    rintro q ⟨init, c, hq, hc⟩
    have hne : q.spelling ≠ "" := fun hempty => by simp [hempty] at hq
    have hrelative : (⟨name⟩ : Path).isAbsolute = false :=
      beq_eq_false_iff_ne.2 h.relative.head
    have hjoin : q / ⟨name⟩ = join q ⟨name⟩ := rfl
    rw [hjoin, join, hrelative, if_neg Bool.false_ne_true, if_neg]
    simp [hq, hc, hne]
  obtain ⟨init, c, hinit, hc⟩ := hs.last
  rw [hfront s hs, hfront _ (hs.append h), hslash]
  · refine congrArg Path.mk (String.toList_injective ?_)
    simp
  · exact ⟨front.toList ++ init, c, by simp [hinit], hc⟩

theorem below_div {s : List Char} (hs : Relative s) (h : ∀ name ∈ names, Plain name)
    (p : Path) : (p / ⟨String.ofList s⟩).below names =
      p / ⟨String.ofList (Text.joinWith '/' (s :: names.map String.toList))⟩ := by
  induction names generalizing s with
  | nil => rfl
  | cons name rest ih =>
    obtain ⟨hname, hrest⟩ := List.forall_mem_cons.1 h
    rw [below_cons, div_div hs hname, ih (hs.append hname) hrest, List.map_cons,
      Text.joinWith_join]

/-- A relative path of names leads where the names lead one below the other. -/
theorem under_eq_below (h : ∀ name ∈ names, Plain name) (p : Path) :
    p.under names = p.below names := by
  cases names with
  | nil => rfl
  | cons name rest =>
    obtain ⟨hname, hrest⟩ := List.forall_mem_cons.1 h
    have hbelow := below_div hname.relative hrest p
    rw [String.ofList_toList] at hbelow
    rw [below_cons, hbelow]
    rfl

/-- Different names lead to different places. -/
theorem below_same_iff {others : List String} (h : ∀ name ∈ names, Plain name)
    (h' : ∀ name ∈ others, Plain name) :
    (p.below names).same (p.below others) = true ↔ names = others := by
  have hinj : Function.Injective Component.name := fun _ _ => Component.name.inj
  rw [same_iff, components_below h, components_below h', List.append_cancel_left_eq,
    hinj.list_map.eq_iff]

/-- A place below a path lies above another when it has the first of its names. -/
theorem below_isAbove_iff {others : List String} (h : ∀ name ∈ names, Plain name)
    (h' : ∀ name ∈ others, Plain name) :
    (p.below names).isAbove (p.below others) = true ↔ names <+: others ∧ names ≠ others := by
  have hinj : Function.Injective Component.name := fun _ _ => Component.name.inj
  rw [isAbove_iff, components_below h, components_below h', List.prefix_append_right_inj,
    ne_eq, List.append_cancel_left_eq, hinj.list_map.eq_iff, List.prefix_map_iff]
  refine and_congr_left' ⟨?_, fun hprefix => ⟨names, hprefix, rfl⟩⟩
  rintro ⟨front, hfront, heq⟩
  rwa [hinj.list_map heq]

/-- One step below a place on the way to another, the names go on with one more. -/
theorem names_of_concat_prefix {others : List String} {c : Component}
    (h : ∀ name ∈ names, Plain name) (h' : ∀ name ∈ others, Plain name)
    (hc : (p.below names).components ++ [c] <+: (p.below others).components) :
    ∃ name back, others = names ++ [name] ++ back ∧ c = .name name := by
  have hinj : Function.Injective Component.name := fun _ _ => Component.name.inj
  rw [components_below h, components_below h', List.append_assoc, List.prefix_append_right_inj,
    List.prefix_map_iff] at hc
  obtain ⟨front, ⟨back, rfl⟩, heq⟩ := hc
  obtain ⟨names', last, rfl, hsame, hlast⟩ := List.map_eq_append_iff.1 heq.symm
  obtain rfl := hinj.list_map hsame
  obtain ⟨name, rfl, hname⟩ := List.map_eq_singleton_iff.1 hlast
  exact ⟨name, back, rfl, hname.symm⟩

/-- Below a path that ends in a name, the names are the last pieces. -/
theorem pieces_below_of_last {ps : List (List Char)} {last : List Char}
    (hp : p.pieces = ps ++ [last]) (hlast : last ≠ []) (h : ∀ name ∈ names, Plain name) :
    (p.below names).pieces = ps ++ [last] ++ names.map String.toList := by
  induction names generalizing p ps last with
  | nil => exact hp.trans (List.append_nil _).symm
  | cons name rest ih =>
    obtain ⟨hname, hrest⟩ := List.forall_mem_cons.1 h
    have hname' : name.toList ≠ [] := mt String.toList_eq_nil_iff.1 hname.ne_empty
    have hdiv : (p / ⟨name⟩).pieces = (ps ++ [last]) ++ [name.toList] := by
      obtain ⟨hempty, -⟩ | ⟨qs, -, hq, -⟩ | ⟨-, hq⟩ := pieces_div hname p
      · -- The empty text has no last name.
        have hnone : p.pieces = [[]] := by rw [pieces, hempty]; rfl
        rw [hnone] at hp
        have hnil : [] ++ [[]] = ps ++ [last] := hp
        exact absurd (List.append_inj' hnil.symm rfl).2 (by simpa using hlast)
      · rw [hp] at hq
        exact absurd (List.append_inj' hq rfl).2 (by simpa using hlast)
      · rw [hq, hp]
    rw [below_cons, ih hdiv hname' hrest, List.map_cons, List.append_assoc (ps ++ [last]),
      List.singleton_append]

/-- Below a path with a text, the names follow its pieces, but for a slash at its end. -/
theorem pieces_below (hp : p.spelling ≠ "") (hne : names ≠ []) (h : ∀ name ∈ names, Plain name) :
    ∃ ps, (p.pieces = ps ∨ p.pieces = ps ++ [[]]) ∧
      (p.below names).pieces = ps ++ names.map String.toList := by
  obtain ⟨name, rest, rfl⟩ := List.exists_cons_of_ne_nil hne
  obtain ⟨hname, hrest⟩ := List.forall_mem_cons.1 h
  have hname' : name.toList ≠ [] := mt String.toList_eq_nil_iff.1 hname.ne_empty
  have hbelow : ∀ ps, (p / ⟨name⟩).pieces = ps ++ [name.toList] →
      (p.below (name :: rest)).pieces = ps ++ (name :: rest).map String.toList := fun ps hps => by
    rw [below_cons, pieces_below_of_last hps hname' hrest, List.map_cons, List.append_assoc,
      List.singleton_append]
  obtain ⟨hempty, -⟩ | ⟨ps, -, hps, hq⟩ | ⟨-, hq⟩ := pieces_div hname p
  · exact absurd hempty hp
  · exact ⟨ps, .inr hps, hbelow ps hq⟩
  · exact ⟨p.pieces, .inl rfl, hbelow _ hq⟩

end Path

/-! ### What is in a directory -/

namespace Node

/-- The node that names lead to, one below the other. -/
def at? : Node → List String → Option Node
  | node, [] => some node
  | node, name :: rest => (node.child? name).bind (·.at? rest)

/-- The names in a folder. -/
def entryNames : Node → List String
  | .file _ => []
  | .folder entries => entries.map Prod.fst

mutual
/-- The node and all below it, each with the names that lead to it, folders before what is in
them. -/
def rows : Node → List (List String × Node)
  | .file bytes => [([], .file bytes)]
  | .folder entries => ([], .folder entries) :: rowsOf entries

def rowsOf : List (String × Node) → List (List String × Node)
  | [] => []
  | (name, node) :: rest => (node.rows.map fun row => (name :: row.1, row.2)) ++ rowsOf rest
end

/-- A file is text, and a folder may hold anything. -/
def isText : Node → Bool
  | .file bytes => (textOf bytes).isOk
  | .folder _ => true

/-- The names in a folder can be names there: they are different, each is one step down, and
none is too long. -/
structure HasNames (node : Node) : Prop where
  nodup : node.entryNames.Nodup
  plain : ∀ name ∈ node.entryNames, Path.Plain name
  short : ∀ name ∈ node.entryNames, name.utf8ByteSize ≤ Directory.nameLimit

instance (node : Node) : Decidable node.HasNames :=
  decidable_of_iff (node.entryNames.Nodup ∧ (∀ name ∈ node.entryNames, Path.Plain name) ∧
      ∀ name ∈ node.entryNames, name.utf8ByteSize ≤ Directory.nameLimit)
    ⟨fun ⟨h₁, h₂, h₃⟩ => ⟨h₁, h₂, h₃⟩, fun h => ⟨h.1, h.2, h.3⟩⟩

section Rows
variable {node inner : Node} {entries : List (String × Node)} {name : String}
  {names : List String}

theorem mem_rowsOf : (names, inner) ∈ rowsOf entries ↔
    ∃ entry ∈ entries, ∃ rest, names = entry.1 :: rest ∧ (rest, inner) ∈ entry.2.rows := by
  induction entries with
  | nil => simp [rowsOf]
  | cons entry more ih =>
    obtain ⟨name, node⟩ := entry
    rw [rowsOf, List.mem_append, ih, List.exists_mem_cons_iff]
    refine or_congr_left ?_
    simp only [List.mem_map, Prod.mk.injEq]
    constructor
    · rintro ⟨⟨rest, node'⟩, hmem, rfl, rfl⟩
      exact ⟨rest, rfl, hmem⟩
    · rintro ⟨rest, rfl, hmem⟩
      exact ⟨(rest, inner), hmem, rfl, rfl⟩

theorem self_mem_rows (node : Node) : ([], node) ∈ node.rows := by
  cases node with
  | file bytes => exact List.mem_singleton_self _
  | folder entries => rw [rows]; exact List.mem_cons_self

/-- Nothing else is led to by no name. -/
theorem nil_mem_rows : ([], inner) ∈ node.rows ↔ inner = node := by
  constructor
  · intro h
    cases node with
    | file bytes => simpa [rows] using h
    | folder entries =>
      rw [rows, List.mem_cons] at h
      rcases h with h | h
      · exact (Prod.mk.inj h).2
      · obtain ⟨entry, -, rest, hrest, -⟩ := mem_rowsOf.1 h
        cases hrest
  · rintro rfl
    exact self_mem_rows _

/-- With different names, each entry is the child of its name. -/
theorem child?_eq_some (h : (entries.map Prod.fst).Nodup) :
    child? (.folder entries) name = some inner ↔ (name, inner) ∈ entries := by
  simp only [child?, Option.map_eq_some_iff]
  constructor
  · rintro ⟨⟨name', inner'⟩, hfind, rfl⟩
    have hname := List.find?_some hfind
    simp only [decide_eq_true_eq] at hname
    exact hname ▸ List.mem_of_find?_eq_some hfind
  · intro hmem
    obtain ⟨entry, hentry⟩ : ∃ entry, entries.find? (fun entry => entry.1 = name) = some entry :=
      Option.isSome_iff_exists.1 (List.find?_isSome.2 ⟨_, hmem, by simp⟩)
    have hname := List.find?_some hentry
    simp only [decide_eq_true_eq] at hname
    refine ⟨entry, hentry, ?_⟩
    have heq := List.inj_on_of_nodup_map h (List.mem_of_find?_eq_some hentry) hmem hname
    rw [heq]

/-- The rows are what names lead to. -/
theorem mem_rows (h : ∀ row ∈ node.rows, row.2.HasNames) :
    (names, inner) ∈ node.rows ↔ node.at? names = some inner := by
  induction names generalizing node with
  | nil => rw [nil_mem_rows, at?, Option.some.injEq, eq_comm]
  | cons name rest ih =>
    cases node with
    | file bytes => simp [rows, at?, child?]
    | folder entries =>
      have hnodup : (entries.map Prod.fst).Nodup := (h _ (self_mem_rows _)).nodup
      have hbelow : ∀ child, (name, child) ∈ entries → ∀ row ∈ child.rows, row.2.HasNames :=
        fun child hchild row hrow => h (name :: row.1, row.2) <| by
          rw [rows]
          exact List.mem_cons_of_mem _ (mem_rowsOf.2 ⟨_, hchild, row.1, rfl, hrow⟩)
      rw [rows, List.mem_cons, mem_rowsOf, at?, Option.bind_eq_some_iff]
      constructor
      · rintro (hself | ⟨⟨name', child⟩, hchild, rest', hnames, hrow⟩)
        · cases hself
        · obtain ⟨rfl, rfl⟩ := List.cons.inj hnames
          exact ⟨child, (child?_eq_some hnodup).2 hchild, (ih (hbelow child hchild)).1 hrow⟩
      · rintro ⟨child, hchild, hrow⟩
        have hmem := (child?_eq_some hnodup).1 hchild
        exact .inr ⟨(name, child), hmem, rest, rfl, (ih (hbelow child hmem)).2 hrow⟩

theorem isSome_child?_iff : (node.child? name).isSome = true ↔ name ∈ node.entryNames := by
  cases node with
  | file bytes => simp [child?, entryNames]
  | folder entries => simp [child?, entryNames]

theorem at?_append (node : Node) (names others : List String) :
    node.at? (names ++ others) = (node.at? names).bind (·.at? others) := by
  induction names generalizing node with
  | nil => rfl
  | cons name rest ih =>
    rw [List.cons_append, at?, at?]
    cases node.child? name with
    | none => rfl
    | some child => exact ih child

/-- Whatever names lead to, a name behind them leads to something when it is in that folder. -/
theorem exists_at?_concat_iff : (∃ inner, node.at? (names ++ [name]) = some inner) ↔
    ∃ folder, node.at? names = some folder ∧ name ∈ folder.entryNames := by
  have hlast : ∀ folder : Node, folder.at? [name] = folder.child? name := fun folder => by
    rw [at?]
    cases folder.child? name <;> rfl
  simp only [at?_append, Option.bind_eq_some_iff, hlast, ← isSome_child?_iff,
    Option.isSome_iff_exists]
  constructor
  · rintro ⟨inner, folder, hat, hinner⟩
    exact ⟨folder, hat, inner, hinner⟩
  · rintro ⟨folder, hat, inner, hinner⟩
    exact ⟨inner, folder, hat, hinner⟩

/-- What has more below it is a folder. -/
theorem exists_folder_of_at? {others : List String} (hne : others ≠ [])
    (hat : node.at? (names ++ others) = some inner) :
    ∃ entries, node.at? names = some (.folder entries) := by
  obtain ⟨name, rest, rfl⟩ := List.exists_cons_of_ne_nil hne
  rw [at?_append, Option.bind_eq_some_iff] at hat
  obtain ⟨folder, hfolder, hinner⟩ := hat
  cases folder with
  | file bytes => simp [at?, child?] at hinner
  | folder entries => exact ⟨entries, hfolder⟩

/-- Names that lead to something are names in folders. -/
theorem plain_of_mem_rows (h : ∀ row ∈ node.rows, row.2.HasNames)
    (hmem : (names, inner) ∈ node.rows) : ∀ name ∈ names, Path.Plain name := by
  intro name hname
  obtain ⟨front, back, rfl⟩ := List.append_of_mem hname
  have hat := (mem_rows h).1 hmem
  rw [List.append_cons, at?_append, Option.bind_eq_some_iff] at hat
  obtain ⟨child, hchild, -⟩ := hat
  obtain ⟨folder, hfolder, hentry⟩ := exists_at?_concat_iff.1 ⟨child, hchild⟩
  exact (h _ ((mem_rows h).2 hfolder)).plain name hentry

end Rows

end Node

/-- A directory that can be read from a path down: what is in it has names, and no path to it is
refused. -/
structure Node.Readable (source : Path) (node : Node) : Prop where
  names : ∀ row ∈ node.rows, row.2.HasNames
  paths : ∀ row ∈ node.rows, Directory.checkPath (source.below row.1) = .ok ()

/-! ### Walking -/

namespace Directory

variable {d : Directory} {p : Path} {node : Node} {names : List String}

/-- Pieces in front are walked first: they fail, whatever is behind them, or they lead to where
the rest is walked from. -/
theorem walk_append (above : List Node) (node : Node) (front : List String) :
    (∃ e, ∀ rest, walk above node (front ++ rest) = .error e) ∨
      ∃ above' node', ∀ rest, walk above node (front ++ rest) = walk above' node' rest := by
  induction front generalizing above node with
  | nil => exact .inr ⟨above, node, fun _ => rfl⟩
  | cons piece front ih =>
    simp only [List.cons_append, walk]
    by_cases hfolder : node.isFolder = true
    · simp only [hfolder, Bool.not_true, Bool.false_eq_true, if_false]
      by_cases hidle : (piece = "" || piece = ".") = true
      · simp only [hidle, if_true]
        exact ih above node
      · simp only [hidle, Bool.false_eq_true, if_false]
        by_cases hup : piece = ".."
        · simp only [hup, if_true]
          cases above with
          | nil => exact ih [] node
          | cons upper above => exact ih above upper
        · simp only [hup, if_false]
          by_cases hlong : piece.utf8ByteSize > nameLimit
          · simp only [hlong, if_true]
            exact .inl ⟨_, fun _ => rfl⟩
          · simp only [hlong, if_false]
            cases node.child? piece with
            | none => exact .inl ⟨_, fun _ => rfl⟩
            | some inner => exact ih (node :: above) inner
    · simp only [hfolder, Bool.not_false, if_true]
      exact .inl ⟨_, fun _ => rfl⟩

/-- An empty piece at the end leads nowhere else. -/
theorem of_walk_empty {above : List Node} {inner : Node}
    (h : walk above node [""] = .ok inner) : node = inner := by
  unfold walk at h
  split at h
  · cases h
  · rw [if_pos (by simp), walk] at h
    exact Except.ok.inj h

/-- Names lead to what is under them. -/
theorem toOption_walk (h : ∀ row ∈ node.rows, row.2.HasNames)
    (hnames : ∀ name ∈ names, Path.Plain name) (above : List Node) :
    (walk above node names).toOption = node.at? names := by
  induction names generalizing node above with
  | nil => rfl
  | cons name rest ih =>
    obtain ⟨hname, hrest⟩ := List.forall_mem_cons.1 hnames
    cases node with
    | file bytes => rfl
    | folder entries =>
      have hhas := h _ (Node.self_mem_rows _)
      unfold walk
      rw [if_neg (by simp [Node.isFolder]), if_neg (by simp [hname.ne_empty, hname.ne_here]),
        if_neg hname.ne_up, Node.at?]
      cases hchild : Node.child? (.folder entries) name with
      | none => split <;> rfl
      | some inner =>
        have hmem := (Node.child?_eq_some hhas.nodup).1 hchild
        have hshort := hhas.short name (List.mem_map_of_mem hmem)
        rw [if_neg (Nat.not_lt.2 hshort), Option.bind_some]
        refine ih (fun row hrow => h (name :: row.1, row.2) ?_) hrest _
        rw [Node.rows]
        exact List.mem_cons_of_mem _ (Node.mem_rowsOf.2 ⟨_, hmem, row.1, rfl, hrow⟩)

theorem checkPath_eq_ok : checkPath p = .ok () ↔
    '\x00' ∉ p.spelling.toList ∧ p.spelling.utf8ByteSize ≤ pathLimit ∧ p.spelling ≠ "" := by
  unfold checkPath
  split
  · next h => simp_all
  · next h =>
    split
    · next h' => simp [Nat.not_le.2 h']
    · next h' => split <;> simp_all

theorem node_eq_ok : d.node p = .ok node ↔ checkPath p = .ok () ∧
    walk [] d.root (p.pieces.map String.ofList) = .ok node := by
  have hnode : d.node p =
      (checkPath p).bind fun _ => walk [] d.root (p.pieces.map String.ofList) := rfl
  rw [hnode]
  cases checkPath p with
  | error e => simp [Except.bind]
  | ok u => simp [Except.bind]

/-- Names behind a path are walked from what it leads to. -/
theorem node_below (hnode : d.node p = .ok node) (hne : names ≠ [])
    (hnames : ∀ name ∈ names, Path.Plain name) : ∃ above, d.node (p.below names) =
      (checkPath (p.below names)).bind fun _ => walk above node names := by
  obtain ⟨hcheck, hwalk⟩ := node_eq_ok.1 hnode
  have hspelled : p.spelling ≠ "" := (checkPath_eq_ok.1 hcheck).2.2
  obtain ⟨ps, hp, hbelow⟩ := Path.pieces_below hspelled hne hnames
  have htexts : (names.map String.toList).map String.ofList = names := by
    simp
  have hall : ∀ above m,
      (∀ rest, walk [] d.root (ps.map String.ofList ++ rest) = walk above m rest) →
      d.node (p.below names) =
        (checkPath (p.below names)).bind fun _ => walk above m names := fun above m hm => by
    rw [← hm names, ← htexts, ← List.map_append, htexts, ← hbelow]
    rfl
  obtain ⟨e, he⟩ | ⟨above, m, hm⟩ := walk_append [] d.root (ps.map String.ofList)
  · rcases hp with hp | hp
    · rw [hp, ← List.append_nil (ps.map _), he] at hwalk
      cases hwalk
    · rw [hp, List.map_append, he] at hwalk
      cases hwalk
  · refine ⟨above, ?_⟩
    rcases hp with hp | hp
    · rw [hp, ← List.append_nil (ps.map _), hm] at hwalk
      obtain rfl : m = node := Except.ok.inj hwalk
      exact hall above _ hm
    · rw [hp, List.map_append, hm] at hwalk
      obtain rfl := of_walk_empty hwalk
      exact hall above _ hm

/-- **Below a readable directory, names lead to what is under them.** -/
theorem toOption_node_below (hnode : d.node p = .ok node) (h : node.Readable p)
    (hnames : ∀ name ∈ names, Path.Plain name) :
    (d.node (p.below names)).toOption = node.at? names := by
  by_cases hne : names = []
  · subst hne
    exact congrArg Except.toOption hnode
  · obtain ⟨above, hbelow⟩ := node_below hnode hne hnames
    have hwalk := toOption_walk h.names hnames above
    rw [hbelow]
    cases hat : node.at? names with
    | some inner =>
      rw [h.paths _ ((Node.mem_rows h.names).2 hat), ← hat, ← hwalk]
      rfl
    | none =>
      rw [hat] at hwalk
      cases checkPath (p.below names) with
      | error e => rfl
      | ok u => exact hwalk

end Directory
end HostInventory.FileTree
