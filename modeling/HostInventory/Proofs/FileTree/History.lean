import HostInventory.Proofs.FileTree.Coherence
import Mathlib.Data.List.Induction

/-! What a tree has kept of its edits.

Each answer of a tree at a path is decided by one edit in its history: the last one that has a say
about the path (`Lasts`). A file is as it was written last, unless it has been removed since, on its
own or with something above it. A directory is there from the first edit at it or below it, until
it is removed, on its own or with something above it. The space of a filesystem is as it was set
last and not cleared since, and no file or directory has a say in it. Paths are compared by
their components throughout, so the spelling of neither plays a part (`answers_of_history`). -/
namespace HostInventory.FileTree.Tree

namespace Edit

/-- The edit writes a file at a path. -/
def WritesFile (p : Path) (text : String) : Edit → Prop
  | .addFile q written => q.components = p.components ∧ written = text
  | _ => False

/-- The edit says what file there is at a path, or that there is none any more. -/
def DecidesFile (p : Path) : Edit → Prop
  | .addFile q _ | .removeFile q => q.components = p.components
  | .removeDirectory top => top.components <+: p.components
  | _ => False

/-- The edit needs a directory at a path: it adds it, or something strictly below it. -/
def MakesDirectory (p : Path) : Edit → Prop
  | .addDirectory q => p.components <+: q.components
  | .addFile q _ => p.components <+: q.components ∧ p.components ≠ q.components
  | _ => False

/-- The edit removes all that is at a path or below it, and perhaps more. -/
def RemovesDirectory (p : Path) : Edit → Prop
  | .removeDirectory top => top.components <+: p.components
  | _ => False

def SetsSpace (p : Path) (space : Space) : Edit → Prop
  | .setSpace q set => q.components = p.components ∧ set = space
  | _ => False

def DecidesSpace (p : Path) : Edit → Prop
  | .setSpace q _ | .clearSpace q => q.components = p.components
  | _ => False

end Edit

/-- Among the edits is one that makes something, and none of those behind it ends that. -/
def Lasts (makes ends : Edit → Prop) (edits : List Edit) : Prop :=
  ∃ before edit after, edits = before ++ edit :: after ∧ makes edit ∧
    ∀ later ∈ after, ¬ends later

/-! ### Histories -/

section Histories
variable {makes ends : Edit → Prop}

theorem not_lasts_nil : ¬Lasts makes ends [] := by
  rintro ⟨before, edit, after, h, -⟩
  exact absurd h.symm (List.append_ne_nil_of_right_ne_nil _ (List.cons_ne_nil _ _))

/-- What lasts has been made by the last edit, or lasted before and has not been ended by it. -/
theorem lasts_concat {edits : List Edit} {edit : Edit} :
    Lasts makes ends (edits ++ [edit]) ↔ makes edit ∨ ¬ends edit ∧ Lasts makes ends edits := by
  constructor
  · rintro ⟨before, made, after, h, hmakes, hafter⟩
    rcases List.eq_nil_or_concat' after with rfl | ⟨between, last, rfl⟩
    · obtain ⟨-, hlast⟩ := List.append_inj' h rfl
      exact .inl (List.singleton_inj.1 hlast ▸ hmakes)
    · rw [← List.cons_append, ← List.append_assoc] at h
      obtain ⟨hedits, hlast⟩ := List.append_inj' h rfl
      obtain rfl := List.singleton_inj.1 hlast
      obtain ⟨hbetween, hends⟩ := List.forall_mem_append.1 hafter
      exact .inr ⟨hends edit (List.mem_singleton_self edit), before, made, between, hedits, hmakes,
        hbetween⟩
  · rintro (hmakes | ⟨hends, before, made, after, rfl, hmakes, hafter⟩)
    · exact ⟨edits, edit, [], rfl, hmakes, nofun⟩
    · refine ⟨before, made, after ++ [edit], by simp, hmakes, ?_⟩
      exact List.forall_mem_append.2 ⟨hafter, List.forall_mem_singleton.2 hends⟩

/-- What each edit makes or leaves, and nothing has to begin with, is what lasts of the edits. -/
theorem run_iff_lasts {P : Tree → Prop} (hempty : ¬P {})
    (hstep : ∀ t edit, P (t.apply edit) ↔ makes edit ∨ ¬ends edit ∧ P t) (edits : List Edit) :
    P (run {} edits) ↔ Lasts makes ends edits := by
  induction edits using List.reverseRecOn with
  | nil => exact iff_of_false hempty not_lasts_nil
  | append_singleton edits edit ih =>
    rw [lasts_concat, ← ih, run_append]
    exact hstep _ edit

end Histories

/-! ### One edit -/

section Tables
variable {α : Type} {t : Table α} {p q top : Path} {a b : α}

theorem find?_insert_eq_some : (t.insert q a).find? p = some b ↔
    (q.components = p.components ∧ a = b) ∨
      ¬q.components = p.components ∧ t.find? p = some b := by
  rw [← Path.same_iff]
  cases hsame : q.same p with
  | true => simp [← Table.find?_congr _ hsame, Table.find?_insert_self]
  | false => simp [Table.find?_insert_of_not_same _ hsame]

theorem find?_erase_eq_some :
    (t.erase q).find? p = some b ↔ ¬q.components = p.components ∧ t.find? p = some b := by
  rw [← Path.same_iff]
  cases hsame : q.same p with
  | true => simp [← Table.find?_congr _ hsame, Table.find?_erase_self]
  | false => simp [Table.find?_erase_of_not_same _ hsame]

theorem find?_eraseBelow_eq_some : (t.eraseBelow top).find? p = some b ↔
    ¬top.components <+: p.components ∧ t.find? p = some b := by
  rw [← Path.isAtOrBelow_iff]
  cases hbelow : p.isAtOrBelow top with
  | true => simp [Table.find?_eraseBelow_of_isAtOrBelow _ hbelow]
  | false => simp [Table.find?_eraseBelow_of_not_isAtOrBelow _ hbelow]

end Tables

section Edits
variable {t : Tree} {p : Path}

theorem read_eq_ok {text : String} : t.read p = .ok text ↔ t.files.find? p = some text := by
  unfold read
  cases t.files.find? p <;> simp

theorem space_eq_ok {space : Space} : t.space p = .ok space ↔ t.spaces.find? p = some space := by
  unfold Tree.space
  cases t.spaces.find? p <;> simp

theorem read_apply {text : String} (edit : Edit) :
    (t.apply edit).read p = .ok text ↔
      edit.WritesFile p text ∨ ¬edit.DecidesFile p ∧ t.read p = .ok text := by
  rw [read_eq_ok, read_eq_ok]
  cases edit with
  | addFile q written => exact find?_insert_eq_some
  | removeFile q => exact find?_erase_eq_some.trans (or_iff_right id).symm
  | removeDirectory top => exact find?_eraseBelow_eq_some.trans (or_iff_right id).symm
  | addDirectory | setSpace | clearSpace => exact ((or_iff_right id).trans (and_iff_right id)).symm

theorem space_apply {space : Space} (edit : Edit) :
    (t.apply edit).space p = .ok space ↔
      edit.SetsSpace p space ∨ ¬edit.DecidesSpace p ∧ t.space p = .ok space := by
  rw [space_eq_ok, space_eq_ok]
  cases edit with
  | setSpace q set => exact find?_insert_eq_some
  | clearSpace q => exact find?_erase_eq_some.trans (or_iff_right id).symm
  | addFile | addDirectory | removeFile | removeDirectory =>
    exact ((or_iff_right id).trans (and_iff_right id)).symm

/-- An empty path lies above everything and is never made a directory for that. -/
theorem isOk_list_apply (hp : p.spelling ≠ "") (edit : Edit) :
    ((t.apply edit).list p).isOk = true ↔
      edit.MakesDirectory p ∨ ¬edit.RemovesDirectory p ∧ (t.list p).isOk = true := by
  rw [isOk_list_iff, isOk_list_iff]
  cases edit with
  | addFile q text =>
    simp only [apply, addFile, directories_addAbove, Path.isAbove_iff, Edit.MakesDirectory,
      Edit.RemovesDirectory, not_false_iff, true_and, and_iff_left hp]
    exact or_comm
  | addDirectory q =>
    have hmakes : q.same p = true ∨ p.isAbove q = true ∧ p.spelling ≠ "" ↔
        p.components <+: q.components := by
      rw [Path.same_iff, Path.isAbove_iff, and_iff_left hp]
      by_cases heq : q.components = p.components
      · simp [heq]
      · simp [heq, Ne.symm heq]
    simp only [apply, directories_addDirectory, hmakes, Edit.MakesDirectory,
      Edit.RemovesDirectory, not_false_iff, true_and]
    exact or_comm
  | removeDirectory top =>
    simp only [apply, removeDirectory, Table.contains_eraseBelow, Edit.MakesDirectory,
      Edit.RemovesDirectory, false_or, ← Path.isAtOrBelow_iff, Bool.not_eq_true]
    exact and_comm
  | removeFile | setSpace | clearSpace => exact ((or_iff_right id).trans (and_iff_right id)).symm

/-- Removing a directory is seen at or below it only. -/
theorem answers_removeDirectory {top : Path} (h : ¬top.components <+: p.components) :
    (t.removeDirectory top).read p = t.read p ∧
      (t.removeDirectory top).contains p = t.contains p ∧
      ((t.removeDirectory top).list p).isOk = (t.list p).isOk := by
  have hkept : p.isAtOrBelow top = false := by rwa [Bool.eq_false_iff, ne_eq, Path.isAtOrBelow_iff]
  refine ⟨?_, ?_, ?_⟩
  · rw [read, read, removeDirectory, Table.find?_eraseBelow_of_not_isAtOrBelow _ hkept]
  · rw [Bool.eq_iff_iff, contains_removeDirectory, and_iff_left hkept]
  · rw [Bool.eq_iff_iff, isOk_list_iff, isOk_list_iff, removeDirectory, Table.contains_eraseBelow,
      and_iff_left hkept]

end Edits

/-! ### All edits -/

/-- **A tree answers what its edits have left**, at any path and under any spelling: the text
written last, a directory made or implied, the space set last, each unless an edit since has
undone it. Removing a directory hides what is at or below it, and nothing else. -/
theorem answers_of_history (edits : List Edit) {p : Path} (hp : p.spelling ≠ "") :
    let t := run {} edits
    (∀ text, t.read p = .ok text ↔ Lasts (·.WritesFile p text) (·.DecidesFile p) edits) ∧
    ((t.list p).isOk = true ↔ Lasts (·.MakesDirectory p) (·.RemovesDirectory p) edits) ∧
    (∀ space, t.space p = .ok space ↔
      Lasts (·.SetsSpace p space) (·.DecidesSpace p) edits) ∧
    (t.contains p = true ↔ (t.read p).isOk = true ∨ (t.list p).isOk = true) ∧
    ∀ top, let t' := run {} (edits ++ [.removeDirectory top])
      t'.space p = t.space p ∧
      (top.components <+: p.components → t'.contains p = false) ∧
      (¬top.components <+: p.components →
        t'.read p = t.read p ∧ t'.contains p = t.contains p ∧
          (t'.list p).isOk = (t.list p).isOk) := by
  intro t
  have hremoved (top : Path) : run {} (edits ++ [.removeDirectory top]) = t.removeDirectory top :=
    run_append ..
  refine ⟨fun text => ?_, ?_, fun space => ?_, (Closed.empty.run edits).coherent.exists_iff p,
    fun top => ?_⟩
  · exact run_iff_lasts (P := (·.read p = .ok text)) nofun (fun _ => read_apply) edits
  · exact run_iff_lasts (P := fun t => (t.list p).isOk = true) nofun
      (fun _ => isOk_list_apply hp) edits
  · exact run_iff_lasts (P := (·.space p = .ok space)) nofun (fun _ => space_apply) edits
  · rw [hremoved top]
    refine ⟨rfl, fun hbelow => ?_, answers_removeDirectory⟩
    rw [Bool.eq_false_iff, ne_eq, contains_removeDirectory, Path.isAtOrBelow_iff.2 hbelow]
    nofun

/-- Two files whose directories share a spelling up to a point. One of them is removed with its
directory, under another spelling, and written again. -/
def respelledEdits : List Edit :=
  [.addFile ⟨"/a/b/c"⟩ "one", .addFile ⟨"/a/bc"⟩ "two", .removeDirectory ⟨"//a/./b/"⟩,
    .addFile ⟨"/a//b/c"⟩ "three"]

theorem answers_of_history_respelled :
    (run {} respelledEdits).read ⟨"/a/b/c"⟩ = .ok "three" ∧
      ((run {} respelledEdits).list ⟨"/a/b"⟩).isOk = true ∧
      (run {} (respelledEdits ++ [.removeDirectory ⟨"/a/b"⟩])).contains ⟨"/a/b/c"⟩ = false ∧
      (run {} (respelledEdits ++ [.removeDirectory ⟨"/a/b"⟩])).read ⟨"/a/bc"⟩ =
        (run {} respelledEdits).read ⟨"/a/bc"⟩ := by
  obtain ⟨hread, -, -, -, hbelow⟩ := answers_of_history respelledEdits (p := ⟨"/a/b/c"⟩) (by decide)
  obtain ⟨-, hlist, -⟩ := answers_of_history respelledEdits (p := ⟨"/a/b"⟩) (by decide)
  obtain ⟨-, -, -, -, hbeside⟩ := answers_of_history respelledEdits (p := ⟨"/a/bc"⟩) (by decide)
  refine ⟨(hread "three").2 ⟨respelledEdits.take 3, _, [], rfl, ?_, nofun⟩,
    hlist.2 ⟨respelledEdits.take 3, _, [], rfl, ?_, nofun⟩, (hbelow ⟨"/a/b"⟩).2.1 ?_,
    ((hbeside ⟨"/a/b"⟩).2.2 ?_).1⟩
  · exact ⟨by decide +kernel, rfl⟩
  · exact ⟨by decide +kernel, by decide +kernel⟩
  · decide +kernel
  · decide +kernel

end HostInventory.FileTree.Tree
