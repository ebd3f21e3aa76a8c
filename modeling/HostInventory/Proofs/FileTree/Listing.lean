import HostInventory.Proofs.FileTree.Components
import Mathlib.Data.List.Sort

/-! The order of paths and ordered listings.

Components are ordered by rank and names by their text, and paths by their components, step by
step; so two paths are equal in the order exactly when they are the same place
(`compare_eq_iff`). A listing is made by putting paths into order one by one: it is strictly
increasing, whatever the order they come in, and holds each place once
(`increasing_ordered`, `mem_of_mem_ordered`, `exists_mem_ordered`). The order is that of what
comes last, so the same names are listed in the same order behind every path
(`Lists.fileNames_eq`). -/
namespace HostInventory.FileTree

namespace Component

/-- What decides between two components of one rank. -/
def text : Component → String
  | .name text => text
  | _ => ""

theorem compare_eq_compareLex : compare = compareLex (compareOn rank) (compareOn text) := by
  funext a b
  cases a <;> cases b <;> rfl

instance : Std.TransCmp compare := by
  rw [compare_eq_compareLex]
  infer_instance

instance : Std.LawfulEqCmp compare where
  compare_self := Std.ReflCmp.compare_self
  eq_of_compare := by
    intro a b h
    cases a with
    | name x =>
      cases b with
      | name y =>
        have htext : Ord.compare x y = .eq := h
        rw [Std.LawfulEqOrd.eq_of_compare htext]
      | _ => cases h
    | root | here | up => cases b <;> first | rfl | cases h

end Component

namespace Path

theorem compareSteps_eq_compareLex : compareSteps = List.compareLex Component.compare := by
  funext as bs
  induction as generalizing bs with
  | nil => cases bs <;> rfl
  | cons a as ih =>
    cases bs with
    | nil => rfl
    | cons b bs => rw [compareSteps, ih, List.compareLex_cons_cons]

instance : Std.TransCmp compareSteps := by
  rw [compareSteps_eq_compareLex]
  infer_instance

instance : Std.LawfulEqCmp compareSteps := by
  rw [compareSteps_eq_compareLex]
  infer_instance

theorem compare_eq_iff {p q : Path} : p.compare q = .eq ↔ p.same q = true := by
  rw [same_iff]
  constructor
  · intro h
    have hsteps : compareSteps p.components q.components = .eq := h
    exact Std.LawfulEqCmp.eq_of_compare hsteps
  · intro h
    show compareSteps p.components q.components = .eq
    rw [h]
    exact Std.ReflCmp.compare_self

theorem compare_lt_trans {p q r : Path} (h : p.compare q = .lt) (h' : q.compare r = .lt) :
    p.compare r = .lt := by
  have hsteps : compareSteps p.components q.components = .lt := h
  show compareSteps p.components r.components = .lt
  exact Std.TransCmp.lt_trans hsteps h'

theorem compare_swap {p q : Path} (h : p.compare q = .gt) : q.compare p = .lt := by
  have hsteps : compareSteps p.components q.components = .gt := h
  show compareSteps q.components p.components = .lt
  exact Std.OrientedCmp.lt_of_gt hsteps

/-- Behind a common beginning, the order is that of the rest. -/
theorem compareSteps_append (cs as bs : List Component) :
    compareSteps (cs ++ as) (cs ++ bs) = compareSteps as bs := by
  induction cs with
  | nil => rfl
  | cons c cs ih =>
    have hself : c.compare c = .eq := Std.ReflCmp.compare_self
    rw [List.cons_append, List.cons_append, compareSteps, ih, hself, Ordering.eq_then]

end Path

namespace Tree

/-- A listing of paths: in order, and each place once. -/
def ordered (ps : List Path) : List Path :=
  ps.foldl (fun listing p => insertOrdered p listing) []

/-- Each path comes before the next, and so before all behind it. -/
def Increasing (ps : List Path) : Prop :=
  ps.Pairwise fun p q => p.compare q = .lt

theorem mem_of_mem_insertOrdered {p q : Path} {ps : List Path} (h : q ∈ insertOrdered p ps) :
    q = p ∨ q ∈ ps := by
  induction ps with
  | nil => exact .inl (List.mem_singleton.1 h)
  | cons first rest ih =>
    unfold insertOrdered at h
    split at h
    · exact List.mem_cons.1 h
    · exact .inr h
    · rcases List.mem_cons.1 h with rfl | h
      · exact .inr List.mem_cons_self
      · exact (ih h).imp_right (List.mem_cons_of_mem _)

/-- What is in a listing stays in it. -/
theorem mem_insertOrdered_of_mem {p q : Path} {ps : List Path} (h : q ∈ ps) :
    q ∈ insertOrdered p ps := by
  induction ps with
  | nil => cases h
  | cons first rest ih =>
    unfold insertOrdered
    split
    · exact List.mem_cons_of_mem _ h
    · exact h
    · rcases List.mem_cons.1 h with rfl | h
      · exact List.mem_cons_self
      · exact List.mem_cons_of_mem _ (ih h)

/-- The place is in the listing, if not under the same spelling. -/
theorem exists_mem_insertOrdered (p : Path) (ps : List Path) :
    ∃ q ∈ insertOrdered p ps, q.same p = true := by
  induction ps with
  | nil => exact ⟨p, List.mem_singleton_self p, p.same_refl⟩
  | cons first rest ih =>
    unfold insertOrdered
    split
    · exact ⟨p, List.mem_cons_self, p.same_refl⟩
    · next h => exact ⟨first, List.mem_cons_self, Path.same_symm (Path.compare_eq_iff.1 h)⟩
    · obtain ⟨q, hq, hsame⟩ := ih
      exact ⟨q, List.mem_cons_of_mem _ hq, hsame⟩

theorem Increasing.insertOrdered {p : Path} {ps : List Path} (h : Increasing ps) :
    Increasing (insertOrdered p ps) := by
  induction ps with
  | nil => exact List.pairwise_singleton _ p
  | cons first rest ih =>
    obtain ⟨hfirst, hrest⟩ := List.pairwise_cons.1 h
    unfold Tree.insertOrdered
    split
    · next hlt =>
      refine List.pairwise_cons.2 ⟨fun q hq => ?_, h⟩
      rcases List.mem_cons.1 hq with rfl | hq
      · exact hlt
      · exact Path.compare_lt_trans hlt (hfirst q hq)
    · exact h
    · next hgt =>
      refine List.pairwise_cons.2 ⟨fun q hq => ?_, ih hrest⟩
      rcases mem_of_mem_insertOrdered hq with rfl | hq
      · exact Path.compare_swap hgt
      · exact hfirst q hq

section Ordered
variable {ps listing : List Path}

theorem increasing_foldl (h : Increasing listing) :
    Increasing (ps.foldl (fun listing p => insertOrdered p listing) listing) := by
  induction ps generalizing listing with
  | nil => exact h
  | cons p rest ih => exact ih h.insertOrdered

theorem mem_of_mem_foldl {q : Path}
    (h : q ∈ ps.foldl (fun listing p => insertOrdered p listing) listing) :
    q ∈ listing ∨ q ∈ ps := by
  induction ps generalizing listing with
  | nil => exact .inl h
  | cons p rest ih =>
    rcases ih h with h | h
    · rcases mem_of_mem_insertOrdered h with rfl | h
      · exact .inr List.mem_cons_self
      · exact .inl h
    · exact .inr (List.mem_cons_of_mem _ h)

theorem mem_foldl_of_mem {q : Path} (h : q ∈ listing) :
    q ∈ ps.foldl (fun listing p => insertOrdered p listing) listing := by
  induction ps generalizing listing with
  | nil => exact h
  | cons p rest ih => exact ih (mem_insertOrdered_of_mem h)

theorem exists_mem_foldl {p : Path} (h : p ∈ ps) :
    ∃ q ∈ ps.foldl (fun listing p => insertOrdered p listing) listing, q.same p = true := by
  induction ps generalizing listing with
  | nil => cases h
  | cons first rest ih =>
    rw [List.foldl_cons]
    rcases List.mem_cons.1 h with rfl | h
    · obtain ⟨q, hq, hsame⟩ := exists_mem_insertOrdered p listing
      exact ⟨q, mem_foldl_of_mem hq, hsame⟩
    · exact ih h

/-- A listing is strictly increasing, so no place is in it twice. -/
theorem increasing_ordered : Increasing (ordered ps) :=
  increasing_foldl List.Pairwise.nil

theorem mem_of_mem_ordered {q : Path} (h : q ∈ ordered ps) : q ∈ ps :=
  (mem_of_mem_foldl h).resolve_left List.not_mem_nil

theorem exists_mem_ordered {p : Path} (h : p ∈ ps) : ∃ q ∈ ordered ps, q.same p = true :=
  exists_mem_foldl h

end Ordered

/-! ### Listings of names -/

/-- A listing that has each of the names behind one place, and nothing else. -/
structure Lists (place : List Component) (names : List String) (listing : List Path) : Prop where
  increasing : Increasing listing
  sound : ∀ p ∈ listing, ∃ name ∈ names, p.components = place ++ [.name name]
  complete : ∀ name ∈ names, ∃ p ∈ listing, p.components = place ++ [.name name]

/-- The order of file names. -/
inductive NameBefore : Option String → Option String → Prop
  | intro {a b : String} : Ord.compare a b = .lt → NameBefore (some a) (some b)

instance : Std.Irrefl NameBefore where
  irrefl a h := by
    obtain ⟨h⟩ := h
    exact Ordering.noConfusion (Std.ReflOrd.compare_self.symm.trans h)

instance : Std.Antisymm NameBefore where
  antisymm a b h h' := by
    obtain ⟨h⟩ := h
    obtain ⟨h'⟩ := h'
    rw [Std.OrientedCmp.gt_of_lt h] at h'
    cases h'

section Lists
variable {place place' : List Component} {names : List String} {listing listing' : List Path}

theorem fileName_of_components {p : Path} {name : String}
    (h : p.components = place ++ [.name name]) : p.fileName = some name := by
  rw [Path.fileName, h, List.getLast?_concat]

theorem Lists.mem_fileNames (h : Lists place names listing) {name : Option String} :
    name ∈ listing.map Path.fileName ↔ ∃ text ∈ names, name = some text := by
  rw [List.mem_map]
  constructor
  · rintro ⟨p, hp, rfl⟩
    obtain ⟨text, htext, hcomponents⟩ := h.sound p hp
    exact ⟨text, htext, fileName_of_components hcomponents⟩
  · rintro ⟨text, htext, rfl⟩
    obtain ⟨p, hp, hcomponents⟩ := h.complete text htext
    exact ⟨p, hp, fileName_of_components hcomponents⟩

theorem Lists.pairwise_fileNames (h : Lists place names listing) :
    (listing.map Path.fileName).Pairwise NameBefore := by
  rw [List.pairwise_map]
  refine h.increasing.imp_of_mem fun {p q} hp hq hlt => ?_
  obtain ⟨a, -, ha⟩ := h.sound p hp
  obtain ⟨b, -, hb⟩ := h.sound q hq
  have hsteps : Path.compareSteps [.name a] [.name b] = .lt := by
    rw [← Path.compareSteps_append place, ← ha, ← hb]
    exact hlt
  rw [fileName_of_components ha, fileName_of_components hb]
  refine .intro ?_
  have hthen : (Ord.compare a b).then .eq = .lt := hsteps
  rwa [Ordering.then_eq] at hthen

/-- Listings of the same names give them in the same order, wherever the places are. -/
theorem Lists.fileNames_eq (h : Lists place names listing) (h' : Lists place' names listing') :
    listing.map Path.fileName = listing'.map Path.fileName :=
  h.pairwise_fileNames.eq_of_mem_iff h'.pairwise_fileNames fun name => by
    rw [h.mem_fileNames, h'.mem_fileNames]

/-- Names put behind a path and into order. -/
theorem lists_ordered_div (p : Path) (h : ∀ name ∈ names, Path.Plain name) :
    Lists p.components names (ordered (names.map fun name => p / ⟨name⟩)) where
  increasing := increasing_ordered
  sound q hq := by
    obtain ⟨name, hname, rfl⟩ := List.mem_map.1 (mem_of_mem_ordered hq)
    exact ⟨name, hname, Path.components_div (h name hname) p⟩
  complete name hname := by
    obtain ⟨q, hq, hsame⟩ := exists_mem_ordered
      (List.mem_map_of_mem (f := fun name => p / (⟨name⟩ : Path)) hname)
    exact ⟨q, hq, (Path.same_iff.1 hsame).trans (Path.components_div (h name hname) p)⟩

end Lists

end Tree
end HostInventory.FileTree
