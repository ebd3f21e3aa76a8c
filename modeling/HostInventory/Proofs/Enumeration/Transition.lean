import HostInventory.Proofs.Enumeration.Reconciliation
import HostInventory.Proofs.Enumeration.Instances
import Mathlib.Data.List.Perm.Subperm

/-! What can become of what is held.

Whatever is done with an enumeration, some of the instances are let go of, and others are
taken in behind those that are left. `Transition` says so of the enumerations before and
after, as a law of conservation on the instances themselves: what was there and what is new is
what has been let go of and what is there. There is one lemma for each way in which it comes
about: entries are let go of (`Transition.filter`), entries are taken in (`Transition.append`),
the whole is replaced (`Transition.install`), or everything is let go of
(`Transition.release`). -/
namespace HostInventory.Enumeration

variable {Env Cache Data : Type}

/-- The subjects of instances. -/
def subjectsOf (handles : List Handle) : List Subject :=
  handles.map Handle.subject

/-- The instances in `released` are let go of, and those in `taken` are new. -/
structure Transition (e e' : Enumeration Cache Data) (released taken : List Handle) : Prop where
  wellFormed : e'.WellFormed
  ids_eq : e'.ids = (e.ids.filter fun id => .named id ∉ subjectsOf released) ++
    (subjectsOf taken).filterMap Subject.identity?
  conserved : (e.handles ++ taken).Perm (released ++ e'.handles)
  /-- What is let go of was there, once. -/
  was_held : released.Subperm e.handles
  /-- Only a whole takes the place of another. -/
  free : ∀ s ∈ subjectsOf taken, s ∈ e.subjects → s = .whole ∧ s ∈ subjectsOf released

theorem WellFormed.nodup_handles {e : Enumeration Cache Data} (h : e.WellFormed) :
    e.handles.Nodup := by
  have hnodup := h.nodup_subjects
  rw [subjects_eq_map_handles] at hnodup
  exact hnodup.of_map

namespace Transition

section Handles
variable {e e' : Enumeration Cache Data} {released taken : List Handle} {a : Handle}

end Handles

/-- Nothing happens to what is held. -/
theorem unchanged {e e' : Enumeration Cache Data} (h : e'.WellFormed) (hids : e'.ids = e.ids)
    (hheld : e'.handles = e.handles) : Transition e e' [] [] where
  wellFormed := h
  ids_eq := by simp [hids, subjectsOf]
  conserved := by simp [hheld]
  was_held := List.nil_subperm
  free := by simp [subjectsOf]

/-- What happens to the data afterwards makes no difference. -/
theorem before_unchanged {e m e' : Enumeration Cache Data} {released taken : List Handle}
    (h : Transition e m released taken) (hw : e'.WellFormed) (hids : e'.ids = m.ids)
    (hheld : e'.handles = m.handles) : Transition e e' released taken where
  wellFormed := hw
  ids_eq := hids.trans h.ids_eq
  conserved := hheld ▸ h.conserved
  was_held := h.was_held
  free := h.free

/-- First some are let go of, then others are taken in. -/
theorem andThen {e m e' : Enumeration Cache Data} {released taken : List Handle}
    (h : Transition e m released []) (h' : Transition m e' [] taken)
    (hfree : ∀ s ∈ subjectsOf taken, s ∉ e.subjects) : Transition e e' released taken where
  wellFormed := h'.wellFormed
  ids_eq := by
    have hm := h.ids_eq
    have hnil : (subjectsOf []).filterMap Subject.identity? = [] := rfl
    rw [hnil, List.append_nil] at hm
    rw [h'.ids_eq, hm]
    simp [subjectsOf]
  conserved := by
    have hleft : e.handles.Perm (released ++ m.handles) := by simpa using h.conserved
    have hright : (m.handles ++ taken).Perm e'.handles := by simpa using h'.conserved
    calc e.handles ++ taken
      _ |>.Perm (released ++ m.handles ++ taken) := hleft.append_right taken
      _ = released ++ (m.handles ++ taken) := List.append_assoc ..
      _ |>.Perm (released ++ e'.handles) := hright.append_left released
  was_held := h.was_held
  free := fun s hs he => absurd he (hfree s hs)

variable {e : Enumeration Cache Data}

/-- Entries are let go of by their identities. -/
theorem filter (h : e.WellFormed) (q : Identity → Bool) :
    Transition e { e with held := e.held.filter fun entry => q entry.1 }
      ((e.held.filter fun entry => !q entry.1).map fun entry => entry.2.handle) [] := by
  have hids : ids { e with held := e.held.filter fun entry => q entry.1 } = e.ids.filter q := by
    rw [ids, ids, List.filter_map]
    rfl
  have hw : WellFormed { e with held := e.held.filter fun entry => q entry.1 } := h.filter _
  have hsubjects :
      subjectsOf ((e.held.filter fun entry => !q entry.1).map fun entry => entry.2.handle) =
        (e.ids.filter fun id => !q id).map .named := by
    rw [ids, List.filter_map, List.map_map, subjectsOf, List.map_map]
    exact List.map_congr_left fun entry hm => h.named entry (List.mem_of_mem_filter hm)
  refine ⟨hw, ?_, ?_, ?_, by simp [subjectsOf]⟩
  · rw [hids, hsubjects, subjectsOf, List.map_nil, List.filterMap_nil, List.append_nil]
    apply List.filter_congr
    intro id hid
    cases hq : q id <;> simp [hq, hid]
  · have hsplit := (List.filter_append_perm (fun entry => q entry.1) e.held).symm.map
      fun entry => entry.2.handle
    rw [List.map_append] at hsplit
    simp only [handles, instances, List.map_append, List.map_map, Function.comp_def,
      List.append_nil]
    exact (hsplit.append_left _).trans (by
      rw [← List.append_assoc]
      exact List.perm_append_comm)
  · have hsub : ((e.held.filter fun entry => !q entry.1).map fun entry => entry.2.handle).Sublist
        (e.held.map fun entry => entry.2.handle) := List.filter_sublist.map _
    rw [handles, instances, List.map_append, List.map_map]
    exact (hsub.trans (List.sublist_append_right _ _)).subperm

/-- Entries are taken in behind the others. -/
theorem append (h : e.WellFormed) {new : List (Identity × Instance Data)}
    (hnamed : ∀ entry ∈ new, entry.2.subject = .named entry.1) (hnd : (new.map Prod.fst).Nodup)
    (hfree : ∀ id ∈ new.map Prod.fst, id ∉ e.ids) :
    Transition e { e with held := e.held ++ new } [] (new.map fun entry => entry.2.handle) := by
  have hids : ids { e with held := e.held ++ new } = e.ids ++ new.map Prod.fst :=
    List.map_append
  have hw : WellFormed { e with held := e.held ++ new } := by
    refine ⟨?_, ?_, h.whole⟩
    · rw [hids]
      exact h.distinct.append hnd fun id hid hnew => hfree id hnew hid
    · intro entry hm
      rcases List.mem_append.1 hm with hm | hm
      · exact h.named entry hm
      · exact hnamed entry hm
  have hsubjects : subjectsOf (new.map fun entry => entry.2.handle) =
      (new.map Prod.fst).map .named := by
    rw [subjectsOf, List.map_map, List.map_map]
    exact List.map_congr_left hnamed
  refine ⟨hw, ?_, ?_, List.nil_subperm, ?_⟩
  · rw [hids, hsubjects, List.filterMap_map]
    simp [subjectsOf, Function.comp_def, Subject.identity?]
  · simp [handles, instances, Function.comp_def]
  · intro s hs he
    rw [hsubjects] at hs
    obtain ⟨id, hid, rfl⟩ := List.mem_map.1 hs
    exact absurd (h.named_mem_subjects.1 he) (hfree id hid)

/-- A whole is taken in, and the one before it is let go of. -/
theorem install (h : e.WellFormed) {i : Instance Data} (hi : i.subject = .whole) :
    Transition e { e with total := some i } (e.total.toList.map Instance.handle) [i.handle] := by
  have hw : WellFormed { e with total := some i } := by
    refine ⟨h.distinct, h.named, ?_⟩
    rintro j ⟨⟩
    exact hi
  have hreleased : ∀ s ∈ subjectsOf (e.total.toList.map Instance.handle), s = .whole := by
    intro s hs
    rw [subjectsOf, List.map_map] at hs
    obtain ⟨j, hj, rfl⟩ := List.mem_map.1 hs
    exact h.whole j (Option.mem_toList.1 hj)
  have htaken : subjectsOf [i.handle] = [.whole] := congrArg (fun s => [s]) hi
  refine ⟨hw, ?_, ?_, ?_, ?_⟩
  · have hall : ∀ id ∈ e.ids,
        decide (Subject.named id ∉ subjectsOf (e.total.toList.map Instance.handle)) := by
      intro id _
      exact decide_eq_true fun hm => nomatch hreleased _ hm
    rw [List.filter_eq_self.2 hall, htaken, List.filterMap_cons_none rfl, List.filterMap_nil,
      List.append_nil]
    rfl
  · simp only [handles, instances, List.map_append, Option.toList_some, List.map_cons,
      List.map_nil, List.append_assoc]
    exact List.perm_append_comm.append_left _
  · rw [handles, instances, List.map_append]
    exact (List.sublist_append_left _ _).subperm
  · intro s hs he
    rw [htaken, List.mem_singleton] at hs
    subst hs
    obtain ⟨j, hj⟩ := Option.isSome_iff_exists.1 (h.whole_mem_subjects.1 he)
    have hmem : j.handle ∈ e.total.toList.map Instance.handle :=
      List.mem_map_of_mem (Option.mem_toList.2 hj)
    exact ⟨rfl, List.mem_map.2 ⟨j.handle, hmem, h.whole j hj⟩⟩

/-- Everything is let go of. -/
theorem release (h : e.WellFormed) (phase : Phase) (cache : Cache) :
    Transition e { phase, cache } e.handles [] where
  wellFormed := ⟨List.nodup_nil, by simp, by simp⟩
  ids_eq := by
    have hnone : (e.ids.filter fun id => .named id ∉ subjectsOf e.handles) = [] := by
      rw [List.filter_eq_nil_iff]
      intro id hid
      have hin := h.named_mem_subjects.2 hid
      rw [subjects_eq_map_handles] at hin
      simpa [subjectsOf] using hin
    rw [hnone]
    rfl
  conserved := List.Perm.refl _
  was_held := List.Subperm.refl _
  free := by simp [subjectsOf]

end Transition

end HostInventory.Enumeration
