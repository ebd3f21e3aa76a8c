import HostInventory.Enumeration.Update
import Mathlib.Data.List.Nodup

/-! Enumerations that are well formed.

The entries have distinct identities, each holds the instance of its own identity, and
the instance beside them is for the whole. An instance is then found under its identity
and at its place alike, and no two instances in an enumeration have the same subject. -/
namespace HostInventory.Enumeration

variable {Env Cache Data : Type}

structure WellFormed (e : Enumeration Cache Data) : Prop where
  distinct : e.ids.Nodup
  named : ∀ entry ∈ e.held, entry.2.subject = .named entry.1
  whole : ∀ i, e.total = some i → i.subject = .whole

/-- The subjects of the instances in an enumeration, the whole first. -/
def subjects (e : Enumeration Cache Data) : List Subject :=
  e.total.toList.map Instance.subject ++ e.held.map fun entry => entry.2.subject

theorem WellFormed.empty (cache : Cache) : WellFormed ({ cache } : Enumeration Cache Data) where
  distinct := List.nodup_nil
  named := by simp
  whole := by simp

/-! ### Looking up -/

theorem find?_eq_none {e : Enumeration Cache Data} {id : Identity} (h : id ∉ e.ids) :
    e.find? id = none := by
  simpa only [Bool.not_eq_true, Option.isSome_eq_false_iff, Option.isNone_iff_eq_none] using
    mt find?_isSome.1 h

theorem not_mem_ids_of_find? {e : Enumeration Cache Data} {id : Identity} (h : e.find? id = none) :
    id ∉ e.ids := by
  rw [← find?_isSome, h]
  nofun

/-- What is found under an identity is one of the entries. -/
theorem mem_held_of_find? {e : Enumeration Cache Data} {id : Identity} {i : Instance Data}
    (h : e.find? id = some i) : (id, i) ∈ e.held := by
  unfold find? at h
  obtain ⟨entry, hf, rfl⟩ := Option.map_eq_some_iff.1 h
  have hid : entry.1 = id := by simpa using List.find?_some hf
  rw [← hid]
  exact List.mem_of_find?_eq_some hf

namespace WellFormed

variable {e : Enumeration Cache Data}

/-- An entry is what is found under its identity. -/
theorem find?_eq_some (h : e.WellFormed) {id : Identity} {i : Instance Data}
    (hm : (id, i) ∈ e.held) : e.find? id = some i := by
  have hsome := find?_isSome.2 (mem_ids.2 ⟨i, hm⟩)
  obtain ⟨j, hj⟩ := Option.isSome_iff_exists.1 hsome
  have heq : ((id, j) : Identity × Instance Data) = (id, i) :=
    List.inj_on_of_nodup_map h.distinct (mem_held_of_find? hj) hm rfl
  rw [hj, (Prod.mk.inj heq).2]

theorem subject_of_find? (h : e.WellFormed) {id : Identity} {i : Instance Data}
    (hf : e.find? id = some i) : i.subject = .named id :=
  h.named _ (mem_held_of_find? hf)

/-- The subjects are the whole, if it is there, and the identities. -/
theorem subjects_eq (h : e.WellFormed) :
    e.subjects = (if e.total.isSome then [Subject.whole] else []) ++ e.ids.map Subject.named := by
  have hheld : (e.held.map fun entry => entry.2.subject) = e.ids.map Subject.named := by
    rw [ids, List.map_map]
    exact List.map_congr_left fun entry hm => h.named entry hm
  unfold subjects
  rw [hheld]
  cases ht : e.total with
  | none => rfl
  | some i => simp [h.whole i ht]

theorem named_mem_subjects (h : e.WellFormed) {id : Identity} :
    Subject.named id ∈ e.subjects ↔ id ∈ e.ids := by
  rw [h.subjects_eq]
  cases e.total <;> simp

theorem whole_mem_subjects (h : e.WellFormed) :
    Subject.whole ∈ e.subjects ↔ e.total.isSome = true := by
  rw [h.subjects_eq]
  cases e.total <;> simp

/-- No two instances have the same subject. -/
theorem nodup_subjects (h : e.WellFormed) : e.subjects.Nodup := by
  have hids : (e.ids.map Subject.named).Nodup :=
    List.Nodup.map (fun a b hab => Subject.named.inj hab) h.distinct
  rw [h.subjects_eq]
  cases e.total with
  | none => simpa using hids
  | some i => simpa using hids

end WellFormed
end HostInventory.Enumeration
