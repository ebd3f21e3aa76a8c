import HostInventory.Proofs.Enumeration.WellFormed

/-! The instances in an enumeration.

What is done to every instance at its place is a map of the enumeration (`map`): the identities
stay, in their order, and what is found under one of them is the image of what was found before.
If the map keeps the subjects too, then the enumeration stays well formed (`WellFormed.map`). -/
namespace HostInventory.Enumeration

variable {Cache Data Data' : Type}

/-- The instances in an enumeration, the whole first. -/
def instances (e : Enumeration Cache Data) : List (Instance Data) :=
  e.total.toList ++ e.held.map Prod.snd

/-- What the instances in an enumeration are called by. -/
def handles (e : Enumeration Cache Data) : List Handle :=
  e.instances.map Instance.handle

theorem mem_instances_of_find? {e : Enumeration Cache Data} {id : Identity} {i : Instance Data}
    (h : e.find? id = some i) : i ∈ e.instances :=
  List.mem_append_right _ (List.mem_map_of_mem (mem_held_of_find? h))

theorem subjects_eq_map (e : Enumeration Cache Data) :
    e.subjects = e.instances.map Instance.subject := by
  simp only [subjects, instances, List.map_append, List.map_map, Function.comp_def]

theorem subjects_eq_map_handles (e : Enumeration Cache Data) :
    e.subjects = e.handles.map Handle.subject := by
  rw [subjects_eq_map, handles, List.map_map]
  rfl

theorem WellFormed.eq_of_subject {e : Enumeration Cache Data} (h : e.WellFormed)
    {i j : Instance Data} (hi : i ∈ e.instances) (hj : j ∈ e.instances)
    (hs : i.subject = j.subject) : i = j := by
  have hnodup := h.nodup_subjects
  rw [subjects_eq_map] at hnodup
  exact List.inj_on_of_nodup_map hnodup hi hj hs

/-- The instance with other data. -/
def Instance.map (f : Data → Data') (i : Instance Data) : Instance Data' where
  subject := i.subject
  failure := i.failure
  data := f i.data
  serial := i.serial

@[simp] theorem Instance.map_subject (f : Data → Data') (i : Instance Data) :
    (i.map f).subject = i.subject := rfl

@[simp] theorem Instance.map_handle (f : Data → Data') (i : Instance Data) :
    (i.map f).handle = i.handle := rfl

@[simp] theorem Instance.map_data (f : Data → Data') (i : Instance Data) :
    (i.map f).data = f i.data := rfl

theorem Instance.map_reset (f : Data → Data') (i : Instance Data) :
    (i.map f).reset = i.reset.map f := rfl

/-- The enumeration with other instances at the same places. -/
def map (g : Instance Data → Instance Data') (e : Enumeration Cache Data) :
    Enumeration Cache Data' where
  phase := e.phase
  total := e.total.map g
  held := e.held.map fun entry => (entry.1, g entry.2)
  cache := e.cache

section Map
variable (g : Instance Data → Instance Data') (e : Enumeration Cache Data)

@[simp] theorem phase_map : (e.map g).phase = e.phase := rfl

@[simp] theorem total_map : (e.map g).total = e.total.map g := rfl

@[simp] theorem held_map : (e.map g).held = e.held.map fun entry => (entry.1, g entry.2) := rfl

@[simp] theorem cache_map : (e.map g).cache = e.cache := rfl

@[simp] theorem ids_map : (e.map g).ids = e.ids := by
  simp only [ids, map, List.map_map, Function.comp_def]

@[simp] theorem isHeld_map (id : Identity) : (e.map g).isHeld id = e.isHeld id := by
  simp only [isHeld, map, List.any_map, Function.comp_def]

theorem find?_map (id : Identity) : (e.map g).find? id = (e.find? id).map g := by
  simp only [find?, map, List.find?_map, Option.map_map, Function.comp_def]

theorem instances_map : (e.map g).instances = e.instances.map g := by
  simp only [instances, map, List.map_append, List.map_map, Option.toList_map, Function.comp_def]

theorem map_map {Data'' : Type} (g' : Instance Data' → Instance Data'') :
    (e.map g).map g' = e.map fun i => g' (g i) := by
  simp only [map, Option.map_map, List.map_map, Function.comp_def]

variable {g e}

theorem map_congr {g' : Instance Data → Instance Data'} (h : ∀ i ∈ e.instances, g i = g' i) :
    e.map g = e.map g' := by
  have htotal : e.total.map g = e.total.map g' :=
    Option.map_congr fun i hi => h i (List.mem_append_left _ (Option.mem_toList.2 hi))
  have hheld : (e.held.map fun entry => (entry.1, g entry.2)) =
      e.held.map fun entry => (entry.1, g' entry.2) :=
    List.map_congr_left fun entry hm => by
      rw [h entry.2 (List.mem_append_right _ (List.mem_map_of_mem hm))]
  rw [map, map, htotal, hheld]

theorem map_eq_self {g : Instance Data → Instance Data} (h : ∀ i ∈ e.instances, g i = i) :
    e.map g = e := by
  rw [map_congr h, map, Option.map_id', List.map_id']

theorem handles_map (hg : ∀ i, (g i).handle = i.handle) : (e.map g).handles = e.handles := by
  simp only [handles, instances_map, List.map_map, Function.comp_def, hg]

variable (hg : ∀ i, (g i).subject = i.subject)
include hg

theorem WellFormed.map (h : e.WellFormed) : (e.map g).WellFormed where
  distinct := by
    rw [ids_map]
    exact h.distinct
  named := by
    intro entry hm
    obtain ⟨old, hold, rfl⟩ := List.mem_map.1 hm
    exact (hg old.2).trans (h.named old hold)
  whole := by
    intro i hi
    obtain ⟨old, hold, rfl⟩ := Option.map_eq_some_iff.1 hi
    exact (hg old).trans (h.whole old hold)

end Map

end HostInventory.Enumeration
