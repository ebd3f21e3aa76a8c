import Mathlib.Data.List.MinMax
import HostInventory.Log.Directive

/-! The threshold of a place of the program.

A directive for a part of the program is meant for the part itself and for everything
below it, behind two more colons (`Covers`); the one for everything is meant for every
place. Of the directives that are about a place the one with the longest name decides,
and its threshold is the threshold of the place (`threshold?`). Which entry of the
settings decides does not depend on the switches (`deciding_of_directives`), so a switch
moves a threshold only as it moves that entry's own.

More verbosity never raises a threshold, and under quiet none is below errors. Quiet
raises every threshold but one: where no entry is about a place and the settings have
turned everything off, it lets errors through (`thresholds_of_switches`). -/
namespace HostInventory.Log

/-- The place is the part `name`, or below it. -/
def Covers (name place : String) : Prop :=
  place = name ∨ name.toList ++ [':', ':'] <+: place.toList

instance : DecidableRel Covers := fun name place =>
  inferInstanceAs (Decidable (place = name ∨ name.toList ++ [':', ':'] <+: place.toList))

/-- The directive that decides on a place, where `about` says which names are about which
places: the first of those with the longest name. -/
def deciding (about : String → String → Prop) [DecidableRel about] (ds : List Directive)
    (place : String) : Option Directive :=
  (ds.filter fun d => d.part.all fun name => about name place).argmax
    fun d => (d.part.getD "").length

/-- The threshold of a place. -/
def threshold? (ds : List Directive) (place : String) : Option Severity :=
  (deciding Covers ds place).map Directive.level

/-! ### Thresholds under the switches -/

theorem effectiveLevel_antitone (log : LogSettings) {v w : Nat} (h : v ≤ w) :
    effectiveLevel log ⟨w, false⟩ ≤ effectiveLevel log ⟨v, false⟩ := by
  match v, w with
  | 0, 0 => exact Severity.le_refl _
  | 0, 1 => exact Severity.lower_le_left _ _
  | 0, _ + 2 => exact Nat.zero_le _
  | 1, 0 => exact absurd h (by omega)
  | 1, 1 => exact Severity.le_refl _
  | 1, _ + 2 => exact Nat.zero_le _
  | _ + 2, 0 => exact absurd h (by omega)
  | _ + 2, 1 => exact absurd h (by omega)
  | _ + 2, _ + 2 => exact Severity.le_refl _

/-- What quiet does to the threshold for everything: it is put to errors, and that is a
step down from silence only. -/
theorem effectiveLevel_le_quiet_iff (log : LogSettings) (v : Nat) :
    effectiveLevel log ⟨v, false⟩ ≤ effectiveLevel log ⟨v, true⟩ ↔
      ¬(v = 0 ∧ log.level = .off) := by
  change effectiveLevel log ⟨v, false⟩ ≤ .error ↔ _
  match v with
  | 0 =>
    simp only [effectiveLevel, true_and]
    cases log.level <;> decide
  | 1 => exact iff_of_true (Severity.le_trans (Severity.lower_le_right _ _) (by decide)) (by simp)
  | _ + 2 => exact iff_of_true (Nat.zero_le _) (by simp)

/-! ### The entry that decides -/

/-- The directive that an entry of the settings gives under the switches; without an
entry, the one for everything. -/
def Directive.ofEntry (log : LogSettings) (s : Switches) : Option (String × Severity) → Directive
  | none => ⟨none, effectiveLevel log s⟩
  | some m => ⟨some m.1, partLevel s m.2⟩

/-- The entry with the longest name that is about a place. -/
def entryFor (about : String → String → Prop) [DecidableRel about] (log : LogSettings)
    (place : String) : Option (String × Severity) :=
  (log.modules.filter fun m => about m.1 place).argmax fun m => m.1.length

theorem argmax_map {α β : Type} (f : β → Nat) (g : α → β) (xs : List α) :
    (xs.map g).argmax f = (xs.argmax (f ∘ g)).map g := by
  induction xs using List.reverseRecOn with
  | nil => rfl
  | append_singleton xs x ih =>
    rw [List.map_append, List.map_singleton, List.argmax_concat, List.argmax_concat, ih]
    cases xs.argmax (f ∘ g) with
    | none => rfl
    | some best =>
      simp only [Option.map_some, Function.comp_apply]
      split <;> rfl

theorem directives_eq_ok_iff {log : LogSettings} {s : Switches} {ds : List Directive} :
    directives log s = .ok ds ↔
      (∀ m ∈ log.modules, isModulePath m.1 = true) ∧
        ds = .ofEntry log s none :: log.modules.map fun m => .ofEntry log s (some m) := by
  unfold directives
  split
  · next m hm =>
    have hbad := List.find?_some hm
    refine iff_of_false (by simp) fun h => ?_
    simp [h.1 m (List.mem_of_find?_eq_some hm)] at hbad
  · next hall =>
    simp only [List.find?_eq_none, Bool.not_eq_true, Bool.not_eq_false'] at hall
    exact ⟨fun h => ⟨hall, (Except.ok.inj h).symm⟩, fun h => h.2 ▸ rfl⟩

theorem length_pos_of_isModulePath {name : String} (h : isModulePath name = true) :
    0 < name.length := by
  rcases Nat.eq_zero_or_pos name.length with hz | hz
  · rw [String.length_eq_zero_iff.1 hz] at h
    exact absurd h (by decide)
  · exact hz

theorem mem_of_entryFor {about : String → String → Prop} [DecidableRel about] {log : LogSettings}
    {place : String} {m : String × Severity} (h : m ∈ entryFor about log place) :
    m ∈ log.modules :=
  List.mem_of_mem_filter (List.argmax_mem h)

/-- The switches have no part in which entry decides. -/
theorem deciding_of_directives (about : String → String → Prop) [DecidableRel about]
    {log : LogSettings} {s : Switches} {ds : List Directive} (h : directives log s = .ok ds)
    (place : String) :
    deciding about ds place = some (.ofEntry log s (entryFor about log place)) := by
  obtain ⟨hn, rfl⟩ := directives_eq_ok_iff.1 h
  have hparts : (log.modules.map fun m => Directive.ofEntry log s (some m)).filter
        (fun d => d.part.all fun name => about name place) =
      (log.modules.filter fun m => about m.1 place).map fun m => .ofEntry log s (some m) := by
    rw [List.filter_map]
    rfl
  have hlongest : ((log.modules.filter fun m => about m.1 place).map
          fun m => Directive.ofEntry log s (some m)).argmax (fun d => (d.part.getD "").length) =
      (entryFor about log place).map fun m => .ofEntry log s (some m) :=
    argmax_map _ _ _
  -- The directive for everything stands first, but counts as of length zero.
  rw [deciding, List.filter_cons_of_pos rfl, hparts, List.argmax_cons, hlongest]
  cases he : entryFor about log place with
  | none => rfl
  | some m => exact if_pos (length_pos_of_isModulePath (hn m (mem_of_entryFor he)))

theorem entryFor_eq_none_iff {about : String → String → Prop} [DecidableRel about]
    {log : LogSettings} {place : String} :
    entryFor about log place = none ↔ ∀ m ∈ log.modules, ¬about m.1 place := by
  simp [entryFor, List.argmax_eq_none, List.filter_eq_nil_iff]

/-- **What the switches do to thresholds.** With names of parts in the settings, every place
of the program has a threshold under any switches. It does not rise with verbosity, and
under quiet it is at least `error`. Quiet does not lower it either, except in one case: without
verbosity, where everything is off and no entry is about the place. -/
theorem thresholds_of_switches {log : LogSettings}
    (hn : ∀ m ∈ log.modules, isModulePath m.1 = true) (place : String) :
    ∃ thr : Switches → Severity,
      (∀ s, ∃ ds, directives log s = .ok ds ∧ threshold? ds place = some (thr s)) ∧
      (∀ v w, v ≤ w → thr ⟨w, false⟩ ≤ thr ⟨v, false⟩) ∧
      (∀ v, .error ≤ thr ⟨v, true⟩) ∧
      ∀ v, thr ⟨v, false⟩ ≤ thr ⟨v, true⟩ ↔
        ¬(v = 0 ∧ log.level = .off ∧ ∀ m ∈ log.modules, ¬Covers m.1 place) := by
  refine ⟨fun s => (Directive.ofEntry log s (entryFor Covers log place)).level,
    fun s => ?_, fun v w h => ?_, fun v => ?_, fun v => ?_⟩
  · have hds := (directives_eq_ok_iff (s := s)).2 ⟨hn, rfl⟩
    exact ⟨_, hds, by rw [threshold?, deciding_of_directives Covers hds, Option.map_some]⟩
  · cases entryFor Covers log place with
    | none => exact effectiveLevel_antitone log h
    | some m => exact Severity.le_refl _
  · cases entryFor Covers log place with
    | none => exact Severity.le_refl _
    | some m => exact Severity.right_le_upper _ _
  · rw [← entryFor_eq_none_iff]
    cases entryFor Covers log place with
    | none => exact (effectiveLevel_le_quiet_iff log v).trans (by simp)
    | some m => exact iff_of_true (Severity.left_le_upper _ _) (by simp)

/-- Nested entries, one of them silent, under settings that let warnings through: below the
inner entry quiet changes nothing. -/
theorem thresholds_of_switches_nested :
    ∃ thr : Switches → Severity,
      (∀ s, ∃ ds,
        directives ⟨.warn, [("syspal", .debug), ("syspal::entity", .off)]⟩ s = .ok ds ∧
          threshold? ds "syspal::entity::enumeration" = some (thr s)) ∧
      (∀ v w, v ≤ w → thr ⟨w, false⟩ ≤ thr ⟨v, false⟩) ∧
      (∀ v, .error ≤ thr ⟨v, true⟩) ∧
      thr ⟨0, false⟩ ≤ thr ⟨0, true⟩ := by
  let log : LogSettings := ⟨.warn, [("syspal", .debug), ("syspal::entity", .off)]⟩
  have hn : ∀ m ∈ log.modules, isModulePath m.1 = true := by decide
  obtain ⟨thr, hthr, hverbose, hquiet, hiff⟩ :=
    thresholds_of_switches hn "syspal::entity::enumeration"
  exact ⟨thr, hthr, hverbose, hquiet, (hiff 0).2 (by decide)⟩

/-- Where everything is off and there is no entry, quiet lets errors through. -/
theorem threshold_lowered_by_quiet :
    ∃ silent errors : List Directive,
      directives ⟨.off, []⟩ ⟨0, false⟩ = .ok silent ∧ threshold? silent "syspal" = some .off ∧
        directives ⟨.off, []⟩ ⟨0, true⟩ = .ok errors ∧ threshold? errors "syspal" = some .error ∧
        ¬Severity.off ≤ .error :=
  ⟨[⟨none, .off⟩], [⟨none, .error⟩], by decide, by decide, by decide, by decide, by decide⟩

end HostInventory.Log
