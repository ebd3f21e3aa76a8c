import HostInventory.Proofs.Log.LongestStart

/-! Which entry judges an event.

The directives of the settings are written as bare names, and a filter compares characters, so an
entry reaches beyond its part: it is also about the parts beside it whose names begin with its own.
Whatever filters by the longest start, an event is judged by the entry that covers its source
exactly if the longest entry that its source begins with does cover it
(`judged_by_longest_start`). -/
namespace HostInventory.Log

/-- With distinct names there is one entry with the longest name. -/
theorem entryFor_eq_some_iff {about : String → String → Prop} [DecidableRel about]
    (hstarts : ∀ {name place}, about name place → Starts name place) {log : LogSettings}
    (hd : (log.modules.map Prod.fst).Nodup) {place : String} {m : String × Severity} :
    entryFor about log place = some m ↔
      m ∈ log.modules ∧ about m.1 place ∧
        ∀ other ∈ log.modules, about other.1 place → other.1.length ≤ m.1.length := by
  have hof : ∀ {m}, entryFor about log place = some m → m ∈ log.modules ∧ about m.1 place ∧
      ∀ other ∈ log.modules, about other.1 place → other.1.length ≤ m.1.length := by
    intro m hm
    obtain ⟨hmem, habout⟩ := List.mem_filter.1 (List.argmax_mem hm)
    refine ⟨hmem, of_decide_eq_true habout, fun other ho hother => ?_⟩
    have hfilter : other ∈ log.modules.filter fun m => about m.1 place :=
      List.mem_filter.2 ⟨ho, decide_eq_true hother⟩
    exact List.le_of_mem_argmax (f := fun m : String × Severity => m.1.length) hfilter hm
  refine ⟨hof, fun ⟨hmem, habout, hlongest⟩ => ?_⟩
  cases hc : entryFor about log place with
  | none => exact absurd habout (entryFor_eq_none_iff.1 hc m hmem)
  | some c =>
    obtain ⟨hcmem, hcabout, hclongest⟩ := hof hc
    have hlength := Nat.le_antisymm (hlongest c hcmem hcabout) (hclongest m hmem habout)
    have hname := (hstarts hcabout).eq_of_length (hstarts habout) hlength
    exact congrArg some (List.inj_on_of_nodup_map hd hcmem hmem hname)

/-- The entry that covers a place is the longest that the place begins with, where that one
covers the place. -/
theorem entryFor_covers_eq_iff {log : LogSettings} (hd : (log.modules.map Prod.fst).Nodup)
    {place : String} :
    entryFor Covers log place = entryFor Starts log place ↔
      ∀ m ∈ entryFor Starts log place, Covers m.1 place := by
  constructor
  · intro he m hm
    exact ((entryFor_eq_some_iff Covers.starts hd).1 (he.trans hm)).2.1
  · intro h
    cases hs : entryFor Starts log place with
    | none =>
      exact entryFor_eq_none_iff.2 fun m hm hc => entryFor_eq_none_iff.1 hs m hm hc.starts
    | some m =>
      obtain ⟨hmem, -, hlongest⟩ := (entryFor_eq_some_iff id hd).1 hs
      exact (entryFor_eq_some_iff Covers.starts hd).2
        ⟨hmem, h m hs, fun other ho hother => hlongest other ho hother.starts⟩

/-! ### The filter of the settings -/

/-- **Which entry judges an event**, for any filter that judges by the longest start. With distinct
names of parts in the settings, and nothing from the environment, it is the entry with the longest
name that the event's source begins with, or the threshold for everything; and that is what covers
the source exactly if the entry that judges does. -/
theorem judged_by_longest_start {F : Type} {how : Filtering F} (h : how.ByLongestStart)
    {log : LogSettings} (hn : ∀ m ∈ log.modules, isModulePath m.1 = true)
    (hd : (log.modules.map Prod.fst).Nodup) (s : Switches) :
    ∃ f, how.build log s none = .ok f ∧ ∀ e,
      (how.passes f e = true ↔
        (Directive.ofEntry log s (entryFor Starts log e.source)).level ≤ e.severity) ∧
      (entryFor Covers log e.source = entryFor Starts log e.source ↔
        ∀ m ∈ entryFor Starts log e.source, Covers m.1 e.source) := by
  have hds := (directives_eq_ok_iff (s := s)).2 ⟨hn, rfl⟩
  have hnames : ∀ d ∈ Directive.ofEntry log s none ::
        log.modules.map fun m => Directive.ofEntry log s (some m),
      ∀ name ∈ d.part, isModulePath name = true := by
    rw [List.forall_mem_cons, List.forall_mem_map]
    exact ⟨nofun, fun m hm name h => Option.some.inj h ▸ hn m hm⟩
  have hparts : ((Directive.ofEntry log s none ::
      log.modules.map fun m => Directive.ofEntry log s (some m)).map Directive.part).Nodup := by
    rw [List.map_cons, List.map_map, List.nodup_cons]
    refine ⟨fun hmem => ?_, ?_⟩
    · obtain ⟨m, -, hm⟩ := List.mem_map.1 hmem
      cases hm
    · have hsome : (Directive.part ∘ fun m => Directive.ofEntry log s (some m)) =
          some ∘ Prod.fst := rfl
      rw [hsome, ← List.map_map]
      exact hd.map (Option.some_injective _)
  obtain ⟨f, hread, hpasses⟩ := h _ (List.cons_ne_nil _ _) hnames hparts
  refine ⟨f, (congrArg (· >>= _) hds).trans hread, fun e => ⟨?_, entryFor_covers_eq_iff hd⟩⟩
  rw [hpasses, deciding_of_directives Starts hds]
  simp

/-- Nested entries, of a part and of what is below it: the program's own filter judges what is
below both by the inner one, and what is beside them by the threshold for everything. -/
theorem judged_by_longest_start_nested :
    filtering.ByLongestStart ∧
    ∃ f, buildFilter ⟨.warn, [("syspal::collector", .debug), ("syspal::collector::disk", .off)]⟩
        {} none = .ok f ∧
      ∀ l, (f.passes ⟨l, "syspal::collector::cpu", "", []⟩ = true ↔ .debug ≤ l) ∧
        (f.passes ⟨l, "syspal::collector::disk::space", "", []⟩ = true ↔ .off ≤ l) ∧
        (f.passes ⟨l, "syspal::entity", "", []⟩ = true ↔ .warn ≤ l) := by
  let log : LogSettings :=
    ⟨.warn, [("syspal::collector", .debug), ("syspal::collector::disk", .off)]⟩
  have hn : ∀ m ∈ log.modules, isModulePath m.1 = true := by decide
  obtain ⟨f, hf, hall⟩ := judged_by_longest_start filtering_byLongestStart hn (by decide) {}
  have hpasses : ∀ place entry l, entryFor Starts log place = entry →
      (f.passes ⟨l, place, "", []⟩ = true ↔ (Directive.ofEntry log {} entry).level ≤ l) := by
    rintro place _ l rfl
    exact (hall ⟨l, place, "", []⟩).1
  exact ⟨filtering_byLongestStart, f, hf, fun l =>
    ⟨hpasses _ (some ("syspal::collector", .debug)) l (by decide),
      hpasses _ (some ("syspal::collector::disk", .off)) l (by decide),
      hpasses _ none l (by decide)⟩⟩

/-- An entry lets through what a part beside its own says, where everything is off and no entry
covers that part. -/
theorem judged_by_entry_beside :
    filtering.ByLongestStart ∧
    ∃ f, buildFilter ⟨.off, [("syspal::entity::enum", .trace)]⟩ {} none = .ok f ∧
      entryFor Covers ⟨.off, [("syspal::entity::enum", .trace)]⟩ "syspal::entity::enumeration" =
        none ∧
      f.passes ⟨.trace, "syspal::entity::enumeration", "cleanup", []⟩ = true :=
  ⟨filtering_byLongestStart,
    [{ level := .off }, { target := some "syspal::entity::enum", level := .trace }], by rfl,
    by decide, by decide⟩

end HostInventory.Log
