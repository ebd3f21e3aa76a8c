import HostInventory.Proofs.Log.Thresholds
import HostInventory.Proofs.Log.Written
import HostInventory.Proofs.Text.ByteOrder
import HostInventory.Proofs.Text.Lines

/-! Directives taken apart again.

A name of a part is segments of letters, digits and underscores with two colons between any two
(`IsPartName`), and that is what the check of names asks for (`isModulePath_iff`): segments are
found again between pairs of colons, since none holds a colon (`segments_intercalate`), and nothing
else of a name is lost (`intercalate_segments`). No such name holds a comma or an equals sign, so
the text that directives are joined to comes apart into what it was made of
(`directives_taken_apart`), and what is not such a name never gets into it.

The parts of settings stand in the order of the bytes of their names (`Ordered`), which decides
what is complained about where several names are refused. The hypothesis is met by all settings
that are loaded (`ordered_of_ofText`), in whatever order the document has them. -/
namespace HostInventory.Log

open Text.Utf8 (bytes)

/-! ### Names of parts -/

/-- Letters, digits and underscores of ASCII, and at least one of them. -/
def IsSegment (s : List Char) : Prop :=
  s ≠ [] ∧ ∀ c ∈ s, c.isAlphanum = true ∨ c = '_'

/-- One segment or more, with two colons between any two. -/
def IsPartName (name : String) : Prop :=
  ∃ parts, parts ≠ [] ∧ (∀ part ∈ parts, IsSegment part) ∧
    name.toList = [':', ':'].intercalate parts

theorem isSegment_iff {s : List Char} :
    IsSegment s ↔ (!s.isEmpty && s.all isSegmentChar) = true := by
  simp [IsSegment, isSegmentChar]

theorem IsSegment.not_mem {s : List Char} (h : IsSegment s) : ':' ∉ s :=
  fun hc => absurd (h.2 ':' hc) (by decide)

theorem segments_ne_nil (s : List Char) : segments s ≠ [] := by
  fun_cases segments s <;> simp_all

/-- What holds no colon is the start of the segment behind it. -/
theorem segments_append {part : List Char} (h : ':' ∉ part) {s first : List Char}
    {others : List (List Char)} (hs : segments s = first :: others) :
    segments (part ++ s) = (part ++ first) :: others := by
  induction part with
  | nil => exact hs
  | cons c part ih =>
    obtain ⟨hc, hpart⟩ := not_or.1 (mt List.mem_cons.2 h)
    rw [List.cons_append, segments.eq_2 _ _ fun _ he _ => hc he.symm, ih hpart, List.cons_append]

/-- Segments are found again between pairs of colons, as long as they hold no colon. -/
theorem segments_intercalate {parts : List (List Char)} (hne : parts ≠ [])
    (h : ∀ part ∈ parts, ':' ∉ part) : segments ([':', ':'].intercalate parts) = parts := by
  induction parts with
  | nil => exact absurd rfl hne
  | cons part rest ih =>
    obtain ⟨hpart, hrest⟩ := List.forall_mem_cons.1 h
    cases rest with
    | nil =>
      have hlast := segments_append hpart (s := []) rfl
      rw [List.append_nil] at hlast
      rw [List.intercalate_singleton]
      exact hlast
    | cons next rest =>
      have hnext := ih (List.cons_ne_nil _ _) hrest
      have hpair : segments (':' :: ':' :: [':', ':'].intercalate (next :: rest)) =
          [] :: next :: rest := congrArg _ hnext
      rw [List.intercalate_cons_cons, List.append_assoc]
      have hfirst := segments_append hpart hpair
      rwa [List.append_nil] at hfirst

/-- Nothing of a name is lost between its segments but pairs of colons. -/
theorem intercalate_segments (s : List Char) : [':', ':'].intercalate (segments s) = s := by
  induction s using segments.induct with
  | case1 rest ih =>
    obtain ⟨first, others, hs⟩ := List.exists_cons_of_ne_nil (segments_ne_nil rest)
    rw [segments, hs, List.intercalate_cons_cons, ← hs, ih]
    rfl
  | case2 c rest hc hnil ih => exact absurd hnil (segments_ne_nil rest)
  | case3 c rest hc first others hs ih =>
    rw [hs] at ih
    rw [segments.eq_2 _ _ hc, hs]
    cases others with
    | nil => simpa using ih
    | cons next others =>
      rw [List.intercalate_cons_cons] at ih ⊢
      rw [List.append_assoc, List.cons_append, ← List.append_assoc, ih]
  | case4 => rfl

theorem isModulePath_iff {name : String} : isModulePath name = true ↔ IsPartName name := by
  have hall : isModulePath name = true ↔ ∀ part ∈ segments name.toList, IsSegment part := by
    simp only [isModulePath, List.all_eq_true, isSegment_iff]
  rw [hall]
  constructor
  · exact fun h => ⟨_, segments_ne_nil _, h, (intercalate_segments _).symm⟩
  · rintro ⟨parts, hne, hparts, hname⟩
    rw [hname, segments_intercalate hne fun part hpart => (hparts part hpart).not_mem]
    exact hparts

/-! ### Names that are refused -/

/-- The parts of the settings are in the order of the bytes of their names. -/
def Ordered (modules : List (String × Severity)) : Prop :=
  modules.Pairwise fun a b => bytes a.1 ≤ bytes b.1

/-- What is found first comes first of all that could have been found. -/
theorem Ordered.le_of_find? {modules : List (String × Severity)} (h : Ordered modules)
    {p : String × Severity → Bool} {first other : String × Severity}
    (hfind : modules.find? p = some first) (hother : other ∈ modules) (hp : p other = true) :
    bytes first.1 ≤ bytes other.1 := by
  obtain ⟨-, before, after, rfl, hbefore⟩ := List.find?_eq_some_iff_append.1 hfind
  rcases List.mem_append.1 hother with hother | hother
  · have hnot := hbefore other hother
    rw [hp] at hnot
    cases hnot
  · rcases List.mem_cons.1 hother with rfl | hother
    · exact List.le_refl _
    · exact (List.pairwise_cons.1 (List.pairwise_append.1 h).2.1).1 other hother

/-- The name that is complained about is the first one in order that is no name of a part. -/
theorem directives_eq_error_iff {log : LogSettings} (hordered : Ordered log.modules) {s : Switches}
    {e : SettingsError} : directives log s = .error e ↔
      ∃ m ∈ log.modules, e = .notModule m.1 ∧ isModulePath m.1 = false ∧
        ∀ other ∈ log.modules, isModulePath other.1 = false → bytes m.1 ≤ bytes other.1 := by
  unfold directives
  split
  · next first hfirst =>
    have hleast : ∀ other ∈ log.modules, isModulePath other.1 = false →
        bytes first.1 ≤ bytes other.1 := fun other hother hbad =>
      hordered.le_of_find? hfirst hother (by rw [hbad]; rfl)
    have hmem := List.mem_of_find?_eq_some hfirst
    have hbad : isModulePath first.1 = false := by simpa using List.find?_some hfirst
    rw [Except.error.injEq]
    constructor
    · rintro rfl
      exact ⟨first, hmem, rfl, hbad, hleast⟩
    · rintro ⟨m, hm, rfl, hbad', hleast'⟩
      have hsame := List.le_antisymm (hleast m hm hbad') (hleast' first hmem hbad)
      rw [Text.Utf8.bytes_injective hsame]
  · next hnone =>
    refine iff_of_false nofun ?_
    rintro ⟨m, hm, -, hbad, -⟩
    have hgood := List.find?_eq_none.1 hnone m hm
    rw [hbad] at hgood
    exact hgood rfl

/-! ### Settings that are loaded -/

theorem mem_insertNamed {m : String × Severity} (entry : String × Severity)
    {modules : List (String × Severity)} :
    m ∈ Settings.insertNamed entry modules ↔ m = entry ∨ m ∈ modules := by
  induction modules with
  | nil => exact List.mem_cons
  | cons other rest ih =>
    unfold Settings.insertNamed
    split
    · exact List.mem_cons
    · rw [List.mem_cons, ih, List.mem_cons]
      exact or_left_comm

theorem Ordered.insertNamed {modules : List (String × Severity)} (h : Ordered modules)
    (entry : String × Severity) : Ordered (Settings.insertNamed entry modules) := by
  induction modules with
  | nil => exact List.pairwise_singleton _ _
  | cons other rest ih =>
    obtain ⟨hother, hrest⟩ := List.pairwise_cons.1 h
    unfold Settings.insertNamed
    split
    · next hlt =>
      have hle : bytes entry.1 ≤ bytes other.1 := Text.Utf8.bytes_le_iff.2 hlt.le
      refine List.pairwise_cons.2 ⟨?_, h⟩
      exact List.forall_mem_cons.2 ⟨hle, fun m hm => List.le_trans hle (hother m hm)⟩
    · next hlt =>
      refine List.pairwise_cons.2 ⟨fun m hm => ?_, ih hrest⟩
      rcases (mem_insertNamed entry).1 hm with rfl | hm
      · exact Text.Utf8.bytes_le_iff.2 (not_lt.1 hlt)
      · exact hother m hm

theorem ordered_of_readModules {v : Toml.Value} {modules : List (String × Severity)}
    (h : Settings.readModules v = some modules) : Ordered modules := by
  cases v with
  | table entries =>
    obtain ⟨named, -, h⟩ := Option.bind_eq_some_iff.1 h
    rw [← Option.some.inj h]
    exact List.foldlRecOn named _ List.Pairwise.nil fun _ hsorted entry _ =>
      hsorted.insertNamed entry
  | _ => cases h

/-- A setting of a group that is not its default was read from something. -/
theorem eq_default_or_of_get {α : Type} {g : Settings.Group} {name : String}
    {reader : Toml.Value → Option α} {default a : α} (h : g.get name reader default = some a) :
    a = default ∨ ∃ v, reader v = some a := by
  unfold Settings.Group.get at h
  split at h
  · exact .inl (Option.some.inj h).symm
  · exact .inr ⟨_, h⟩

theorem ordered_of_readLog {v : Toml.Value} {log : LogSettings}
    (h : Settings.readLog v = some log) : Ordered log.modules := by
  obtain ⟨g, -, h⟩ := Option.bind_eq_some_iff.1 h
  obtain ⟨level, -, h⟩ := Option.bind_eq_some_iff.1 h
  obtain ⟨modules, hmodules, h⟩ := Option.bind_eq_some_iff.1 h
  obtain rfl := Option.some.inj h
  obtain rfl | ⟨v, hv⟩ := eq_default_or_of_get hmodules
  · exact List.Pairwise.nil
  · exact ordered_of_readModules hv

/-- The settings of the log that a document has are read from one of its groups. -/
theorem log_of_ofTable {entries : List (String × Toml.Value)} {settings : Settings}
    (h : Settings.ofTable entries = some settings) :
    settings.log = {} ∨ ∃ v, Settings.readLog v = some settings.log := by
  obtain ⟨g, -, h⟩ := Option.bind_eq_some_iff.1 h
  obtain ⟨paths, -, h⟩ := Option.bind_eq_some_iff.1 h
  obtain ⟨log, hlog, h⟩ := Option.bind_eq_some_iff.1 h
  obtain ⟨interval, -, h⟩ := Option.bind_eq_some_iff.1 h
  obtain ⟨cpu, -, h⟩ := Option.bind_eq_some_iff.1 h
  obtain ⟨disk, -, h⟩ := Option.bind_eq_some_iff.1 h
  obtain ⟨network, -, h⟩ := Option.bind_eq_some_iff.1 h
  obtain ⟨software, -, h⟩ := Option.bind_eq_some_iff.1 h
  obtain rfl := Option.some.inj h
  exact eq_default_or_of_get hlog

/-- The parts of settings that were loaded are in order, however the document has them. -/
theorem ordered_of_ofText {text : String} {settings : Settings}
    (h : Settings.ofText text = .ok settings) : Ordered settings.log.modules := by
  unfold Settings.ofText at h
  split at h
  · next hread =>
    obtain rfl := Except.ok.inj h
    obtain ⟨entries, -, htable⟩ := Option.bind_eq_some_iff.1 hread
    rcases log_of_ofTable htable with hlog | ⟨v, hv⟩
    · rw [hlog]
      exact List.Pairwise.nil
    · exact ordered_of_readLog hv
  · cases h

/-! ### The text of directives -/

/-- The directives of the settings hold names of parts only. -/
theorem isModulePath_of_directives {log : LogSettings} {s : Switches} {ds : List Directive}
    (h : directives log s = .ok ds) :
    ds ≠ [] ∧ ∀ d ∈ ds, ∀ name ∈ d.part, isModulePath name = true := by
  obtain ⟨hnames, rfl⟩ := directives_eq_ok_iff.1 h
  refine ⟨List.cons_ne_nil _ _, ?_⟩
  rw [List.forall_mem_cons, List.forall_mem_map]
  exact ⟨nofun, fun m hm name hname => Option.some.inj hname ▸ hnames m hm⟩

/-- The pieces of the text are the threshold for everything and one piece for each part. -/
theorem pieces_of_directives {log : LogSettings} {s : Switches} {ds : List Directive}
    (h : directives log s = .ok ds) : ∃ rest,
      Text.pieces (· == ',') (filterText ds none).toList =
        (effectiveLevel log s).name.toList :: rest ∧
      rest.map (Text.splitFirst '=') =
        log.modules.map fun m => some (m.1.toList, (partLevel s m.2).name.toList) := by
  obtain ⟨hne, hnames⟩ := isModulePath_of_directives h
  rw [pieces_filterText hne hnames]
  obtain ⟨hmodules, rfl⟩ := directives_eq_ok_iff.1 h
  refine ⟨_, rfl, ?_⟩
  rw [List.map_map, List.map_map]
  exact List.map_congr_left fun m hm => splitFirst_text (hmodules m hm) _

theorem Severity.name_injective : Function.Injective Severity.name := by
  intro a b
  cases a <;> cases b <;> decide

theorem entry_injective :
    Function.Injective fun m : String × Severity => some (m.1.toList, m.2.name.toList) := by
  intro m m' h
  obtain ⟨hname, hlevel⟩ := Prod.mk.inj (Option.some.inj h)
  exact Prod.ext (String.toList_inj.1 hname) (Severity.name_injective (String.toList_inj.1 hlevel))

/-- Two rows of directives with one text come apart into the same pieces, so they are one row. -/
theorem directives_of_text {log log' : LogSettings} {s s' : Switches} {ds ds' : List Directive}
    (h : directives log s = .ok ds) (h' : directives log' s' = .ok ds')
    (htext : filterText ds' none = filterText ds none) : ds' = ds := by
  obtain ⟨rest, hpieces, hrest⟩ := pieces_of_directives h
  obtain ⟨rest', hpieces', hrest'⟩ := pieces_of_directives h'
  rw [htext, hpieces] at hpieces'
  obtain ⟨hlevel, rfl⟩ := List.cons.inj hpieces'
  have hentries : log'.modules.map (fun m => (m.1, partLevel s' m.2)) =
      log.modules.map fun m => (m.1, partLevel s m.2) := by
    refine entry_injective.list_map ?_
    rw [List.map_map, List.map_map]
    exact hrest'.symm.trans hrest
  obtain ⟨-, rfl⟩ := directives_eq_ok_iff.1 h
  obtain ⟨-, rfl⟩ := directives_eq_ok_iff.1 h'
  have hparts := congrArg (List.map fun m => (⟨some m.1, m.2⟩ : Directive)) hentries
  rw [List.map_map, List.map_map] at hparts
  exact congrArg₂ List.cons
    (congrArg (Directive.mk none) (Severity.name_injective (String.toList_inj.1 hlevel)).symm)
    hparts

/-- **A text of directives says what the settings say, and no name can say more.** There are
directives exactly if every name is made of segments, and the first name that is not is complained
about. The text comes apart at its commas and equals signs into the thresholds and names it was made
of, so no other directives, of these settings or others, have the same text. -/
theorem directives_taken_apart {log : LogSettings} (hordered : Ordered log.modules)
    (s : Switches) :
    ((∃ ds, directives log s = .ok ds) ↔ ∀ m ∈ log.modules, IsPartName m.1) ∧
    (∀ e, directives log s = .error e ↔ ∃ m ∈ log.modules, e = .notModule m.1 ∧
      ¬IsPartName m.1 ∧ ∀ other ∈ log.modules, ¬IsPartName other.1 → bytes m.1 ≤ bytes other.1) ∧
    ∀ ds, directives log s = .ok ds →
      (∀ {F : Type} (how : Filtering F), how.build log s none = how.read (filterText ds none)) ∧
      (∃ rest, Text.pieces (· == ',') (filterText ds none).toList =
          (effectiveLevel log s).name.toList :: rest ∧
        rest.map (Text.splitFirst '=') =
          log.modules.map fun m => some (m.1.toList, (partLevel s m.2).name.toList)) ∧
      ∀ log' s' ds', directives log' s' = .ok ds' → filterText ds' none = filterText ds none →
        ds' = ds := by
  have hbad : ∀ {name : String}, isModulePath name = false ↔ ¬IsPartName name := by
    intro name
    rw [← isModulePath_iff, Bool.not_eq_true]
  refine ⟨?_, fun e => ?_, fun ds h => ⟨?_, pieces_of_directives h, ?_⟩⟩
  · simp only [directives_eq_ok_iff, exists_and_left, exists_eq, and_true, isModulePath_iff]
  · simp only [directives_eq_error_iff hordered, hbad]
  · exact fun _ => congrArg (· >>= _) h
  · exact fun log' s' ds' h' => directives_of_text h h'

/-- A document with its parts out of order, under quiet; and one with two names that are refused, of
which the one that comes later in the document is first in order. -/
theorem directives_taken_apart_loaded :
    (∃ settings ds rest,
      Settings.ofText "[log.modules]\n\"syspal::entity\" = \"debug\"\nsyspal = \"off\"\n" =
          .ok settings ∧
        directives settings.log ⟨0, true⟩ = .ok ds ∧
        Text.pieces (· == ',') (filterText ds none).toList = "error".toList :: rest ∧
        rest.map (Text.splitFirst '=') =
          [some ("syspal".toList, "off".toList), some ("syspal::entity".toList, "error".toList)]) ∧
    ∃ settings,
      Settings.ofText "[log.modules]\n\"syspal=off,x\" = \"info\"\n\"syspal:::disk\" = \"info\"\n" =
          .ok settings ∧
        directives settings.log ⟨0, false⟩ = .error (.notModule "syspal:::disk") := by
  constructor
  · let settings : Settings :=
      { log := { modules := [("syspal", .off), ("syspal::entity", .debug)] } }
    have hload : Settings.ofText
        "[log.modules]\n\"syspal::entity\" = \"debug\"\nsyspal = \"off\"\n" = .ok settings := by
      decide +kernel
    have hnames : ∀ m ∈ settings.log.modules, isModulePath m.1 = true := by decide
    obtain ⟨hall, -, hapart⟩ := directives_taken_apart (ordered_of_ofText hload) ⟨0, true⟩
    obtain ⟨ds, hds⟩ := hall.2 fun m hm => isModulePath_iff.1 (hnames m hm)
    obtain ⟨-, ⟨rest, hpieces, hrest⟩, -⟩ := hapart ds hds
    exact ⟨settings, ds, rest, hload, hds, hpieces, hrest⟩
  · let settings : Settings :=
      { log := { modules := [("syspal:::disk", .info), ("syspal=off,x", .info)] } }
    have hload : Settings.ofText
        "[log.modules]\n\"syspal=off,x\" = \"info\"\n\"syspal:::disk\" = \"info\"\n" =
          .ok settings := by
      decide +kernel
    have hfirst : ∀ other ∈ settings.log.modules, bytes "syspal:::disk" ≤ bytes other.1 := by
      decide +kernel
    obtain ⟨-, herror, -⟩ := directives_taken_apart (ordered_of_ofText hload) ⟨0, false⟩
    refine ⟨settings, hload, (herror _).2 ⟨_, List.mem_cons_self, rfl, ?_, ?_⟩⟩
    · exact mt isModulePath_iff.2 (by decide)
    · exact fun other hother _ => hfirst other hother

end HostInventory.Log
