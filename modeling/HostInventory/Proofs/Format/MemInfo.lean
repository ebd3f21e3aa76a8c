import HostInventory.Format.MemInfo
import HostInventory.Proofs.Rearranged
import HostInventory.Proofs.Text.Lines

/-! What a memory table states.

A table states a figure under a label by the last line that starts with it, whatever stands in
the other lines (`stated`). The labels do not start each other, so a line says something about one
of them at most (`starts_unique`), and reading line by line keeps what each label's last line has
said (`get_foldl`). Of a missing line and of one without a number nothing is left but a zero, just
as of a line that says zero (`get_read`). So two texts give one table if under each label the same
lines follow each other (`read_congr`), whatever else there is and wherever it stands
(`read_last_wins`). -/
namespace HostInventory.Format.MemInfo

/-- The figure under a label. -/
def get (info : MemInfo) : Label → Nat
  | .total => info.total
  | .free => info.free
  | .available => info.available
  | .buffers => info.buffers
  | .cached => info.cached
  | .swapTotal => info.swapTotal
  | .swapFree => info.swapFree

/-- The number of a line, if its second word is one. -/
def number? (line : List Char) : Option Nat :=
  (Text.words line)[1]?.bind (Text.readNumeral Text.wordBound64)

/-- The last line of a text that starts with a label. -/
def lastLine (label : Label) (text : String) : Option (List Char) :=
  ((Text.lines text.toList).filter label.starts).getLast?

/-- The number that a table gives under a label. -/
def stated (label : Label) (text : String) : Option Nat :=
  (lastLine label text).bind number?

/-! ### One line -/

section Line
variable {info : MemInfo} {label other : Label} {line : List Char}

/-- A line starts with one label at most, since no label starts another. -/
theorem starts_unique (h : label.starts line = true) (h' : other.starts line = true) :
    label = other := by
  have hlabels : ∀ a b : Label, a.text.toList <+: b.text.toList → a = b := by
    intro a b hab
    cases a <;> cases b <;> first | rfl | exact absurd hab (by decide)
  rw [Label.starts, List.isPrefixOf_iff_prefix] at h h'
  rcases List.prefix_or_prefix_of_prefix h h' with hab | hab
  · exact hlabels label other hab
  · exact (hlabels other label hab).symm

/-- The label that is found for a line is the one that it starts with. -/
theorem find?_starts : Label.all.find? (·.starts line) = some label ↔ label.starts line = true := by
  have hall : label ∈ Label.all := by cases label <;> decide
  have hstarts : ∀ {a}, Label.all.find? (·.starts line) = some a → a.starts line = true :=
    fun ha => List.find?_some (p := fun a : Label => a.starts line) ha
  refine ⟨hstarts, fun h => ?_⟩
  cases hfound : Label.all.find? (·.starts line) with
  | none => exact absurd h (List.find?_eq_none.1 hfound label hall)
  | some first => rw [starts_unique (hstarts hfound) h]

theorem get_set (n : Nat) :
    (info.set label n).get other = if label = other then n else info.get other := by
  cases label <;> cases other <;> rfl

/-- A line sets the figure under its label and leaves the others as they are. -/
theorem get_readLine : (info.readLine line).get label =
    if label.starts line then figure line else info.get label := by
  unfold readLine
  split
  · next first hfound =>
    rw [get_set]
    by_cases h : label.starts line = true
    · rw [if_pos h, if_pos (starts_unique (find?_starts.1 hfound) h)]
    · have hne : first ≠ label := fun heq => h (heq ▸ find?_starts.1 hfound)
      rw [if_neg h, if_neg hne]
  · next hnone =>
    rw [if_neg fun h => ?_]
    rw [find?_starts.2 h] at hnone
    cases hnone

theorem hasTotal_readLine : (info.readLine line).hasTotal = true ↔
    Label.total.starts line = true ∨ info.hasTotal = true := by
  rw [← find?_starts, readLine]
  split
  · next first hfound => cases first <;> simp [set, hfound]
  · next hnone => simp [hnone]

end Line

/-! ### All lines -/

section Lines
variable {info : MemInfo} {label : Label}

/-- After some lines a figure is that of the last line with its label, or as it was. -/
theorem get_foldl (lines : List (List Char)) : (lines.foldl readLine info).get label =
    ((lines.filter label.starts).getLast?.map figure).getD (info.get label) :=
  Text.foldl_of_last (f := readLine) (p := label.starts) (·.get label)
    (fun _ _ => get_readLine) info lines

theorem hasTotal_foldl (lines : List (List Char)) : (lines.foldl readLine info).hasTotal = true ↔
    (∃ line ∈ lines, Label.total.starts line = true) ∨ info.hasTotal = true := by
  induction lines using List.reverseRecOn with
  | nil => simp
  | append_singleton lines line ih =>
    rw [List.foldl_append, List.foldl_cons, List.foldl_nil, hasTotal_readLine, ih]
    simp [or_left_comm, or_comm]

end Lines

/-- What is read under a label is what the table states, and zero where it states nothing. -/
theorem get_read (label : Label) (text : String) :
    (read text).get label = (stated label text).getD 0 := by
  have hnone : ({} : MemInfo).get label = 0 := by cases label <;> rfl
  rw [read, get_foldl, hnone, stated, lastLine]
  cases ((Text.lines text.toList).filter label.starts).getLast? <;> rfl

theorem hasTotal_read (text : String) : (read text).hasTotal = true ↔
    ∃ line ∈ Text.lines text.toList, Label.total.starts line = true := by
  rw [read, hasTotal_foldl]
  exact or_iff_left Bool.false_ne_true

/-! ### Texts of one table -/

/-- The line starts with none of the labels. -/
def Foreign (line : List Char) : Prop :=
  ∀ label : Label, label.starts line = false

theorem eq_of_get {info info' : MemInfo} (htotal : info.hasTotal = info'.hasTotal)
    (hget : ∀ label, info.get label = info'.get label) : info = info' := by
  cases info
  cases info'
  simp only [mk.injEq]
  exact ⟨htotal, hget .total, hget .free, hget .available, hget .buffers, hget .cached,
    hget .swapTotal, hget .swapFree⟩

/-- Only the lines under each label count, and their order among themselves. -/
theorem read_congr {text text' : String}
    (h : ∀ label : Label, (Text.lines text'.toList).filter label.starts =
      (Text.lines text.toList).filter label.starts) : read text' = read text := by
  refine eq_of_get ?_ fun label => ?_
  · have hlines : ∀ t : String, (read t).hasTotal = true ↔
        ∃ line, line ∈ (Text.lines t.toList).filter Label.total.starts := fun t => by
      simp only [hasTotal_read, List.mem_filter]
    rw [Bool.eq_iff_iff, hlines, hlines, h]
  · rw [get_read, get_read, stated, stated, lastLine, lastLine, h]

/-- **Of the lines with a label the last one counts**: its second word is the figure, zero if
that is no number. So lines with other labels may be put in anywhere, and lines may change places
as long as none overtakes another one with its own label. -/
theorem read_last_wins (text : String) :
    (∀ label, (read text).get label = (stated label text).getD 0) ∧
    ((read text).hasTotal = true ↔
      ∃ line ∈ Text.lines text.toList, Label.total.starts line = true) ∧
    (∀ text', Text.InRows Eq Foreign (Text.lines text.toList) (Text.lines text'.toList) →
      read text' = read text) ∧
    ∀ text' (σ : Equiv.Perm (Fin (Text.lines text.toList).length)),
      Text.lines text'.toList = rearranged σ (Text.lines text.toList) →
      (∀ label : Label, KeepsOrder (Text.lines text.toList) σ label.starts) →
      read text' = read text := by
  refine ⟨fun label => get_read label text, hasTotal_read text, fun text' h => ?_,
    fun text' σ hlines hkept => ?_⟩
  · exact read_congr fun label => h.filter_eq fun line hline => hline label
  · refine read_congr fun label => ?_
    rw [hlines, filter_rearranged σ (hkept label)]

/-- A label that only ends like another one is put in, and a line moves between two of another
label. -/
theorem read_last_wins_moved :
    let text := "MemTotal: 1 kB\nMemTotal: 9 kB\nCached: 3 kB\n"
    read "MemTotal: 1 kB\nSwapCached: 7 kB\nMemTotal: 9 kB\nCached: 3 kB\n" = read text ∧
      read "MemTotal: 1 kB\nCached: 3 kB\nMemTotal: 9 kB\n" = read text ∧
      (read text).total = 9 ∧ (read text).cached = 3 := by
  intro text
  let first := "MemTotal: 1 kB".toList
  let last := "MemTotal: 9 kB".toList
  let cached := "Cached: 3 kB".toList
  have hlines : Text.lines text.toList = [first, last, cached] := by decide +kernel
  obtain ⟨hfigures, -, hput, hmoved⟩ := read_last_wins text
  have hforeign : Foreign "SwapCached: 7 kB".toList := by
    intro label
    cases label <;> decide +kernel
  refine ⟨hput _ ?_, ?_, (hfigures .total).trans (by decide +kernel),
    (hfigures .cached).trans (by decide +kernel)⟩
  · have hwith : Text.lines
        "MemTotal: 1 kB\nSwapCached: 7 kB\nMemTotal: 9 kB\nCached: 3 kB\n".toList =
          [first, "SwapCached: 7 kB".toList, last, cached] := by decide +kernel
    rw [hlines, hwith]
    exact .item rfl (.pass hforeign (.item rfl (.item rfl .nil)))
  · rw [hlines] at hmoved
    refine hmoved _ (Equiv.swap ⟨1, by decide⟩ ⟨2, by decide⟩) (by decide +kernel) fun label => ?_
    unfold KeepsOrder
    cases label <;> decide +kernel

end HostInventory.Format.MemInfo
