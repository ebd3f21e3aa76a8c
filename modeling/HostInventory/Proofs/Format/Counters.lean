import HostInventory.Format.InterfaceTable
import HostInventory.Proofs.Text.Numeral
import HostInventory.Proofs.Text.Words

/-! Tables of counters as they are written.

A row is the name of an interface, a colon, and its counters with blanks between them
(`Counters.Writes`); headings and blank rows stand among such rows (`Heading`). A row falls into its
name and its counters again, however it is padded (`row?_of_writes`), and a column gives the counter
that was written there (`column_written`). So the table gives back what is reported of each
interface, column by column, unless one of them has too few counters: then the first of those is
named, and nothing else is read (`read_of_counters`). -/
namespace HostInventory.Format.InterfaceTable

open Text

/-- An interface with its counters, all that are written. -/
structure Counters where
  interface : String
  counters : List Nat

namespace Counters

/-- The counter in a column, the first being column one. -/
def inColumn (i : Counters) (n : Nat) : Nat :=
  i.counters.getD (n - 1) 0

/-- What is reported of the counters. -/
def traffic (i : Counters) : InterfaceTraffic where
  interface := i.interface
  rxBytes := i.inColumn 1
  rxPackets := i.inColumn 2
  rxErrors := i.inColumn 3
  rxDropped := i.inColumn 4
  txBytes := i.inColumn 9
  txPackets := i.inColumn 10
  txErrors := i.inColumn 11
  txDropped := i.inColumn 12
  collisions := i.inColumn 14

/-- Counters that can be written: the name begins and ends with no blank and holds neither a colon
nor a bar, and each counter fits into 64 bits. -/
structure Plain (i : Counters) : Prop where
  trimmed : trim i.interface.toList = i.interface.toList
  noColon : ':' ∉ i.interface.toList
  noBar : '|' ∉ i.interface.toList
  fit : ∀ n ∈ i.counters, n < wordBound64

/-- A counter as it is written. -/
def digits (n : Nat) : List Char :=
  (toString n).toList

/-- The row writes the counters: blanks, if any, the name, a colon, and the counters with blanks
between them. The first may stand right behind the colon. -/
def Writes (i : Counters) (row : List Char) : Prop :=
  ∃ gap rest, (∀ c ∈ gap, isBlank c = true) ∧ Spaced (i.counters.map digits) rest ∧
    row = gap ++ i.interface.toList ++ ':' :: rest

end Counters

/-- A heading, which has a bar, or a blank row. -/
def Heading (row : List Char) : Prop :=
  '|' ∈ row ∨ ∀ c ∈ row, isBlank c = true

namespace Counters

theorem isDigit_of_mem_digits {n : Nat} {c : Char} (h : c ∈ digits n) : c.isDigit = true := by
  have hlist : digits n = Nat.toDigits 10 n := Nat.toList_repr
  exact isDigit_of_mem_toDigits c (hlist ▸ h)

theorem isWord_digits (n : Nat) : IsWord (digits n) := by
  refine ⟨?_, fun c hc => isBlank_of_isDigit (isDigit_of_mem_digits hc)⟩
  have hlist : digits n = Nat.toDigits 10 n := Nat.toList_repr
  rw [hlist]
  exact Nat.toDigits_ne_nil

/-- The name and the counters as they are written. -/
def written (i : Counters) : List Char × List (List Char) :=
  (i.interface.toList, i.counters.map digits)

end Counters

/-! ### Rows -/

section Rows
variable {i : Counters} {row : List Char}

/-- No character of a row of counters is taken for the bar of a heading. -/
theorem not_bar_of_writes (hp : i.Plain) (h : i.Writes row) : '|' ∉ row := by
  obtain ⟨gap, rest, hgap, hrest, rfl⟩ := h
  intro hbar
  rcases List.mem_append.1 hbar with hbar | hbar
  · rcases List.mem_append.1 hbar with hbar | hbar
    · exact absurd (hgap _ hbar) (by decide)
    · exact hp.noBar hbar
  · rcases List.mem_cons.1 hbar with hcolon | hbar
    · exact absurd hcolon (by decide)
    · rcases hrest.blank_or_mem _ hbar with hblank | ⟨word, hword, hbar⟩
      · exact absurd hblank (by decide)
      · obtain ⟨n, -, rfl⟩ := List.mem_map.1 hword
        exact absurd (Counters.isDigit_of_mem_digits hbar) (by decide)

/-- A row falls into the name and the counters that it has been put together from. -/
theorem row?_of_writes (hp : i.Plain) (h : i.Writes row) : row? row = some i.written := by
  have hbar : row.contains '|' = false := by simpa using not_bar_of_writes hp h
  obtain ⟨gap, rest, hgap, hrest, rfl⟩ := h
  have hcolon : ':' ∉ gap ++ i.interface.toList := by
    rw [List.mem_append]
    rintro (hcolon | hcolon)
    · exact absurd (hgap _ hcolon) (by decide)
    · exact hp.noColon hcolon
  have hwords : words rest = i.counters.map Counters.digits :=
    words_of_spaced hrest (List.forall_mem_map.2 fun n _ => Counters.isWord_digits n)
  rw [row?, hbar, if_neg Bool.false_ne_true, splitFirst_append hcolon, Option.map_some,
    trim_append_left hgap, hp.trimmed, hwords]
  rfl

theorem row?_of_heading (h : Heading row) : row? row = none := by
  unfold row?
  rcases h with hbar | hblank
  · rw [if_pos (List.contains_iff_mem.2 hbar)]
  · have hcolon : ':' ∉ row := fun hcolon => absurd (hblank _ hcolon) (by decide)
    rw [splitFirst_of_not_mem hcolon, Option.map_none, ite_self]

theorem row?_dropReturn (line : List Char) : row? (dropReturn line) = row? line := by
  have hbar : (dropReturn line).contains '|' = line.contains '|' := by
    rcases dropReturn_cases line with h | h
    · rw [h]
    · rw [Bool.eq_iff_iff, List.contains_iff_mem, List.contains_iff_mem]
      refine ⟨mem_of_mem_dropReturn, fun hmem => ?_⟩
      rw [h] at hmem
      exact (List.mem_append.1 hmem).resolve_right (by decide)
  have hsplit :
      (splitFirst ':' (dropReturn line)).map (fun parts => (trim parts.1, words parts.2)) =
        (splitFirst ':' line).map fun parts => (trim parts.1, words parts.2) := by
    have hwords := splitFirst_dropReturn (words_concat rfl) (show '\r' ≠ ':' by decide) line
    have htrim := congrArg (Option.map fun parts : List Char × List (List Char) =>
      (trim parts.1, parts.2)) hwords
    rwa [Option.map_map, Option.map_map] at htrim
  rw [row?, row?, hbar, hsplit]

end Rows

/-! ### Columns -/

section Columns
variable {i : Counters}

/-- A column holds the counter that has been written there. -/
theorem column_written (hp : i.Plain) (n : Nat) : column i.written.2 n = i.inColumn (n + 1) := by
  show ((i.counters.map Counters.digits)[n]?.bind (readNumeral wordBound64)).getD 0 =
    i.counters.getD n 0
  rw [List.getElem?_map, List.getD_eq_getElem?_getD]
  cases hn : i.counters[n]? with
  | none => rfl
  | some k =>
    have hfit := hp.fit k (List.mem_of_getElem? hn)
    rw [Option.map_some, Option.bind_some, Counters.digits, readNumeral_toString hfit]

theorem readRow_written (hp : i.Plain) (h : 16 ≤ i.counters.length) :
    readRow i.written = .ok i.traffic := by
  have hlength : ¬i.written.2.length < 16 := by
    rw [Counters.written, List.length_map]
    omega
  unfold readRow
  simp only [if_neg hlength, column_written hp]
  rw [Counters.written, String.ofList_toList]
  rfl

theorem readRow_of_few (h : i.counters.length < 16) : readRow i.written =
    .error (.interfaceCounters i.interface i.counters.length) := by
  have hlength : i.written.2.length = i.counters.length := List.length_map _
  unfold readRow
  simp only [hlength]
  rw [if_pos h, Counters.written, String.ofList_toList]

end Columns

/-! ### Tables -/

/-- **A table of counters is read column by column.** If each interface has sixteen or more,
reading gives them in their order, what was received and sent from the columns of `traffic`.
Otherwise it is refused for the first that has fewer, whatever comes behind. -/
theorem read_of_counters {all : List Counters} {rows : List (List Char)}
    (h : InRows Counters.Writes Heading all rows) (hp : ∀ i ∈ all, i.Plain)
    (hrows : ∀ row ∈ rows, '\n' ∉ row) :
    ((∀ i ∈ all, 16 ≤ i.counters.length) →
      read (ofRows rows) = .ok (all.map Counters.traffic)) ∧
    ∀ front few rest, all = front ++ few :: rest → (∀ i ∈ front, 16 ≤ i.counters.length) →
      few.counters.length < 16 →
      read (ofRows rows) = .error (.interfaceCounters few.interface few.counters.length) := by
  have hread : read (ofRows rows) = (all.map Counters.written).mapM readRow := by
    rw [read, filterMap_lines_ofRows rfl row?_dropReturn hrows,
      h.filterMap_eq (fun _ => row?_of_heading) fun i hi _ => row?_of_writes (hp i hi)]
  have hgood : ∀ {i}, i ∈ all → 16 ≤ i.counters.length →
      (readRow ∘ Counters.written) i = .ok i.traffic := fun hi => readRow_written (hp _ hi)
  rw [hread, List.mapM_map]
  refine ⟨fun henough => mapM_of_ok fun i hi => hgood hi (henough i hi), ?_⟩
  rintro front few rest rfl hfront hfew
  refine mapM_of_error (g := Counters.traffic) (fun i hi => ?_) (readRow_of_few hfew)
  exact hgood (List.mem_append_left _ hi) (hfront i hi)

/-- The first counter of `lo` stands right behind the colon. The row of `eth0` has been cut short:
without it the table is read, and with it refused. -/
theorem read_of_counters_truncated :
    let whole := " face |bytes packets\n  lo:1 2 3 4 5 6 7 8 9 10 11 12 13 14 15 16\n"
    let lo : Counters := ⟨"lo", [1, 2, 3, 4, 5, 6, 7, 8, 9, 10, 11, 12, 13, 14, 15, 16]⟩
    let eth0 : Counters := ⟨"eth0", [20, 21]⟩
    ∃ rows, InRows Counters.Writes Heading [lo] rows ∧ whole = ofRows rows ∧
      read whole = .ok [⟨"lo", 1, 2, 3, 4, 9, 10, 11, 12, 14⟩] ∧
      ∃ more, InRows Counters.Writes Heading [lo, eth0] more ∧
        whole ++ "eth0: 20 21" = ofRows more ∧
        read (whole ++ "eth0: 20 21") = .error (.interfaceCounters "eth0" 2) := by
  intro whole lo eth0
  have hplain : ∀ i ∈ [lo, eth0], i.Plain := by
    simp only [List.forall_mem_cons, List.not_mem_nil, false_implies, implies_true, and_true]
    constructor <;> exact ⟨by decide, by decide, by decide, by decide⟩
  let spaced (i : Counters) : List Char := joinWith ' ' (i.counters.map Counters.digits)
  have hspaced (i : Counters) : Spaced (i.counters.map Counters.digits) (spaced i) :=
    spaced_joinWith rfl _
  let front : List (List Char) :=
    [" face |bytes packets".toList, "  ".toList ++ lo.interface.toList ++ ':' :: spaced lo]
  have hfront {all : List Counters} {rows : List (List Char)}
      (h : InRows Counters.Writes Heading all rows) :
      InRows Counters.Writes Heading (lo :: all) (front ++ rows) :=
    .pass (.inl (by decide)) (.item ⟨_, _, List.all_eq_true.1 (by decide), hspaced lo, rfl⟩ h)
  let short : List Char := [] ++ eth0.interface.toList ++ ':' :: ' ' :: spaced eth0
  have hshort : eth0.Writes short := ⟨[], _, nofun, .blank rfl (hspaced eth0), rfl⟩
  have hgood : InRows Counters.Writes Heading [lo] (front ++ [[]]) :=
    hfront (.pass (.inr nofun) .nil)
  have hcut : InRows Counters.Writes Heading [lo, eth0] (front ++ [short]) :=
    hfront (.item hshort .nil)
  have hwhole : whole = ofRows (front ++ [[]]) := by decide +kernel
  have hmore : whole ++ "eth0: 20 21" = ofRows (front ++ [short]) := by decide +kernel
  have hread := (read_of_counters hgood (fun i hi => hplain i (List.mem_append_left [eth0] hi))
    (by decide +kernel)).1 (by decide)
  have hfail := (read_of_counters hcut hplain (by decide +kernel)).2 [lo] eth0 [] rfl (by decide)
    (by decide)
  exact ⟨_, hgood, hwhole, hwhole ▸ hread, _, hcut, hmore, hmore ▸ hfail⟩

end HostInventory.Format.InterfaceTable
