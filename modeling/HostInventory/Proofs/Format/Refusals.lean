import HostInventory.Format.InterfaceFlags
import HostInventory.Format.InterfaceTable
import HostInventory.Format.OsRelease
import HostInventory.Proofs.Text.Numeral
import HostInventory.Proofs.Text.Words

/-! What the readers refuse.

Each reader's refusal is said of its text alone. A release is refused for a line that counts and
has no equals sign (`OsRelease.isOk_read_iff`), flags for a text that is no 32-bit number in base
sixteen (`InterfaceFlags.read_eq_ok_iff`), and a table of counters for a row with fewer than
sixteen of them (`InterfaceTable.isOk_read_iff`). What else stands in the text makes no
difference to that. -/
namespace HostInventory.Format

theorem isOk_map {ε α β : Type} (f : α → β) (x : Except ε α) : (f <$> x).isOk = x.isOk := by
  cases x <;> rfl

/-! ### Releases -/

namespace OsRelease

/-- Some line that is neither blank nor a comment has no equals sign. -/
def Malformed (text : String) : Prop :=
  ∃ line ∈ Text.lines text.toList, ¬Text.Silent line ∧ '=' ∉ line

theorem isOk_readLine_iff {line : List Char} : (readLine line).isOk = true ↔ '=' ∈ line := by
  constructor
  · intro h
    by_contra hc
    rw [readLine, Text.splitFirst_of_not_mem hc] at h
    cases h
  · intro hc
    obtain ⟨key, value, rfl, hkey⟩ := List.eq_append_cons_of_mem hc
    rw [readLine, Text.splitFirst_append hkey]
    rfl

theorem isOk_read_iff {text : String} : (read text).isOk = true ↔ ¬Malformed text := by
  have hread : (read text).isOk =
      (((Text.lines text.toList).filterMap Text.substance?).mapM readLine).isOk :=
    isOk_map (List.foldl assign {}) _
  rw [hread, Text.isOk_mapM_iff]
  constructor
  · rintro h ⟨line, hline, hcounts, hequals⟩
    have hbody := Text.substance?_eq_some_iff.2 ⟨hcounts, rfl⟩
    have hok := isOk_readLine_iff.1 (h _ (List.mem_filterMap.2 ⟨line, hline, hbody⟩))
    exact hequals ((Text.mem_trim_iff rfl).1 hok)
  · intro h body hbody
    obtain ⟨line, hline, hline'⟩ := List.mem_filterMap.1 hbody
    obtain ⟨hcounts, rfl⟩ := Text.substance?_eq_some_iff.1 hline'
    refine isOk_readLine_iff.2 ((Text.mem_trim_iff rfl).2 ?_)
    by_contra hequals
    exact h ⟨line, hline, hcounts, hequals⟩

end OsRelease

/-! ### Flags -/

namespace InterfaceFlags

/-- The text is, but for the blanks around it, a number of 32 bits in base sixteen, with or without
the mark of that base. -/
def Writes (text : String) (n : Nat) : Prop :=
  ∃ mark numeral, (mark = [] ∨ mark = ['0', 'x'] ∨ mark = ['0', 'X']) ∧
    Text.trim text.toList = mark ++ numeral ∧ Text.WritesHexadecimal numeral n ∧
    n < Text.wordBound32

/-- A numeral does not begin with a mark of its base. -/
theorem dropMark_of_writesHexadecimal {s : List Char} {n : Nat}
    (h : Text.WritesHexadecimal s n) : dropMark s = s := by
  have hdigits : ∀ c ∈ s, c = '+' ∨ ∃ d, Text.hexDigit? c = some d := by
    obtain ⟨sign, row, digits, hsign, rfl, -, hrow, -⟩ := h
    intro c hc
    rcases List.mem_append.1 hc with hc | hc
    · rcases hsign with rfl | rfl
      · exact absurd hc List.not_mem_nil
      · exact .inl (List.mem_singleton.1 hc)
    · have hmem : Text.hexDigit? c ∈ digits.map some := hrow ▸ List.mem_map_of_mem hc
      obtain ⟨d, -, hd⟩ := List.mem_map.1 hmem
      exact .inr ⟨d, hd.symm⟩
  have hmark : ∀ c ∈ s, c ≠ 'x' ∧ c ≠ 'X' := by
    intro c hc
    constructor <;> rintro rfl <;> rcases hdigits _ hc with he | ⟨d, hd⟩
    · exact absurd he (by decide)
    · cases hd
    · exact absurd he (by decide)
    · cases hd
  unfold dropMark
  split
  · exact absurd rfl (hmark 'x' (by simp)).1
  · exact absurd rfl (hmark 'X' (by simp)).2
  · rfl

theorem read_eq_ok_iff {text : String} {n : Nat} : read text = .ok n ↔ Writes text n := by
  have hread : read text = .ok n ↔
      Text.readHexadecimal Text.wordBound32 (dropMark (Text.trim text.toList)) = .ok n := by
    unfold read
    dsimp only
    split
    · next m hm => rw [hm, Except.ok.injEq, Except.ok.injEq]
    · next fault hfault =>
      rw [hfault]
      exact iff_of_false nofun nofun
  rw [hread, Text.readHexadecimal_eq_ok_iff (by decide)]
  constructor
  · rintro ⟨hnumeral, hn⟩
    revert hnumeral
    unfold dropMark
    split
    · next rest he => exact fun h => ⟨['0', 'x'], rest, by simp, he, h, hn⟩
    · next rest he => exact fun h => ⟨['0', 'X'], rest, by simp, he, h, hn⟩
    · exact fun h => ⟨[], _, by simp, rfl, h, hn⟩
  · rintro ⟨mark, numeral, rfl | rfl | rfl, he, hnumeral, hn⟩
    · rw [he, List.nil_append, dropMark_of_writesHexadecimal hnumeral]
      exact ⟨hnumeral, hn⟩
    · rw [he]
      exact ⟨hnumeral, hn⟩
    · rw [he]
      exact ⟨hnumeral, hn⟩

theorem isOk_read_iff {text : String} : (read text).isOk = true ↔ ∃ n, Writes text n := by
  simp only [← read_eq_ok_iff]
  cases read text <;> simp [Except.isOk, Except.toBool]

/-- The blanks around it are no part of it. -/
theorem writes_trim {text : String} {n : Nat} :
    Writes (String.ofList (Text.trim text.toList)) n ↔ Writes text n := by
  rw [Writes, Writes, String.toList_ofList, Text.trim_trim]

end InterfaceFlags

/-! ### Tables of counters -/

namespace InterfaceTable

/-- The line is a row: no heading, and taken apart at its first colon. -/
structure IsRow (line front counters : List Char) : Prop where
  noHeading : '|' ∉ line
  noColon : ':' ∉ front
  eq : line = front ++ ':' :: counters

theorem row?_eq_some_iff {line : List Char} {r : List Char × List (List Char)} :
    row? line = some r ↔ ∃ front counters, IsRow line front counters ∧
      r = (Text.trim front, Text.words counters) := by
  unfold row?
  constructor
  · intro h
    split at h
    · cases h
    · next hbar =>
      obtain ⟨⟨front, counters⟩, hsplit, rfl⟩ := Option.map_eq_some_iff.1 h
      obtain ⟨hcolon, he⟩ := Text.splitFirst_eq_some_iff.1 hsplit
      exact ⟨front, counters, ⟨by simpa using hbar, hcolon, he⟩, rfl⟩
  · rintro ⟨front, counters, ⟨hbar, hcolon, rfl⟩, rfl⟩
    rw [if_neg (by simpa using hbar), Text.splitFirst_append hcolon, Option.map_some]

theorem isOk_readRow_iff {r : List Char × List (List Char)} :
    (readRow r).isOk = true ↔ 16 ≤ r.2.length := by
  unfold readRow
  dsimp only
  split
  · next h => exact iff_of_false Bool.false_ne_true (Nat.not_le_of_lt h)
  · next h => exact iff_of_true rfl (Nat.le_of_not_lt h)

theorem interface_of_readRow {r : List Char × List (List Char)} {t : InterfaceTraffic}
    (h : readRow r = .ok t) : t.interface = String.ofList r.1 := by
  unfold readRow at h
  dsimp only at h
  split at h
  · cases h
  · cases Except.ok.inj h
    rfl

/-- Some row has too few counters. -/
def Short (text : String) : Prop :=
  ∃ line ∈ Text.lines text.toList, ∃ front counters, IsRow line front counters ∧
    (Text.words counters).length < 16

/-- Some row is that of the interface. -/
def Lists (text name : String) : Prop :=
  ∃ line ∈ Text.lines text.toList, ∃ front counters, IsRow line front counters ∧
    Text.trim front = name.toList

theorem isOk_read_iff {text : String} : (read text).isOk = true ↔ ¬Short text := by
  rw [read, Text.isOk_mapM_iff]
  constructor
  · rintro h ⟨line, hline, front, counters, hrow, hshort⟩
    have hmem := List.mem_filterMap.2
      ⟨line, hline, row?_eq_some_iff.2 ⟨front, counters, hrow, rfl⟩⟩
    exact absurd (isOk_readRow_iff.1 (h _ hmem)) (Nat.not_le_of_lt hshort)
  · intro h r hr
    obtain ⟨line, hline, hr⟩ := List.mem_filterMap.1 hr
    obtain ⟨front, counters, hrow, rfl⟩ := row?_eq_some_iff.1 hr
    refine isOk_readRow_iff.2 (Nat.le_of_not_lt fun hshort => ?_)
    exact h ⟨line, hline, front, counters, hrow, hshort⟩

theorem find?_read_iff {text name : String} {rows : List InterfaceTraffic}
    (h : read text = .ok rows) :
    (rows.find? fun row => row.interface = name).isSome = true ↔ Lists text name := by
  simp only [List.find?_isSome, decide_eq_true_eq]
  constructor
  · rintro ⟨t, ht, hname⟩
    obtain ⟨r, hr, hread⟩ := (Text.mem_of_mapM_ok h).1 ht
    obtain ⟨line, hline, hr⟩ := List.mem_filterMap.1 hr
    obtain ⟨front, counters, hrow, rfl⟩ := row?_eq_some_iff.1 hr
    refine ⟨line, hline, front, counters, hrow, ?_⟩
    rw [← hname, interface_of_readRow hread, String.toList_ofList]
  · rintro ⟨line, hline, front, counters, hrow, hname⟩
    have hmem := List.mem_filterMap.2
      ⟨line, hline, row?_eq_some_iff.2 ⟨front, counters, hrow, rfl⟩⟩
    have hok := Text.isOk_mapM_iff.1 (congrArg Except.isOk h) _ hmem
    cases hread : readRow (Text.trim front, Text.words counters) with
    | error e =>
      rw [hread] at hok
      cases hok
    | ok t =>
      refine ⟨t, (Text.mem_of_mapM_ok h).2 ⟨_, hmem, hread⟩, ?_⟩
      rw [interface_of_readRow hread, hname, String.ofList_toList]

end InterfaceTable
end HostInventory.Format
