import HostInventory.Format.PackageDatabase
import HostInventory.Proofs.Text.Lines

/-! Stanzas between blank lines.

The reader of the package database carries a state from line to line, and ends the stanza that it
is in at a blank line and at the end of the text. What it has closed before plays no part in what
it reads (`finish?_behind`), and a blank line leaves it with nothing else (`finish?_blank`). So a
text with a blank line in it says what the two texts around the line say, one after the other, and
makes sense exactly when both do (`read_append_blank`). -/
namespace HostInventory.Format.PackageDatabase

open Text

namespace Reader

/-- The reader once it has read some lines and the last stanza has ended, if they make sense. -/
def finish? : Reader → List (List Char) → Option Reader
  | r, [] => r.close.toOption
  | r, line :: rest => (r.next line).toOption.bind fun r => r.finish? rest

/-- The reader as it is if some stanzas have been closed before. -/
def behind (done : List Package) (r : Reader) : Reader :=
  { r with closed := r.closed ++ done }

/-! ### One line -/

theorem close_of_none {r : Reader} (h : r.current = none) : r.close = .ok r := by
  rw [close, h]

/-- No stanza goes on behind its end. -/
theorem current_of_close {r r' : Reader} (h : r.close.toOption = some r') : r'.current = none := by
  unfold close at h
  cases hc : r.current with
  | none =>
    rw [hc] at h
    exact Option.some.inj h ▸ hc
  | some p =>
    simp only [hc] at h
    split at h
    · cases h
    · exact Option.some.inj h ▸ rfl

theorem close_behind (done : List Package) (r : Reader) :
    (r.behind done).close = r.close.map (behind done) := by
  obtain ⟨closed, current⟩ := r
  cases current with
  | none => rfl
  | some p =>
    simp only [close, behind]
    split <;> rfl

theorem next_behind (done : List Package) (r : Reader) (line : List Char) :
    (r.behind done).next line = (r.next line).map (behind done) := by
  unfold next
  split
  · exact close_behind done r
  · split
    · rfl
    · cases splitFirst ':' line <;> rfl

/-- What a line does to the reader. -/
theorem toOption_next (r : Reader) (line : List Char) : (r.next line).toOption =
    if (trim line).isEmpty then r.close.toOption
    else if isContinuation line then some r
    else ((splitFirst ':' line).map fun parts => (parts.1, trim parts.2)).map fun (key, text) =>
      { r with current := some (setField (r.current.getD {}) (String.ofList key) text) } := by
  unfold next
  split
  · rfl
  · split
    · rfl
    · cases splitFirst ':' line <;> rfl

/-- Unless nothing else stands on a line, it starts as it does without the return at its end. -/
theorem isContinuation_dropReturn {line : List Char} (h : (trim line).isEmpty = false) :
    isContinuation (dropReturn line) = isContinuation line := by
  rcases dropReturn_cases line with hline | hline
  · rw [hline]
  · obtain ⟨c, rest, hc⟩ : ∃ c rest, dropReturn line = c :: rest := by
      refine List.exists_cons_of_ne_nil fun hnil => ?_
      rw [hnil] at hline
      rw [hline] at h
      cases h
    have hhead : line.head? = (dropReturn line).head? := by
      rw [hc] at hline ⊢
      rw [hline]
      rfl
    rw [isContinuation, isContinuation, hhead]

/-- Whether a line makes sense, and what it says, does not depend on how it ends. -/
theorem toOption_next_dropReturn (r : Reader) (line : List Char) :
    (r.next (dropReturn line)).toOption = (r.next line).toOption := by
  rw [toOption_next, toOption_next, trim_dropReturn, splitFirst_dropReturn (trim_concat rfl) (by decide)]
  cases hblank : (trim line).isEmpty with
  | true => rfl
  | false => rw [isContinuation_dropReturn hblank]

/-! ### Lines in a row -/

theorem finish?_behind (done : List Package) (r : Reader) (ls : List (List Char)) :
    (r.behind done).finish? ls = (r.finish? ls).map (behind done) := by
  induction ls generalizing r with
  | nil =>
    rw [finish?, finish?, close_behind]
    cases r.close <;> rfl
  | cons line rest ih =>
    rw [finish?, finish?, next_behind]
    cases r.next line with
    | error e => rfl
    | ok r' => exact ih r'

theorem current_of_finish? {r r' : Reader} {ls : List (List Char)} (h : r.finish? ls = some r') :
    r'.current = none := by
  induction ls generalizing r with
  | nil => exact current_of_close h
  | cons line rest ih =>
    obtain ⟨r₁, -, hrest⟩ := Option.bind_eq_some_iff.1 h
    exact ih hrest

/-- What lines come to depends on no more than what those behind them come to. -/
theorem finish?_append_congr {ls ls' : List (List Char)}
    (h : ∀ r : Reader, r.finish? ls = r.finish? ls') (r : Reader) (front : List (List Char)) :
    r.finish? (front ++ ls) = r.finish? (front ++ ls') := by
  induction front generalizing r with
  | nil => exact h r
  | cons line rest ih =>
    rw [List.cons_append, List.cons_append, finish?, finish?]
    congr 1
    exact funext ih

/-- At a blank line everything in front of it has ended. -/
theorem finish?_blank (r : Reader) (ls rest : List (List Char)) :
    r.finish? (ls ++ [] :: rest) = (r.finish? ls).bind fun r => r.finish? rest := by
  induction ls generalizing r with
  | nil => rfl
  | cons line ls ih =>
    rw [List.cons_append, finish?, finish?, Option.bind_assoc]
    congr 1
    exact funext ih

/-- The lines of a text come to what they do with a line feed behind them. -/
theorem finish?_pieces (r : Reader) (s : List Char) :
    r.finish? ((pieces (· == '\n') s).map dropReturn) = r.finish? (lines s) := by
  obtain ⟨init, last, hpieces, hlines⟩ := exists_last_piece s
  rw [hpieces, hlines, List.map_append, List.map_singleton]
  refine finish?_append_congr (fun r => ?_) r _
  cases hlast : last with
  | nil =>
    -- A line with nothing on it ends what ends here anyway.
    show r.close.toOption.bind (fun r => r.close.toOption) = r.close.toOption
    cases hc : r.close.toOption with
    | none => rfl
    | some r' => rw [Option.bind_some, close_of_none (current_of_close hc)]; rfl
  | cons c rest =>
    rw [List.isEmpty_cons, if_neg Bool.false_ne_true, finish?, finish?, toOption_next_dropReturn]

end Reader

/-! ### Texts -/

theorem toOption_read (text : String) : (read text).toOption =
    (({} : Reader).finish? (lines text.toList)).map fun r => r.closed.reverse := by
  have hfold : ∀ (ls : List (List Char)) (r : Reader),
      (do let r ← ls.foldlM Reader.next r; let r ← r.close; return r.closed.reverse :
        Except Error (List Package)).toOption = (r.finish? ls).map fun r => r.closed.reverse := by
    intro ls
    induction ls with
    | nil =>
      intro r
      cases h : r.close <;> simp [Reader.finish?, h, bind, Except.bind, pure, Except.pure,
        Except.toOption]
    | cons line rest ih =>
      intro r
      rw [List.foldlM_cons, Reader.finish?]
      cases r.next line with
      | error e => rfl
      | ok r' => exact ih r'
  exact hfold _ _

/-- **Stanzas are read one by one.** A text with a blank line in it makes sense exactly when what
stands before the line and what stands behind it do, each on its own, and it then has the stanzas
of the one and then those of the other. -/
theorem read_append_blank (a b : String) (all : List Package) :
    read (a ++ "\n\n" ++ b) = .ok all ↔
      ∃ first rest, read a = .ok first ∧ read b = .ok rest ∧ all = first ++ rest := by
  have hok : ∀ {text : String} {stanzas : List Package},
      read text = .ok stanzas ↔ (read text).toOption = some stanzas := by
    intro text stanzas
    cases read text <;> simp [Except.toOption]
  have hlines : lines (a ++ "\n\n" ++ b).toList =
      (pieces (· == '\n') a.toList).map dropReturn ++ [] :: lines b.toList := by
    have htext : (a ++ "\n\n" ++ b).toList = a.toList ++ '\n' :: ([] ++ '\n' :: b.toList) := by
      simp
    rw [htext, lines_append_feed, lines_append_feed]
    rfl
  simp only [hok, toOption_read]
  rw [hlines, Reader.finish?_blank, Reader.finish?_pieces]
  cases hfirst : ({} : Reader).finish? (lines a.toList) with
  | none => simp
  | some r =>
    -- All that the reader keeps is what it has closed.
    have hr : r = ({} : Reader).behind r.closed := by
      have hcurrent := Reader.current_of_finish? hfirst
      cases r
      cases hcurrent
      rfl
    rw [Option.bind_some, hr, Reader.finish?_behind]
    cases ({} : Reader).finish? (lines b.toList) with
    | none => simp
    | some r' => simp [Reader.behind, eq_comm]

end HostInventory.Format.PackageDatabase
