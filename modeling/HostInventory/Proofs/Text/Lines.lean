import HostInventory.Text.Lines
import Mathlib.Data.List.Basic
import Mathlib.Data.List.Induction

/-! Lines put together.

A line feed ends a line whatever stands around it, so the lines of two texts with a line feed
between them are those of the first and those of the second (`lines_append_feed`). Only the end
of the first text reads differently: it is a line now even if nothing stands there, and a
carriage return at its end now belongs to the line feed (`exists_last_piece`). To a reader that
trims what it reads the return makes no difference (`trim_dropReturn`, `splitFirst_dropReturn`).

So a text may be put together from rows with a line feed between any two, and to a reader that trims
and passes over empty lines its lines are those rows (`filterMap_lines_ofRows`). Where each row
writes one item or is passed over, the items are read in the order of their rows
(`InRows.filterMap_eq`). -/
namespace HostInventory.Text

/-- The lines before a line feed and those behind it. -/
theorem lines_append_feed (s t : List Char) :
    lines (s ++ '\n' :: t) = (pieces (· == '\n') s).map dropReturn ++ lines t := by
  have hpieces : pieces (· == '\n') (s ++ '\n' :: t) =
      pieces (· == '\n') s ++ pieces (· == '\n') t :=
    pieces_append_sep s t (beq_self_eq_true '\n')
  have hne := pieces_ne_nil (· == '\n') t
  have hlast : (pieces (· == '\n') s ++ pieces (· == '\n') t).getLast? =
      (pieces (· == '\n') t).getLast? := by
    rw [List.getLast?_append, List.getLast?_eq_some_getLast hne, Option.some_or]
  simp only [lines, hpieces, hlast, List.dropLast_append_of_ne_nil hne, List.map_append,
    List.append_assoc]

/-- What stands behind the last line feed of a text is a line if it is anything. -/
theorem exists_last_piece (s : List Char) : ∃ init last,
    pieces (· == '\n') s = init ++ [last] ∧
      lines s = init.map dropReturn ++ if last.isEmpty then [] else [last] := by
  obtain ⟨init, last, h⟩ := (List.eq_nil_or_concat' _).resolve_left (pieces_ne_nil (· == '\n') s)
  refine ⟨init, last, h, ?_⟩
  simp only [lines, h, List.dropLast_concat, List.getLast?_concat, Option.getD_some]

/-! ### Carriage returns -/

theorem dropReturn_cases (line : List Char) :
    dropReturn line = line ∨ line = dropReturn line ++ ['\r'] := by
  unfold dropReturn
  split
  · next rest h =>
    right
    rw [← List.reverse_cons, ← h, List.reverse_reverse]
  · exact .inl rfl

/-- A blank at the end is lost. -/
theorem trim_concat {c : Char} (h : isBlank c = true) (s : List Char) :
    trim (s ++ [c]) = trim s := by
  unfold trim trimStart
  rw [List.dropWhile_append]
  split
  · next hall =>
    rw [List.isEmpty_iff.1 hall, List.dropWhile_cons_of_pos h, List.dropWhile_nil]
  · rw [trimEnd, trimEnd, List.reverse_append, List.reverse_singleton, List.singleton_append,
      List.dropWhile_cons_of_pos h]

theorem trim_dropReturn (line : List Char) : trim (dropReturn line) = trim line := by
  rcases dropReturn_cases line with h | h
  · rw [h]
  · exact (trim_concat rfl _).symm.trans (congrArg trim h.symm)

theorem splitFirst_cons (c d : Char) (s : List Char) : splitFirst c (d :: s) =
    if d = c then some ([], s) else (splitFirst c s).map fun parts => (d :: parts.1, parts.2) := by
  by_cases h : d = c
  · simp [splitFirst, h]
  · have hdrop : (d :: s).dropWhile (· != c) = s.dropWhile (· != c) :=
      List.dropWhile_cons_of_pos (bne_iff_ne.2 h)
    have htake : (d :: s).takeWhile (· != c) = d :: s.takeWhile (· != c) :=
      List.takeWhile_cons_of_pos (bne_iff_ne.2 h)
    rw [splitFirst, splitFirst, hdrop, htake, if_neg h]
    cases s.dropWhile (· != c) <;> rfl

/-- Another character at the end stays at the end. -/
theorem splitFirst_concat {c d : Char} (h : d ≠ c) (s : List Char) :
    splitFirst c (s ++ [d]) = (splitFirst c s).map fun parts => (parts.1, parts.2 ++ [d]) := by
  induction s with
  | nil =>
    rw [List.nil_append, splitFirst_cons, if_neg h]
    rfl
  | cons first rest ih =>
    rw [List.cons_append, splitFirst_cons, splitFirst_cons, ih]
    split
    · rfl
    · rw [Option.map_map, Option.map_map]
      rfl

/-- The first of a character is the one behind a text without it. -/
theorem splitFirst_append {c : Char} {s : List Char} (h : c ∉ s) (t : List Char) :
    splitFirst c (s ++ c :: t) = some (s, t) := by
  induction s with
  | nil => rw [List.nil_append, splitFirst_cons, if_pos rfl]
  | cons d s ih =>
    obtain ⟨hd, hs⟩ := not_or.1 (mt List.mem_cons.2 h)
    rw [List.cons_append, splitFirst_cons, if_neg (Ne.symm hd), ih hs]
    rfl

theorem splitFirst_of_not_mem {c : Char} {s : List Char} (h : c ∉ s) : splitFirst c s = none := by
  induction s with
  | nil => rfl
  | cons d s ih =>
    obtain ⟨hd, hs⟩ := not_or.1 (mt List.mem_cons.2 h)
    rw [splitFirst_cons, if_neg (Ne.symm hd), ih hs, Option.map_none]

theorem splitFirst_eq_some_iff {c : Char} {s front rest : List Char} :
    splitFirst c s = some (front, rest) ↔ c ∉ front ∧ s = front ++ c :: rest := by
  constructor
  · intro h
    by_cases hc : c ∈ s
    · obtain ⟨before, after, rfl, hbefore⟩ := List.eq_append_cons_of_mem hc
      rw [splitFirst_append hbefore] at h
      cases h
      exact ⟨hbefore, rfl⟩
    · rw [splitFirst_of_not_mem hc] at h
      cases h
  · rintro ⟨hc, rfl⟩
    exact splitFirst_append hc rest

/-- So neither what stands before a character nor what a reader to which a return at the end makes
no difference reads behind it depends on the return. -/
theorem splitFirst_dropReturn {α : Type} {f : List Char → α} (hf : ∀ s, f (s ++ ['\r']) = f s)
    {c : Char} (h : '\r' ≠ c) (line : List Char) :
    (splitFirst c (dropReturn line)).map (fun parts => (parts.1, f parts.2)) =
      (splitFirst c line).map fun parts => (parts.1, f parts.2) := by
  rcases dropReturn_cases line with hline | hline
  · rw [hline]
  · have hsplit := (congrArg (splitFirst c) hline).trans (splitFirst_concat h _)
    rw [hsplit, Option.map_map]
    congr 1
    funext parts
    exact Prod.ext rfl (hf _).symm

/-! ### Rows -/

/-- The text that has these rows, with a line feed between any two. If it ends in a line feed, its
last row is empty. -/
def ofRows (rows : List (List Char)) : String :=
  String.ofList (joinWith '\n' rows)

/-- To a reader that passes over empty lines and to which the return at the end of a line makes no
difference, the lines of a text are its rows. -/
theorem filterMap_lines_ofRows {α : Type} {f : List Char → Option α} (hnil : f [] = none)
    (hreturn : ∀ line, f (dropReturn line) = f line) {rows : List (List Char)}
    (h : ∀ row ∈ rows, '\n' ∉ row) :
    (lines (ofRows rows).toList).filterMap f = rows.filterMap f := by
  rw [ofRows, String.toList_ofList]
  by_cases hne : rows = []
  · subst hne
    rfl
  · obtain ⟨init, last, hpieces, hlines⟩ := exists_last_piece (joinWith '\n' rows)
    have hrows : rows = init ++ [last] := (pieces_joinWith hne h).symm.trans hpieces
    have hinit : f ∘ dropReturn = f := funext hreturn
    rw [hlines, hrows, List.filterMap_append, List.filterMap_append, List.filterMap_map, hinit]
    cases last with
    | nil => rw [List.filterMap_cons_none hnil]; rfl
    | cons c rest => rfl

/-- The items are written in the rows in order, one in a row, among rows to be passed over. -/
inductive InRows {α : Type} (Writes : α → List Char → Prop) (Passed : List Char → Prop) :
    List α → List (List Char) → Prop where
  | nil : InRows Writes Passed [] []
  | pass {row : List Char} {items : List α} {rows : List (List Char)} :
      Passed row → InRows Writes Passed items rows → InRows Writes Passed items (row :: rows)
  | item {a : α} {row : List Char} {items : List α} {rows : List (List Char)} :
      Writes a row → InRows Writes Passed items rows →
        InRows Writes Passed (a :: items) (row :: rows)

/-- A reader that makes nothing of the rows passed over makes of the others what there is to be made
of their items, in order. -/
theorem InRows.filterMap_congr {α β : Type} {Writes : α → List Char → Prop}
    {Passed : List Char → Prop} {f : List Char → Option β} {g : α → Option β} {items : List α}
    {rows : List (List Char)} (h : InRows Writes Passed items rows)
    (hpass : ∀ row, Passed row → f row = none)
    (hitem : ∀ a ∈ items, ∀ row, Writes a row → f row = g a) :
    rows.filterMap f = items.filterMap g := by
  induction h with
  | nil => rfl
  | pass hrow _ ih => rw [List.filterMap_cons_none (hpass _ hrow), ih hitem]
  | item hrow _ ih =>
    obtain ⟨ha, hitem⟩ := List.forall_mem_cons.1 hitem
    rw [List.filterMap_cons, List.filterMap_cons, ha _ hrow, ih hitem]

/-- A reader that makes something of each row with an item, and nothing of the others, meets the
items in order. -/
theorem InRows.filterMap_eq {α β : Type} {Writes : α → List Char → Prop} {Passed : List Char → Prop}
    {f : List Char → Option β} {g : α → β} {items : List α} {rows : List (List Char)}
    (h : InRows Writes Passed items rows) (hpass : ∀ row, Passed row → f row = none)
    (hitem : ∀ a ∈ items, ∀ row, Writes a row → f row = some (g a)) :
    rows.filterMap f = items.map g :=
  (h.filterMap_congr hpass hitem).trans (congrFun List.filterMap_eq_map' items)

/-- Rows among which others have been put are the same rows without the others. -/
theorem InRows.filter_eq {Passed : List Char → Prop} {p : List Char → Bool}
    {items rows : List (List Char)} (h : InRows Eq Passed items rows)
    (hpass : ∀ row, Passed row → p row = false) : rows.filter p = items.filter p := by
  rw [← List.filterMap_eq_filter]
  refine h.filterMap_congr (fun row hrow => ?_) fun a _ row hrow => hrow ▸ rfl
  exact Option.guard_eq_none_iff.2 (hpass row hrow)

/-- Rows that all make sense are read one by one. -/
theorem mapM_of_ok {α β ε : Type} {f : α → Except ε β} {g : α → β} {l : List α}
    (h : ∀ a ∈ l, f a = .ok (g a)) : l.mapM f = .ok (l.map g) := by
  induction l with
  | nil => rfl
  | cons a rest ih =>
    obtain ⟨ha, hrest⟩ := List.forall_mem_cons.1 h
    rw [List.mapM_cons, ha, ih hrest]
    rfl

/-- The first row that makes no sense is the one that counts. -/
theorem mapM_of_error {α β ε : Type} {f : α → Except ε β} {g : α → β} {front rest : List α} {a : α}
    {e : ε} (hfront : ∀ a ∈ front, f a = .ok (g a)) (ha : f a = .error e) :
    (front ++ a :: rest).mapM f = .error e := by
  rw [List.mapM_append, mapM_of_ok hfront, List.mapM_cons, ha]
  rfl

theorem isOk_mapM_iff {α β ε : Type} {f : α → Except ε β} {l : List α} :
    (l.mapM f).isOk = true ↔ ∀ a ∈ l, (f a).isOk = true := by
  induction l with
  | nil => exact iff_of_true rfl (List.forall_mem_nil _)
  | cons a rest ih =>
    rw [List.forall_mem_cons, ← ih, List.mapM_cons]
    cases f a with
    | error e => exact iff_of_false nofun fun h => nomatch h.1
    | ok b => cases rest.mapM f <;> exact (and_iff_right rfl).symm

/-- What is read is read from a row. -/
theorem mem_of_mapM_ok {α β ε : Type} {f : α → Except ε β} {l : List α} {read : List β}
    (h : l.mapM f = .ok read) {b : β} : b ∈ read ↔ ∃ a ∈ l, f a = .ok b := by
  induction l generalizing read with
  | nil =>
    cases Except.ok.inj h
    simp
  | cons a rest ih =>
    rw [List.mapM_cons] at h
    cases ha : f a with
    | error e =>
      rw [ha] at h
      cases h
    | ok first =>
      cases hrest : rest.mapM f with
      | error e =>
        rw [ha, hrest] at h
        cases h
      | ok others =>
        rw [ha, hrest] at h
        cases Except.ok.inj h
        rw [List.mem_cons, ih hrest, List.exists_mem_cons_iff, ha, Except.ok.injEq, eq_comm]

/-- Where each row sets something or leaves it as it is, the last row that sets it counts. -/
theorem foldl_of_last {σ α β : Type} {f : σ → α → σ} {p : α → Bool} {g : α → β} (look : σ → β)
    (h : ∀ s a, look (f s a) = if p a then g a else look s) (s : σ) (l : List α) :
    look (l.foldl f s) = ((l.filter p).getLast?.map g).getD (look s) := by
  induction l using List.reverseRecOn with
  | nil => rfl
  | append_singleton front a ih =>
    rw [List.foldl_append, List.foldl_cons, List.foldl_nil, h, ih, List.filter_append]
    cases hp : p a with
    | true => simp [hp]
    | false => simp [hp]

end HostInventory.Text
