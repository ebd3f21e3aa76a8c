/-! Blank characters, trimming and words.

A blank is a character with the Unicode property White_Space: the tab group, the
space, and the separators outside ASCII. Every reader of this library that skips,
trims or separates at blanks means this set, so a no-break space separates two
fields exactly as a space does. `trim` loses blanks at the two ends only, and
`words` gives the maximal runs without a blank, in order. -/
namespace HostInventory.Text

/-- The twenty-five characters with the property White_Space. -/
def isBlank (c : Char) : Bool :=
  let n := c.toNat
  (9 ≤ n && n ≤ 13) || n == 0x20 || n == 0x85 || n == 0xA0 || n == 0x1680 ||
    (0x2000 ≤ n && n ≤ 0x200A) || n == 0x2028 || n == 0x2029 || n == 0x202F ||
    n == 0x205F || n == 0x3000

/-- The text without the blanks at its start. -/
def trimStart (s : List Char) : List Char :=
  s.dropWhile isBlank

/-- The text without the blanks at its end. -/
def trimEnd (s : List Char) : List Char :=
  (s.reverse.dropWhile isBlank).reverse

/-- The text without the blanks at its two ends. -/
def trim (s : List Char) : List Char :=
  trimEnd (trimStart s)

/-- The pieces between the characters that `sep` holds of, empty ones included:
one more than there are such characters. -/
def pieces (sep : Char → Bool) (s : List Char) : List (List Char) :=
  s.foldr
    (fun c acc =>
      if sep c then [] :: acc
      else
        match acc with
        | [] => [[c]]
        | piece :: rest => (c :: piece) :: rest)
    [[]]

/-- The maximal runs without a blank. -/
def words (s : List Char) : List (List Char) :=
  (pieces isBlank s).filter fun w => !w.isEmpty

/-- The text before and after the first `c`, if there is one. -/
def splitFirst (c : Char) (s : List Char) : Option (List Char × List Char) :=
  match s.dropWhile (· != c) with
  | [] => none
  | _ :: after => some (s.takeWhile (· != c), after)

/-- The pieces joined with `c` between any two. -/
def joinWith (c : Char) : List (List Char) → List Char
  | [] => []
  | [piece] => piece
  | piece :: rest => piece ++ c :: joinWith c rest

/-- What is left of `s` after the text `head`, if `s` starts with it. -/
def dropHead? (head s : List Char) : Option (List Char) :=
  if head.isPrefixOf s then some (s.drop head.length) else none

/-- What is left of `s` before the text `tail`, if `s` ends with it. -/
def dropTail? (tail s : List Char) : Option (List Char) :=
  (dropHead? tail.reverse s.reverse).map List.reverse

theorem pieces_nil (sep : Char → Bool) : pieces sep [] = [[]] := rfl

theorem pieces_ne_nil (sep : Char → Bool) (s : List Char) : pieces sep s ≠ [] := by
  cases s with
  | nil => simp [pieces]
  | cons c s =>
    simp only [pieces, List.foldr_cons]
    split
    · simp
    · split <;> simp

theorem words_nil : words [] = [] := rfl

theorem pieces_cons (sep : Char → Bool) (c : Char) (s : List Char) :
    pieces sep (c :: s) =
      if sep c then [] :: pieces sep s
      else
        match pieces sep s with
        | [] => [[c]]
        | piece :: rest => (c :: piece) :: rest := rfl

/-- No piece holds a separator. -/
theorem not_sep_of_mem_pieces {sep : Char → Bool} {s piece : List Char} {c : Char}
    (h : piece ∈ pieces sep s) (hc : c ∈ piece) : sep c = false := by
  induction s generalizing piece with
  | nil =>
    simp only [pieces_nil, List.mem_singleton] at h
    subst h
    exact absurd hc List.not_mem_nil
  | cons d s ih =>
    obtain ⟨first, rest, he⟩ := List.exists_cons_of_ne_nil (pieces_ne_nil sep s)
    rw [pieces_cons, he] at h
    split at h
    · rcases List.mem_cons.1 h with rfl | h
      · exact absurd hc List.not_mem_nil
      · exact ih (he ▸ h) hc
    · next hd =>
      rcases List.mem_cons.1 h with rfl | h
      · rcases List.mem_cons.1 hc with rfl | hc
        · exact Bool.eq_false_iff.2 hd
        · exact ih (he ▸ List.mem_cons_self) hc
      · exact ih (he ▸ List.mem_cons_of_mem _ h) hc

theorem joinWith_cons (c : Char) (piece : List Char) {rest : List (List Char)} (h : rest ≠ []) :
    joinWith c (piece :: rest) = piece ++ c :: joinWith c rest := by
  cases rest with
  | nil => exact absurd rfl h
  | cons next rest => rfl

theorem joinWith_cons_cons (c d : Char) (piece : List Char) (rest : List (List Char)) :
    joinWith c ((d :: piece) :: rest) = d :: joinWith c (piece :: rest) := by
  cases rest <;> rfl

/-- The first two pieces can be put together before the rest. -/
theorem joinWith_join (c : Char) (first next : List Char) (rest : List (List Char)) :
    joinWith c (first :: next :: rest) = joinWith c ((first ++ c :: next) :: rest) := by
  cases rest <;> simp [joinWith]

/-- Taking a text apart at a character loses nothing but that character. -/
theorem joinWith_pieces (c : Char) (s : List Char) : joinWith c (pieces (· == c) s) = s := by
  induction s with
  | nil => rfl
  | cons d s ih =>
    obtain ⟨first, rest, he⟩ := List.exists_cons_of_ne_nil (pieces_ne_nil (· == c) s)
    rw [pieces_cons]
    split
    · next hd =>
      rw [joinWith_cons c [] (pieces_ne_nil _ s), ih, ← beq_iff_eq.1 hd]
      rfl
    · rw [he] at ih ⊢
      exact (joinWith_cons_cons c d first rest).trans (congrArg _ ih)

/-- A separator ends a piece, whatever stands around it. -/
theorem pieces_append_sep {sep : Char → Bool} (s t : List Char) {c : Char} (h : sep c = true) :
    pieces sep (s ++ c :: t) = pieces sep s ++ pieces sep t := by
  induction s with
  | nil => rw [List.nil_append, pieces_cons, if_pos h, pieces_nil, List.singleton_append]
  | cons d s ih =>
    obtain ⟨first, rest, he⟩ := List.exists_cons_of_ne_nil (pieces_ne_nil sep s)
    rw [List.cons_append, pieces_cons, pieces_cons, ih, he]
    split <;> rfl

theorem pieces_of_not_mem {c : Char} {s : List Char} (h : c ∉ s) : pieces (· == c) s = [s] := by
  induction s with
  | nil => rfl
  | cons d s ih =>
    obtain ⟨hd, hs⟩ := not_or.1 (mt List.mem_cons.2 h)
    rw [pieces_cons, if_neg (by simpa using Ne.symm hd), ih hs]

/-- Pieces without the character between them are given back. -/
theorem pieces_joinWith {c : Char} {ps : List (List Char)} (hne : ps ≠ [])
    (h : ∀ piece ∈ ps, c ∉ piece) : pieces (· == c) (joinWith c ps) = ps := by
  induction ps with
  | nil => exact absurd rfl hne
  | cons piece rest ih =>
    obtain ⟨hpiece, hrest⟩ := List.forall_mem_cons.1 h
    by_cases hnil : rest = []
    · subst hnil
      exact pieces_of_not_mem hpiece
    · have happend : pieces (· == c) (piece ++ c :: joinWith c rest) =
          pieces (· == c) piece ++ pieces (· == c) (joinWith c rest) :=
        pieces_append_sep piece _ (beq_self_eq_true c)
      rw [joinWith_cons c piece hnil, happend, pieces_of_not_mem hpiece, ih hnil hrest,
        List.singleton_append]

end HostInventory.Text
