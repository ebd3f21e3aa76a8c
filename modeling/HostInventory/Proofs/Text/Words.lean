import HostInventory.Proofs.Text.Lines
import Mathlib.Data.List.DropRight

/-! Words with blanks between them.

Words are spaced out if there is a blank, or more, between any two of them; there may be blanks
around them too (`Spaced`). Taking a text apart at its blanks gives back the words that it has been
spaced out from, however wide the gaps are (`words_of_spaced`). Blanks at the two ends of a text
are lost to a reader that trims it, and no others (`trim_append_cons`), so what counts of a line is
decided by the first character that is not blank. -/
namespace HostInventory.Text

/-! ### Trimming -/

section Trimming
variable {gap : List Char}

theorem dropWhile_append_cons {p : Char → Bool} {c : Char} (h : p c = false) (s t : List Char) :
    (s ++ c :: t).dropWhile p = s.dropWhile p ++ c :: t := by
  rw [List.dropWhile_append, List.dropWhile_cons_of_neg (Bool.eq_false_iff.1 h)]
  split
  · next hall => rw [List.isEmpty_iff.1 hall, List.nil_append]
  · rfl

theorem trimEnd_append_cons {c : Char} (h : isBlank c = false) (s t : List Char) :
    trimEnd (s ++ c :: t) = s ++ c :: trimEnd t := by
  unfold trimEnd
  rw [List.reverse_append, List.reverse_cons, List.append_assoc, List.singleton_append,
    dropWhile_append_cons h]
  simp

/-- What is not blank is kept, with all between it and what else is not blank. -/
theorem trim_append_cons {c : Char} (h : isBlank c = false) (s t : List Char) :
    trim (s ++ c :: t) = trimStart s ++ c :: trimEnd t := by
  rw [trim, ← trimEnd_append_cons h]
  exact congrArg trimEnd (dropWhile_append_cons h s t)

theorem trimStart_of_blank (h : ∀ c ∈ gap, isBlank c = true) : trimStart gap = [] :=
  List.dropWhile_eq_nil_iff.2 h

theorem trim_eq_nil_iff {s : List Char} : trim s = [] ↔ ∀ c ∈ s, isBlank c = true := by
  constructor
  · intro h c hc
    obtain ⟨front, rest, rfl⟩ := List.append_of_mem hc
    refine Bool.not_eq_false _ ▸ fun hblank => ?_
    rw [trim_append_cons hblank] at h
    exact absurd h (List.append_ne_nil_of_right_ne_nil _ (List.cons_ne_nil _ _))
  · intro h
    rw [trim, trimStart_of_blank h]
    rfl

theorem isEmpty_trim {c : Char} {s : List Char} (hc : c ∈ s) (h : isBlank c = false) :
    (trim s).isEmpty = false := by
  rw [List.isEmpty_eq_false_iff, Ne, trim_eq_nil_iff]
  exact fun hall => absurd (hall c hc) (Bool.eq_false_iff.1 h)

/-- Blanks in front are lost. -/
theorem trim_append_left (h : ∀ c ∈ gap, isBlank c = true) (s : List Char) :
    trim (gap ++ s) = trim s :=
  congrArg trimEnd (List.dropWhile_append_of_pos h)

theorem trim_trimStart (s : List Char) : trim (trimStart s) = trim s :=
  congrArg trimEnd (List.dropWhile_idempotent _ _)

theorem trim_trim (s : List Char) : trim (trim s) = trim s := by
  by_cases h : trim s = []
  · rw [h]
    rfl
  · obtain ⟨c, hc⟩ : ∃ c ∈ s, isBlank c = false := by
      simpa using mt trim_eq_nil_iff.2 h
    obtain ⟨front, rest, rfl⟩ := List.append_of_mem hc.1
    have hend : trimEnd (trimEnd rest) = trimEnd rest := by
      rw [trimEnd, trimEnd, List.reverse_reverse, List.dropWhile_idempotent]
    have hstart : trimStart (trimStart front) = trimStart front := List.dropWhile_idempotent _ _
    rw [trim_append_cons hc.2, trim_append_cons hc.2, hend, hstart]

theorem trim_of_forall_not {s : List Char} (h : ∀ c ∈ s, isBlank c = false) : trim s = s := by
  have hself : ∀ t : List Char, (∀ c ∈ t, isBlank c = false) → t.dropWhile isBlank = t :=
    fun t ht => List.dropWhile_eq_self_iff.2 fun _ =>
      Bool.eq_false_iff.1 (ht _ (List.getElem_mem _))
  rw [trim, trimStart, hself s h, trimEnd, hself _ fun c hc => h c (List.mem_reverse.1 hc),
    List.reverse_reverse]

/-- Trimming loses blanks only. -/
theorem mem_trim_iff {c : Char} (h : isBlank c = false) {s : List Char} : c ∈ trim s ↔ c ∈ s := by
  constructor
  · intro hc
    have hstart : c ∈ trimStart s := by
      have := List.mem_reverse.1 hc
      exact List.mem_reverse.1 ((List.dropWhile_sublist _).subset this)
    exact (List.dropWhile_sublist _).subset hstart
  · intro hc
    obtain ⟨front, rest, rfl⟩ := List.append_of_mem hc
    rw [trim_append_cons h]
    exact List.mem_append_right _ List.mem_cons_self

end Trimming

theorem isBlank_of_isAlphanum {c : Char} (h : c.isAlphanum = true) : isBlank c = false := by
  delta Char.isAlphanum Char.isAlpha Char.isUpper Char.isLower Char.isDigit at h
  simp only [Bool.or_eq_true, Bool.and_eq_true, decide_eq_true_eq, ge_iff_le,
    UInt32.le_iff_toNat_le] at h
  have hrange : (65 ≤ c.toNat ∧ c.toNat ≤ 90 ∨ 97 ≤ c.toNat ∧ c.toNat ≤ 122) ∨
      48 ≤ c.toNat ∧ c.toNat ≤ 57 := h
  simp only [isBlank, Bool.or_eq_false_iff, Bool.and_eq_false_iff, decide_eq_false_iff_not,
    beq_eq_false_iff_ne]
  omega

theorem isBlank_of_isDigit {c : Char} (h : c.isDigit = true) : isBlank c = false :=
  isBlank_of_isAlphanum (Bool.or_eq_true _ _ ▸ .inr h)

/-! ### Lines that count -/

section Substance
variable {gap : List Char}

/-- A line without anything that counts: a blank one or a comment. -/
def Silent (line : List Char) : Prop :=
  (∀ c ∈ line, isBlank c = true) ∨
    ∃ gap rest, (∀ c ∈ gap, isBlank c = true) ∧ line = gap ++ '#' :: rest

theorem substance?_of_silent {line : List Char} (h : Silent line) : substance? line = none := by
  rcases h with hblank | ⟨gap, rest, hgap, rfl⟩
  · rw [substance?, trim_eq_nil_iff.2 hblank]
  · rw [substance?, trim_append_cons rfl, trimStart_of_blank hgap]
    rfl

theorem substance?_of_ne {c : Char} (h : ∀ c ∈ gap, isBlank c = true) (hc : isBlank c = false)
    (hne : c ≠ '#') (rest : List Char) :
    substance? (gap ++ c :: rest) = some (c :: trimEnd rest) := by
  rw [substance?, trim_append_cons hc, trimStart_of_blank h, List.nil_append]
  split
  · next hnil => cases hnil
  · next hcomment => exact absurd (List.cons.inj hcomment).1 hne
  · rfl

/-- A line is taken without the blanks around it if anything in it counts. -/
theorem substance?_eq_some_iff {line body : List Char} :
    substance? line = some body ↔ ¬Silent line ∧ trim line = body := by
  constructor
  · intro h
    refine ⟨fun hs => ?_, ?_⟩
    · rw [substance?_of_silent hs] at h
      cases h
    · unfold substance? at h
      split at h
      · cases h
      · cases h
      · exact Option.some.inj h
  · rintro ⟨hs, rfl⟩
    have hgap : ∀ c ∈ line.takeWhile isBlank, isBlank c = true := fun c hc =>
      List.mem_takeWhile_imp hc
    have hsplit := List.takeWhile_append_dropWhile (p := isBlank) (l := line)
    cases hrest : line.dropWhile isBlank with
    | nil => exact absurd (.inl (List.dropWhile_eq_nil_iff.1 hrest)) hs
    | cons c rest =>
      have hc : isBlank c = false := by
        have := List.head?_dropWhile_not isBlank line
        rw [hrest] at this
        simpa using this
      rw [hrest] at hsplit
      have hne : c ≠ '#' := by
        rintro rfl
        exact hs (.inr ⟨_, rest, hgap, hsplit.symm⟩)
      rw [← hsplit, substance?_of_ne hgap hc hne, trim_append_cons hc, trimStart_of_blank hgap,
        List.nil_append]

theorem substance?_dropReturn (line : List Char) :
    substance? (dropReturn line) = substance? line := by
  rw [substance?, substance?, trim_dropReturn]

end Substance

/-! ### Words -/

theorem pieces_of_forall_not {sep : Char → Bool} {s : List Char} (h : ∀ c ∈ s, sep c = false) :
    pieces sep s = [s] := by
  induction s with
  | nil => rfl
  | cons c s ih =>
    obtain ⟨hc, hs⟩ := List.forall_mem_cons.1 h
    rw [pieces_cons, if_neg (Bool.eq_false_iff.1 hc), ih hs]

/-- A word is not empty and holds no blank. -/
structure IsWord (word : List Char) : Prop where
  ne_nil : word ≠ []
  not_blank : ∀ c ∈ word, isBlank c = false

instance (word : List Char) : Decidable (IsWord word) :=
  decidable_of_iff (word ≠ [] ∧ word.all (!isBlank ·) = true)
    ⟨fun h => ⟨h.1, by simpa using h.2⟩, fun h => ⟨h.ne_nil, by simpa using h.not_blank⟩⟩

theorem IsWord.words_eq {word : List Char} (h : IsWord word) : words word = [word] := by
  rw [words, pieces_of_forall_not h.not_blank,
    List.filter_cons_of_pos (by simpa using h.ne_nil), List.filter_nil]

/-- A blank ends a word, whatever stands around it. -/
theorem words_append_blank {c : Char} (h : isBlank c = true) (s t : List Char) :
    words (s ++ c :: t) = words s ++ words t := by
  rw [words, pieces_append_sep s t h, List.filter_append]
  rfl

theorem words_concat {c : Char} (h : isBlank c = true) (s : List Char) :
    words (s ++ [c]) = words s := by
  rw [words_append_blank h, words_nil, List.append_nil]

theorem words_dropReturn (line : List Char) : words (dropReturn line) = words line := by
  rcases dropReturn_cases line with h | h
  · rw [h]
  · exact (words_concat rfl _).symm.trans (congrArg words h.symm)

/-- The words stand in a text in order, with a blank or more between any two of them and blanks,
if any, around them. -/
inductive Spaced : List (List Char) → List Char → Prop where
  | nil : Spaced [] []
  | blank {c : Char} {ws : List (List Char)} {s : List Char} :
      isBlank c = true → Spaced ws s → Spaced ws (c :: s)
  | last (word : List Char) : Spaced [word] word
  | word (word : List Char) {c : Char} {ws : List (List Char)} {s : List Char} :
      isBlank c = true → Spaced ws s → Spaced (word :: ws) (word ++ c :: s)

/-- Words are found wherever they are spaced out. -/
theorem words_of_spaced {ws : List (List Char)} {s : List Char} (h : Spaced ws s)
    (hws : ∀ word ∈ ws, IsWord word) : words s = ws := by
  induction h with
  | nil => rfl
  | blank hc _ ih => exact (words_append_blank hc [] _).trans (ih hws)
  | last word => exact (hws word List.mem_cons_self).words_eq
  | word word hc _ ih =>
    obtain ⟨hword, hws⟩ := List.forall_mem_cons.1 hws
    rw [words_append_blank hc, hword.words_eq, ih hws, List.singleton_append]

/-- A single blank between any two words is enough. -/
theorem spaced_joinWith {c : Char} (h : isBlank c = true) (ws : List (List Char)) :
    Spaced ws (joinWith c ws) := by
  induction ws with
  | nil => exact .nil
  | cons word rest ih =>
    cases rest with
    | nil => exact .last word
    | cons next rest => exact .word word h ih

/-- There is nothing else between the words and around them. -/
theorem Spaced.blank_or_mem {ws : List (List Char)} {s : List Char} (h : Spaced ws s) :
    ∀ c ∈ s, isBlank c = true ∨ ∃ word ∈ ws, c ∈ word := by
  induction h with
  | nil => exact nofun
  | blank hc _ ih => exact List.forall_mem_cons.2 ⟨.inl hc, ih⟩
  | last word => exact fun c hc => .inr ⟨word, List.mem_cons_self, hc⟩
  | word word hc _ ih =>
    intro d hd
    rcases List.mem_append.1 hd with hd | hd
    · exact .inr ⟨word, List.mem_cons_self, hd⟩
    · rcases List.mem_cons.1 hd with rfl | hd
      · exact .inl hc
      · exact (ih d hd).imp_right fun ⟨word, hword, hd⟩ => ⟨word, List.mem_cons_of_mem _ hword, hd⟩

/-- Nothing but blanks stands in front of the first word. -/
theorem Spaced.exists_front {word s : List Char} {ws : List (List Char)}
    (h : Spaced (word :: ws) s) :
    ∃ gap rest, (∀ c ∈ gap, isBlank c = true) ∧ s = gap ++ word ++ rest := by
  generalize hall : word :: ws = all at h
  induction h with
  | nil => cases hall
  | blank hc _ ih =>
    obtain ⟨gap, rest, hgap, rfl⟩ := ih hall
    exact ⟨_ :: gap, rest, List.forall_mem_cons.2 ⟨hc, hgap⟩, rfl⟩
  | last =>
    cases hall
    exact ⟨[], [], nofun, (List.append_nil _).symm⟩
  | word =>
    cases hall
    exact ⟨[], _, nofun, rfl⟩

end HostInventory.Text
