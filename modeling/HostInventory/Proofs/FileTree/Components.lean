import HostInventory.FileTree.Tree
import Mathlib.Data.List.Basic

/-! Paths by their components.

A path is compared, ordered and taken apart by components, but it is kept and extended as a
text. Here is what the operations on texts do to components: the paths above a path have the
proper beginnings of its components, down to the root or to the empty path
(`exists_ancestor_iff`); a path lies one step below another when it has one component more
(`isChild_iff`); and a name behind a path adds that name (`components_div`). -/
namespace HostInventory.FileTree.Path

/-- The pieces of a path's text between slashes. -/
def pieces (p : Path) : List (List Char) :=
  Text.pieces (· == '/') p.spelling.toList

theorem pieces_ne_nil (p : Path) : p.pieces ≠ [] :=
  Text.pieces_ne_nil _ _

/-- A single empty piece is the empty text. -/
theorem spelling_of_pieces {p : Path} (h : p.pieces = [[]]) : p.spelling = "" := by
  have htext : Text.joinWith '/' p.pieces = p.spelling.toList := Text.joinWith_pieces _ _
  rw [h] at htext
  exact String.toList_eq_nil_iff.1 htext.symm

/-- The parts of a text with the given pieces. -/
def partsOf : List (List Char) → Parts
  | [[]] => ⟨false, false, []⟩
  | [] :: rest => ⟨true, false, rest.reverse⟩
  | [['.']] => ⟨false, true, []⟩
  | ['.'] :: rest => ⟨false, true, ([] :: rest).reverse⟩
  | ps => ⟨false, false, ps.reverse⟩

theorem partsOf_root {ps : List (List Char)} (h : ps ≠ []) :
    partsOf ([] :: ps) = ⟨true, false, ps.reverse⟩ := by
  cases ps with
  | nil => exact absurd rfl h
  | cons piece rest => rfl

theorem partsOf_here {ps : List (List Char)} (h : ps ≠ []) :
    partsOf (['.'] :: ps) = ⟨false, true, ([] :: ps).reverse⟩ := by
  cases ps with
  | nil => exact absurd rfl h
  | cons piece rest => rfl

theorem isIdle_iff {piece : List Char} : isIdle piece = true ↔ piece = [] ∨ piece = ['.'] := by
  simp [isIdle]

theorem partsOf_of_not_idle {piece : List Char} (h : isIdle piece = false)
    (ps : List (List Char)) : partsOf (piece :: ps) = ⟨false, false, (piece :: ps).reverse⟩ := by
  have hidle : ¬(piece = [] ∨ piece = ['.']) := by rw [← isIdle_iff, h]; exact Bool.false_ne_true
  unfold partsOf
  split
  · next heq => exact absurd (.inl (List.cons.inj heq).1) hidle
  · next heq => exact absurd (.inl (List.cons.inj heq).1) hidle
  · next heq => exact absurd (.inr (List.cons.inj heq).1) hidle
  · next heq => exact absurd (.inr (List.cons.inj heq).1) hidle
  · rfl

/-- The first piece of a text that begins neither with a slash nor with a lone dot. -/
theorem exists_pieces_of_not_idle {c : Char} {s : List Char} (hc : c ≠ '/')
    (hdot : c :: s ≠ ['.']) (hdots : ∀ rest, c :: s ≠ '.' :: '/' :: rest) :
    ∃ piece ps, Text.pieces (· == '/') (c :: s) = piece :: ps ∧ isIdle piece = false := by
  obtain ⟨piece, ps, hp⟩ := List.exists_cons_of_ne_nil (Text.pieces_ne_nil (· == '/') s)
  refine ⟨c :: piece, ps, ?_, ?_⟩
  · rw [Text.pieces_cons, if_neg (by simpa using hc), hp]
  · rw [Bool.eq_false_iff, ne_eq, isIdle_iff]
    rintro (h | h)
    · cases h
    · -- A piece that ends after the dot ends at a slash or with the text.
      obtain ⟨rfl, rfl⟩ := List.cons.inj h
      cases s with
      | nil => exact hdot rfl
      | cons d rest =>
        by_cases hd : d = '/'
        · exact hdots rest (hd ▸ rfl)
        · obtain ⟨first, more, hm⟩ :=
            List.exists_cons_of_ne_nil (Text.pieces_ne_nil (· == '/') rest)
          rw [Text.pieces_cons, if_neg (by simpa using hd), hm] at hp
          cases (List.cons.inj hp).1

/-- The parts of a path are those of its pieces. -/
theorem parts_eq (p : Path) : p.parts = partsOf p.pieces := by
  unfold parts pieces
  generalize p.spelling.toList = s
  split
  · rfl
  · next rest => exact (partsOf_root (Text.pieces_ne_nil _ rest)).symm
  · rfl
  · next rest => exact (partsOf_here (Text.pieces_ne_nil _ rest)).symm
  · next hnil hroot hdot hdots =>
    obtain ⟨c, s, rfl⟩ := List.exists_cons_of_ne_nil hnil
    have hc : c ≠ '/' := fun h => hroot s (h ▸ rfl)
    obtain ⟨piece, ps, hp, hidle⟩ := exists_pieces_of_not_idle hc hdot hdots
    rw [hp, partsOf_of_not_idle hidle]

/-! ### The components of a text -/

/-- The start of a text with these parts. -/
def Parts.start (parts : Parts) : List Char :=
  if parts.absolute then ['/'] else if parts.dotted then ['.'] else []

/-- The component that the start of a text stands for. -/
def lead (start : List Char) : List Component :=
  if start = ['/'] then [.root] else if start = ['.'] then [.here] else []

/-- The components that pieces stand for behind the start. -/
def steps (ps : List (List Char)) : List Component :=
  (ps.filter fun piece => !isIdle piece).map step

theorem steps_append (ps qs : List (List Char)) : steps (ps ++ qs) = steps ps ++ steps qs := by
  simp only [steps, List.filter_append, List.map_append]

theorem steps_of_idle {piece : List Char} (h : isIdle piece = true) : steps [piece] = [] := by
  simp [steps, h]

theorem steps_of_not_idle {piece : List Char} (h : isIdle piece = false) :
    steps [piece] = [step piece] := by
  simp [steps, h]

theorem step_ne_root (piece : List Char) : step piece ≠ .root := by
  unfold step
  split <;> simp

/-- Idle pieces at the end stand for nothing. -/
theorem steps_dropWhile_isIdle (ps : List (List Char)) :
    steps (ps.dropWhile isIdle).reverse = steps ps.reverse := by
  induction ps with
  | nil => rfl
  | cons piece rest ih =>
    by_cases h : isIdle piece = true
    · rw [List.dropWhile_cons_of_pos h, ih, List.reverse_cons, steps_append, steps_of_idle h,
        List.append_nil]
    · rw [List.dropWhile_cons_of_neg h]

theorem components_of_parts (p : Path) :
    p.components = lead p.parts.start ++ steps p.parts.pieces.reverse := by
  unfold components
  obtain ⟨absolute, dotted, ps⟩ := p.parts
  cases absolute <;> cases dotted <;> rfl

/-! ### The paths above -/

/-- Pieces, the last one first, that a text with the given start can have behind it. -/
inductive Fits : List Char → List (List Char) → Prop
  | root {ps : List (List Char)} : (∀ piece ∈ ps, '/' ∉ piece) → Fits ['/'] ps
  | here {ps : List (List Char)} : (∀ piece ∈ ps, '/' ∉ piece) →
      (∀ piece, ps.getLast? = some piece → piece = []) → Fits ['.'] ps
  | plain {ps : List (List Char)} : (∀ piece ∈ ps, '/' ∉ piece) →
      (∀ piece, ps.getLast? = some piece → isIdle piece = false) → Fits [] ps

/-- What the first pieces are decides, and a beginning of the text has the same first piece. -/
theorem Fits.of_suffix {start : List Char} {ps qs : List (List Char)} (h : Fits start ps)
    (hs : qs <:+ ps) : Fits start qs := by
  obtain ⟨dropped, rfl⟩ := hs
  have hlast : ∀ piece, qs.getLast? = some piece → (dropped ++ qs).getLast? = some piece := by
    intro piece hp
    rw [List.getLast?_append, hp, Option.some_or]
  cases h with
  | root hslash => exact .root fun piece hp => hslash piece (List.mem_append_right _ hp)
  | here hslash hfirst =>
    exact .here (fun piece hp => hslash piece (List.mem_append_right _ hp))
      fun piece hp => hfirst piece (hlast piece hp)
  | plain hslash hfirst =>
    exact .plain (fun piece hp => hslash piece (List.mem_append_right _ hp))
      fun piece hp => hfirst piece (hlast piece hp)

theorem not_mem_slash_of_mem_pieces {p : Path} {piece : List Char} (h : piece ∈ p.pieces) :
    '/' ∉ piece := by
  intro hc
  simpa using Text.not_sep_of_mem_pieces h hc

theorem fits_parts (p : Path) : Fits p.parts.start p.parts.pieces := by
  have hslash : ∀ piece ∈ p.pieces, '/' ∉ piece := fun _ hp => not_mem_slash_of_mem_pieces hp
  have hne := p.pieces_ne_nil
  rw [parts_eq]
  generalize p.pieces = ps at hslash hne
  obtain ⟨piece, rest, rfl⟩ := List.exists_cons_of_ne_nil hne
  obtain ⟨hpiece, hrest⟩ := List.forall_mem_cons.1 hslash
  have hreverse : ∀ piece ∈ rest.reverse, '/' ∉ piece :=
    fun piece hp => hrest piece (List.mem_reverse.1 hp)
  cases hidle : isIdle piece with
  | false =>
    rw [partsOf_of_not_idle hidle]
    refine .plain (fun piece hp => hslash piece (List.mem_reverse.1 hp)) fun first hfirst => ?_
    rw [List.getLast?_reverse] at hfirst
    exact Option.some.inj hfirst ▸ hidle
  | true =>
    by_cases hnil : rest = []
    · subst hnil
      rcases isIdle_iff.1 hidle with rfl | rfl
      · exact .plain nofun nofun
      · exact .here nofun nofun
    · rcases isIdle_iff.1 hidle with rfl | rfl
      · rw [partsOf_root hnil]
        exact .root hreverse
      · rw [partsOf_here hnil]
        refine .here (fun piece hp => ?_) fun first hfirst => ?_
        · rcases List.mem_cons.1 (List.mem_reverse.1 hp) with rfl | hp
          · exact List.not_mem_nil
          · exact hrest piece hp
        · rw [List.getLast?_reverse] at hfirst
          exact (Option.some.inj hfirst).symm

/-- A text put together from pieces has their components. -/
theorem components_spell {start : List Char} {ps : List (List Char)} (h : Fits start ps) :
    (spell start ps).components = lead start ++ steps ps.reverse := by
  have hpieces : (spell start ps).pieces =
      Text.pieces (· == '/') (start ++ Text.joinWith '/' ps.reverse) := by
    rw [pieces, spell, String.toList_ofList]
  have hjoined : ps ≠ [] → (∀ piece ∈ ps, '/' ∉ piece) →
      Text.pieces (· == '/') (Text.joinWith '/' ps.reverse) = ps.reverse := by
    intro hne hslash
    exact Text.pieces_joinWith (mt List.reverse_eq_nil_iff.1 hne)
      fun piece hp => hslash piece (List.mem_reverse.1 hp)
  rw [components_of_parts, parts_eq, hpieces]
  cases h with
  | root hslash =>
    rw [List.singleton_append, Text.pieces_cons, if_pos (beq_self_eq_true '/')]
    by_cases hne : ps = []
    · subst hne
      rfl
    · rw [hjoined hne hslash, partsOf_root (mt List.reverse_eq_nil_iff.1 hne),
        List.reverse_reverse]
      rfl
  | here hslash hfirst =>
    rcases List.eq_nil_or_concat' ps with rfl | ⟨init, first, rfl⟩
    · rfl
    · obtain rfl : first = [] := hfirst first List.getLast?_concat
      by_cases hne : init = []
      · subst hne
        rfl
      · have hrest : init.reverse ≠ [] := mt List.reverse_eq_nil_iff.1 hne
        have hinit : ∀ piece ∈ init.reverse, '/' ∉ piece := fun piece hp =>
          hslash piece (List.mem_append_left _ (List.mem_reverse.1 hp))
        have htext : Text.pieces (· == '/')
            (['.'] ++ Text.joinWith '/' (init ++ [[]]).reverse) = ['.'] :: init.reverse := by
          rw [List.reverse_concat, Text.joinWith_cons '/' [] hrest]
          exact congrArg (['.'] :: ·) (Text.pieces_joinWith hrest hinit)
        rw [htext, partsOf_here hrest, List.reverse_reverse, List.reverse_concat]
        rfl
  | plain hslash hfirst =>
    rcases List.eq_nil_or_concat' ps with rfl | ⟨init, first, rfl⟩
    · rfl
    · have hidle := hfirst first List.getLast?_concat
      rw [List.nil_append, hjoined (List.concat_ne_nil _ _) hslash, List.reverse_concat,
        partsOf_of_not_idle hidle, List.reverse_reverse]
      rfl

/-- The paths above a text have the proper beginnings of its components. Behind the root there
is no empty path. -/
theorem mem_map_above {start : List Char} {ps : List (List Char)} (h : Fits start ps)
    (hfirst : ∀ piece, ps.head? = some piece → isIdle piece = false) {cs : List Component} :
    cs ∈ (above start ps).map components ↔
      cs <+: lead start ++ steps ps.reverse ∧ cs ≠ lead start ++ steps ps.reverse ∧
        (cs = [] → start ≠ ['/']) := by
  fun_induction above start ps with
  | case1 hdot =>
    subst hdot
    have hempty : components ⟨""⟩ = [] := rfl
    have hall : lead ['.'] ++ steps [] = [.here] := rfl
    simp only [List.map_cons, List.map_nil, hempty, List.mem_singleton, List.reverse_nil, hall,
      List.prefix_cons_iff, List.prefix_nil]
    constructor
    · rintro rfl
      simp
    · rintro ⟨hcs | ⟨rest, rfl, rfl⟩, hne, -⟩
      · exact hcs
      · exact absurd rfl hne
  | case2 hdot =>
    cases h with
    | root =>
      simp only [lead, steps, List.map_nil, List.not_mem_nil, if_true, List.reverse_nil,
        List.filter_nil, List.append_nil, List.prefix_cons_iff, List.prefix_nil, false_iff]
      rintro ⟨rfl | ⟨rest, rfl, rfl⟩, hne, hroot⟩
      · exact hroot rfl rfl
      · exact hne rfl
    | here => exact absurd rfl hdot
    | plain => simp [lead, steps]
  | case3 piece rest upper ih =>
    have hidle : isIdle piece = false := hfirst piece rfl
    have hupper : Fits start upper :=
      h.of_suffix ((List.dropWhile_suffix isIdle).trans (List.suffix_cons piece rest))
    have hhead : ∀ first, upper.head? = some first → isIdle first = false := by
      intro first hf
      have hnot := List.head?_dropWhile_not isIdle rest
      rwa [show rest.dropWhile isIdle = upper from rfl, hf] at hnot
    have hall : lead start ++ steps (piece :: rest).reverse =
        lead start ++ steps upper.reverse ++ [step piece] := by
      rw [List.reverse_cons, steps_append, steps_of_not_idle hidle, ← List.append_assoc,
        steps_dropWhile_isIdle]
    rw [List.map_cons, List.mem_cons, ih hupper hhead, components_spell hupper, hall,
      List.prefix_concat_iff]
    generalize hA : lead start ++ steps upper.reverse = A
    constructor
    · rintro (rfl | ⟨hp, -, hroot⟩)
      · refine ⟨.inr List.prefix_rfl, by simp, ?_⟩
        rintro hnil rfl
        rw [hnil] at hA
        cases hA
      · refine ⟨.inr hp, ?_, hroot⟩
        rintro rfl
        have := hp.length_le
        rw [List.length_append, List.length_singleton] at this
        omega
    · rintro ⟨hp | hp, hne, hroot⟩
      · exact absurd hp hne
      · by_cases hcs : cs = A
        · exact .inl hcs
        · exact .inr ⟨hp, hcs, hroot⟩

/-- The pieces that the paths above are made from. -/
theorem fits_ancestors (p : Path) : Fits p.parts.start (p.parts.pieces.dropWhile isIdle) :=
  (fits_parts p).of_suffix (List.dropWhile_suffix isIdle)

theorem components_eq (p : Path) : p.components =
    lead p.parts.start ++ steps (p.parts.pieces.dropWhile isIdle).reverse := by
  rw [steps_dropWhile_isIdle, components_of_parts]

theorem not_isIdle_of_head?_dropWhile {ps : List (List Char)} {piece : List Char}
    (h : (ps.dropWhile isIdle).head? = some piece) : isIdle piece = false := by
  have hnot := List.head?_dropWhile_not isIdle ps
  rwa [h] at hnot

/-- The first path lies above the second. -/
def isAbove (q p : Path) : Bool :=
  p.isAtOrBelow q && !p.same q

theorem same_iff {p q : Path} : p.same q = true ↔ p.components = q.components :=
  beq_iff_eq

theorem isAtOrBelow_iff {p top : Path} :
    p.isAtOrBelow top = true ↔ top.components <+: p.components :=
  List.isPrefixOf_iff_prefix

theorem isAbove_iff {p q : Path} : q.isAbove p = true ↔
    q.components <+: p.components ∧ q.components ≠ p.components := by
  rw [isAbove, Bool.and_eq_true, isAtOrBelow_iff, Bool.not_eq_true', Bool.eq_false_iff, ne_eq,
    same_iff, ne_comm]

/-- The paths above a path are its proper beginnings, whatever their spelling. -/
theorem exists_ancestor_iff {p q : Path} (hq : q.components ≠ []) :
    (∃ a ∈ p.ancestors, a.same q = true) ↔ q.isAbove p = true := by
  have hmem : q.components ∈ p.ancestors.map components ↔ _ :=
    mem_map_above (fits_ancestors p) fun _ hp => not_isIdle_of_head?_dropWhile hp
  rw [← components_eq] at hmem
  simp only [same_iff, ← List.mem_map, hmem, isAbove_iff, hq, false_implies, and_true]

/-- The parent has all components but the last. Only the root and the empty path have none. -/
theorem parent_cases (p : Path) :
    (p.parent = none ∧ (p.components = [] ∨ p.components = [.root])) ∨
      ∃ q c, p.parent = some q ∧ c ≠ .root ∧ p.components = q.components ++ [c] := by
  have hfits := fits_ancestors p
  have hall := components_eq p
  have hparent : p.parent = (above p.parts.start (p.parts.pieces.dropWhile isIdle)).head? := rfl
  rw [hparent, hall]
  cases hps : p.parts.pieces.dropWhile isIdle with
  | nil =>
    rw [hps] at hfits
    rw [above, List.reverse_nil]
    generalize p.parts.start = start at hfits
    cases hfits with
    | root => exact .inl ⟨rfl, .inr rfl⟩
    | here => exact .inr ⟨⟨""⟩, .here, rfl, by decide, rfl⟩
    | plain => exact .inl ⟨rfl, .inl rfl⟩
  | cons piece rest =>
    have hidle : isIdle piece = false :=
      not_isIdle_of_head?_dropWhile ((congrArg List.head? hps).trans List.head?_cons)
    have hupper : Fits p.parts.start (rest.dropWhile isIdle) :=
      (hps ▸ hfits).of_suffix ((List.dropWhile_suffix isIdle).trans (List.suffix_cons piece rest))
    refine .inr ⟨spell p.parts.start (rest.dropWhile isIdle), step piece, ?_, step_ne_root piece, ?_⟩
    · rw [above, List.head?_cons]
    · rw [components_spell hupper, List.reverse_cons, steps_append, steps_of_not_idle hidle,
        steps_dropWhile_isIdle, List.append_assoc]

/-- **A path lies one step below another when it has one component more**, which is not the
root. -/
theorem isChild_iff {top p : Path} : Tree.isChild top p = true ↔
    ∃ c, c ≠ .root ∧ p.components = top.components ++ [c] := by
  unfold Tree.isChild
  obtain ⟨hnone, hp⟩ | ⟨q, c, hq, hc, hp⟩ := parent_cases p
  · rw [hnone]
    refine ⟨nofun, ?_⟩
    rintro ⟨c, hc, heq⟩
    rcases hp with hp | hp
    · simp [hp] at heq
    · rw [hp] at heq
      cases htop : top.components with
      | nil =>
        rw [htop] at heq
        exact absurd (List.cons.inj heq).1.symm hc
      | cons first rest =>
        rw [htop] at heq
        have := congrArg List.length heq
        simp at this
  · rw [hq]
    simp only [same_iff]
    constructor
    · intro h
      exact ⟨c, hc, by rw [hp, h]⟩
    · rintro ⟨c', -, heq⟩
      exact (List.append_inj' (hp.symm.trans heq) rfl).1

/-- Only the empty text has no components. -/
theorem components_eq_nil {p : Path} : p.components = [] ↔ p.spelling = "" := by
  constructor
  · intro h
    rw [components_of_parts, parts_eq] at h
    obtain ⟨piece, rest, hp⟩ := List.exists_cons_of_ne_nil p.pieces_ne_nil
    rw [hp] at h
    cases hidle : isIdle piece with
    | false =>
      rw [partsOf_of_not_idle hidle, List.reverse_reverse, ← List.singleton_append, steps_append,
        steps_of_not_idle hidle] at h
      simp at h
    | true =>
      by_cases hrest : rest = []
      · subst hrest
        rcases isIdle_iff.1 hidle with rfl | rfl
        · exact spelling_of_pieces hp
        · cases h
      · rcases isIdle_iff.1 hidle with rfl | rfl
        · rw [partsOf_root hrest] at h
          cases h
        · rw [partsOf_here hrest] at h
          cases h
  · intro h
    rw [components_of_parts, parts_eq, pieces, h]
    rfl

/-! ### A name behind a path -/

/-- A name that stands for one step down. -/
structure Plain (name : String) : Prop where
  ne_empty : name ≠ ""
  ne_here : name ≠ "."
  ne_up : name ≠ ".."
  noSlash : '/' ∉ name.toList

instance (name : String) : Decidable (Plain name) :=
  decidable_of_iff (name ≠ "" ∧ name ≠ "." ∧ name ≠ ".." ∧ '/' ∉ name.toList)
    ⟨fun ⟨h₁, h₂, h₃, h₄⟩ => ⟨h₁, h₂, h₃, h₄⟩, fun h => ⟨h.1, h.2, h.3, h.4⟩⟩

theorem Plain.not_isIdle {name : String} (h : Plain name) : isIdle name.toList = false := by
  rw [Bool.eq_false_iff, ne_eq, isIdle_iff]
  rintro (hempty | hdot)
  · exact h.ne_empty (String.toList_eq_nil_iff.1 hempty)
  · exact h.ne_here (String.toList_injective hdot)

theorem Plain.steps_eq {name : String} (h : Plain name) : steps [name.toList] = [.name name] := by
  have hup : name.toList ≠ ['.', '.'] := fun hup => h.ne_up (String.toList_injective hup)
  rw [steps_of_not_idle h.not_isIdle, step, if_neg hup, String.ofList_toList]

/-- The components of a text with the given pieces. -/
def componentsOf (ps : List (List Char)) : List Component :=
  lead (partsOf ps).start ++ steps (partsOf ps).pieces.reverse

theorem components_eq_componentsOf (p : Path) : p.components = componentsOf p.pieces := by
  rw [components_of_parts, parts_eq, componentsOf]

/-- One more piece stands for what it stands for anywhere, unless it comes behind nothing. -/
theorem componentsOf_append {ps : List (List Char)} (hne : ps ≠ []) (hempty : ps ≠ [[]])
    (piece : List Char) : componentsOf (ps ++ [piece]) = componentsOf ps ++ steps [piece] := by
  obtain ⟨first, rest, rfl⟩ := List.exists_cons_of_ne_nil hne
  have hmore : rest ++ [piece] ≠ [] := List.concat_ne_nil _ _
  unfold componentsOf
  cases hidle : isIdle first with
  | false =>
    rw [List.cons_append, partsOf_of_not_idle hidle, partsOf_of_not_idle hidle,
      List.reverse_reverse, List.reverse_reverse, ← List.cons_append, steps_append]
    rfl
  | true =>
    rcases isIdle_iff.1 hidle with rfl | rfl
    · have hrest : rest ≠ [] := fun h => hempty (h ▸ rfl)
      rw [List.cons_append, partsOf_root hmore, partsOf_root hrest, List.reverse_reverse,
        List.reverse_reverse, steps_append]
      rfl
    · rw [List.cons_append, partsOf_here hmore, List.reverse_reverse, ← List.cons_append,
        steps_append, ← List.append_assoc]
      congr 1
      by_cases hrest : rest = []
      · subst hrest
        rfl
      · rw [partsOf_here hrest, List.reverse_reverse]
        rfl

/-- The pieces of a path with a name behind it. A slash at the end of the path is not doubled. -/
theorem pieces_div {name : String} (h : Plain name) (p : Path) :
    (p.spelling = "" ∧ (p / ⟨name⟩).pieces = [name.toList]) ∨
      (∃ ps, ps ≠ [] ∧ p.pieces = ps ++ [[]] ∧ (p / ⟨name⟩).pieces = ps ++ [name.toList]) ∨
        (p.spelling ≠ "" ∧ (p / ⟨name⟩).pieces = p.pieces ++ [name.toList]) := by
  have hname : Text.pieces (· == '/') name.toList = [name.toList] :=
    Text.pieces_of_not_mem h.noSlash
  have hrelative : (⟨name⟩ : Path).isAbsolute = false := by
    rw [isAbsolute, Bool.eq_false_iff, ne_eq, beq_iff_eq]
    exact fun hslash => h.noSlash (List.mem_of_head? hslash)
  have hslash : ∀ s t, Text.pieces (· == '/') (s ++ '/' :: t) =
      Text.pieces (· == '/') s ++ Text.pieces (· == '/') t :=
    fun s t => Text.pieces_append_sep s t (beq_self_eq_true '/')
  have hjoin : p / ⟨name⟩ = join p ⟨name⟩ := rfl
  rw [hjoin, join, hrelative, if_neg Bool.false_ne_true]
  by_cases hempty : p.spelling = ""
  · refine .inl ⟨hempty, ?_⟩
    rw [hempty, if_pos (by simp), pieces, String.toList_append]
    exact hname
  · by_cases hend : p.spelling.toList.getLast? = some '/'
    · obtain ⟨init, hinit⟩ := List.getLast?_eq_some_iff.1 hend
      refine .inr (.inl ⟨Text.pieces (· == '/') init, Text.pieces_ne_nil _ _, ?_, ?_⟩)
      · rw [pieces, hinit, hslash, Text.pieces_nil]
      · rw [hend, if_pos (by simp), pieces, String.toList_append, hinit, List.append_assoc,
          List.singleton_append, hslash, hname]
    · refine .inr (.inr ⟨hempty, ?_⟩)
      rw [if_neg (by simpa using ⟨hempty, hend⟩), pieces, pieces, String.toList_append,
        String.toList_append, List.append_assoc]
      exact (hslash p.spelling.toList name.toList).trans (congrArg _ hname)

/-- **A name behind a path is one component more**, however the path is spelled. -/
theorem components_div {name : String} (h : Plain name) (p : Path) :
    (p / ⟨name⟩).components = p.components ++ [.name name] := by
  rw [components_eq_componentsOf, components_eq_componentsOf p, ← h.steps_eq]
  obtain ⟨hempty, hp⟩ | ⟨ps, hne, hp, hq⟩ | ⟨hne, hq⟩ := pieces_div h p
  · rw [hp, pieces, hempty, componentsOf, partsOf_of_not_idle h.not_isIdle]
    rfl
  · rw [hp, hq]
    by_cases hroot : ps = [[]]
    · subst hroot
      rw [componentsOf, List.singleton_append, partsOf_root (List.cons_ne_nil _ _)]
      rfl
    · rw [componentsOf_append hne hroot, componentsOf_append hne hroot,
        show steps [[]] = [] from rfl, List.append_nil]
  · rw [hq]
    exact componentsOf_append p.pieces_ne_nil (mt spelling_of_pieces hne) _

theorem Fits.noSlash {start : List Char} {ps : List (List Char)} (h : Fits start ps) :
    ∀ piece ∈ ps, '/' ∉ piece := by
  cases h <;> assumption

/-- Every name among the components of a path stands for one step down. -/
theorem plain_of_mem_components {p : Path} {name : String} (h : .name name ∈ p.components) :
    Plain name := by
  rw [components_of_parts, List.mem_append] at h
  rcases h with h | h
  · unfold lead at h
    split at h
    · simp at h
    · split at h <;> simp at h
  · obtain ⟨piece, hpiece, hstep⟩ := List.mem_map.1 h
    obtain ⟨hpiece, hidle⟩ := List.mem_filter.1 hpiece
    have hslash := (fits_parts p).noSlash piece (List.mem_reverse.1 hpiece)
    rw [Bool.not_eq_true', Bool.eq_false_iff, ne_eq, isIdle_iff, not_or] at hidle
    unfold step at hstep
    split at hstep
    · cases hstep
    · next hup =>
      obtain rfl := Component.name.inj hstep
      have htext : (String.ofList piece).toList = piece := String.toList_ofList
      exact ⟨fun h => hidle.1 (by rw [← htext, h]; rfl), fun h => hidle.2 (by rw [← htext, h]; rfl),
        fun h => hup (by rw [← htext, h]; rfl), htext.symm ▸ hslash⟩

/-- So is the name that a path ends in. -/
theorem plain_of_fileName {p : Path} {name : String} (h : p.fileName = some name) : Plain name := by
  unfold fileName at h
  split at h
  · next text hlast =>
    obtain rfl := Option.some.inj h
    exact plain_of_mem_components (List.mem_of_getLast? hlast)
  · cases h

end HostInventory.FileTree.Path
