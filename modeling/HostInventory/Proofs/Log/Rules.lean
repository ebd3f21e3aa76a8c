import HostInventory.Log.Filter
import HostInventory.Proofs.Log.Thresholds
import HostInventory.Proofs.Log.Written

/-! Directives read back as rules.

The characters of a name are none of the marks that the program's filter takes a rule apart
at, but for the equals sign behind the name. So the text that directives are joined to is read
as one rule for each of them, with its name and its threshold and nothing else
(`readFilter_of_directives`). -/
namespace HostInventory.Log

/-- The rule that a directive is read as. -/
def Directive.rule (d : Directive) : Rule :=
  { target := d.part, level := d.level }

/-! ### Names and thresholds as texts -/

theorem startsRule_of_isNameChar {c : Char} (h : isNameChar c = true) : startsRule c = true := by
  simp only [isNameChar, isSegmentChar, Bool.or_eq_true, decide_eq_true_eq] at h
  rcases h with rfl | h | rfl
  · rfl
  · exact Bool.or_eq_true _ _ ▸ .inr (Text.isLetterOrNumber_of_isAlphanum h)
  · rfl

theorem isBlank_of_isNameChar {c : Char} (h : isNameChar c = true) : Text.isBlank c = false := by
  simp only [isNameChar, isSegmentChar, Bool.or_eq_true, decide_eq_true_eq] at h
  rcases h with rfl | h | rfl
  · rfl
  · exact Text.isBlank_of_isAlphanum h
  · rfl

theorem readRuleLevel_name (l : Severity) : readRuleLevel l.name.toList = some l := by
  cases l <;> decide

/-! ### One directive -/

theorem takeWhile_name {s rest : List Char} (h : ∀ c ∈ s, isNameChar c = true) :
    (s ++ '=' :: rest).takeWhile (fun c => c != '=' && c != '[') = s := by
  rw [List.takeWhile_append_of_pos, List.takeWhile_cons_of_neg (by decide), List.append_nil]
  intro c hc
  have hname := h c hc
  simp only [Bool.and_eq_true, bne_iff_ne]
  exact ⟨fun he => absurd (he ▸ hname) (by decide), fun he => absurd (he ▸ hname) (by decide)⟩

/-- A rule of a name and a threshold. -/
theorem readNamed_of_part {name : String} (h : isModulePath name = true) (l : Severity)
    {s : List Char} (hs : s = name.toList ++ '=' :: l.name.toList) :
    readNamed s s = .ok { target := some name, level := l } := by
  have hname : s.takeWhile (fun c => c != '=' && c != '[') = name.toList :=
    hs ▸ takeWhile_name fun c hc => isNameChar_of_isModulePath h hc
  -- Both pieces are cut out by positions in bytes, and their ends lie between characters.
  have hcut : cutOut s 0 (Text.byteLength name.toList) = .ok name.toList := by
    have hpart := Text.part_byteLength [] name.toList ('=' :: l.name.toList)
    rw [List.nil_append, ← hs] at hpart
    exact congrArg (Except.mapError _) hpart
  have hlevel : Text.partFrom s (Text.byteLength name.toList + 1) = .ok l.name.toList := by
    have hrest := Text.partFrom_byteLength (name.toList ++ ['=']) l.name.toList
    rwa [List.append_assoc, List.singleton_append, ← hs, Text.byteLength_append] at hrest
  have hdrop : s.drop name.toList.length = '=' :: l.name.toList := hs ▸ List.drop_left
  simp only [readNamed, hname, hdrop, hcut, readLevelFrom, hlevel, if_true]
  simp [bind, Except.bind, Except.mapError, readRuleLevel_name, orBadFilter, pure, Except.pure]

/-- A threshold alone. -/
theorem readNamed_of_level (l : Severity) :
    readNamed l.name.toList l.name.toList = .ok { level := l } := by
  cases l <;> rfl

/-- A text of characters of names and equals signs that does not begin with an equals sign is a
rule that begins with a word. -/
theorem readRule_eq_readNamed {c : Char} {rest : List Char} (hc : isNameChar c = true)
    (hrest : ∀ d ∈ c :: rest, d = '=' ∨ isNameChar d = true) :
    readRule (c :: rest) = readNamed (c :: rest) (c :: rest) := by
  have htrim : Text.trim (c :: rest) = c :: rest := Text.trim_of_forall_not fun d hd =>
    (hrest d hd).elim (fun he => he ▸ rfl) isBlank_of_isNameChar
  have hbracket : c ≠ '[' := fun he => absurd (he ▸ hc) (by decide)
  rw [readRule, htrim]
  split
  · next he => cases he
  · next he => exact absurd (List.cons.inj he).1 hbracket
  · next he =>
    cases he
    exact if_pos (startsRule_of_isNameChar hc)

theorem readRule_text {d : Directive} (h : ∀ name ∈ d.part, isModulePath name = true) :
    readRule d.text.toList = .ok d.rule := by
  have hmem := fun c => Directive.mem_text (c := c) h
  obtain ⟨part, l⟩ := d
  cases part with
  | none =>
    have hread := readNamed_of_level l
    cases l <;> exact (readRule_eq_readNamed rfl hmem).trans hread
  | some name =>
    have hname := h name rfl
    have hread := readNamed_of_part hname l (Directive.text_toList_of_part name l)
    have hpos := length_pos_of_isModulePath hname
    rw [← String.length_toList] at hpos
    obtain ⟨c, rest, hc⟩ := List.exists_cons_of_length_pos hpos
    have htext : (⟨some name, l⟩ : Directive).text.toList = c :: (rest ++ '=' :: l.name.toList) := by
      rw [Directive.text_toList_of_part, hc, List.cons_append]
    rw [htext] at hread hmem ⊢
    have hfirst := isNameChar_of_isModulePath hname (hc ▸ List.mem_cons_self)
    exact (readRule_eq_readNamed hfirst hmem).trans hread

/-! ### All of them -/

/-- **Directives are read back one by one.** -/
theorem readFilter_of_directives {ds : List Directive} (hne : ds ≠ [])
    (h : ∀ d ∈ ds, ∀ name ∈ d.part, isModulePath name = true) :
    readFilter (filterText ds none) = .ok (ds.map Directive.rule) := by
  rw [readFilter, pieces_filterText hne h, List.mapM_map]
  exact Text.mapM_of_ok fun d hd => readRule_text (h d hd)

end HostInventory.Log
