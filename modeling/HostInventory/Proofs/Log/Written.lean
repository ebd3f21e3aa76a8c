import HostInventory.Log.Directive
import HostInventory.Proofs.Text.Words

/-! Directives as they are written.

A name of a part holds letters, digits, underscores and colons only
(`isNameChar_of_isModulePath`), and so neither a comma nor an equals sign. So the text that
directives are joined to comes apart at its commas into one piece for each of them
(`pieces_filterText`), and the piece of a part at its equals sign (`splitFirst_text`). -/
namespace HostInventory.Log

/-! ### Names and thresholds -/

/-- Characters of names of parts. -/
def isNameChar (c : Char) : Bool :=
  c = ':' || isSegmentChar c

theorem mem_segments {c : Char} {s : List Char} (h : c ∈ s) :
    c = ':' ∨ ∃ segment ∈ segments s, c ∈ segment := by
  induction s using segments.induct with
  | case1 rest ih =>
    simp only [List.mem_cons] at h
    rcases h with h | h | h
    · exact .inl h
    · exact .inl h
    · exact (ih h).imp_right fun ⟨segment, hs, hc⟩ => ⟨segment, List.mem_cons_of_mem _ hs, hc⟩
  | case2 d rest hd hnil ih =>
    rw [segments.eq_2 _ _ hd, hnil]
    rcases List.mem_cons.1 h with rfl | h
    · exact .inr ⟨_, List.mem_singleton_self _, List.mem_singleton_self _⟩
    · rw [hnil] at ih
      exact (ih h).imp_right fun ⟨_, hs, _⟩ => absurd hs List.not_mem_nil
  | case3 d rest hd first others hcons ih =>
    rw [segments.eq_2 _ _ hd, hcons]
    rcases List.mem_cons.1 h with rfl | h
    · exact .inr ⟨_, List.mem_cons_self, List.mem_cons_self⟩
    · rw [hcons] at ih
      refine (ih h).imp_right fun ⟨segment, hs, hc⟩ => ?_
      rcases List.mem_cons.1 hs with rfl | hs
      · exact ⟨_, List.mem_cons_self, List.mem_cons_of_mem _ hc⟩
      · exact ⟨segment, List.mem_cons_of_mem _ hs, hc⟩
  | case4 => exact absurd h List.not_mem_nil

theorem isNameChar_of_isModulePath {name : String} (h : isModulePath name = true) {c : Char}
    (hc : c ∈ name.toList) : isNameChar c = true := by
  simp only [isNameChar, Bool.or_eq_true, decide_eq_true_eq]
  refine (mem_segments hc).imp_right fun ⟨segment, hs, hc⟩ => ?_
  have hsegment := List.all_eq_true.1 h segment hs
  simp only [Bool.and_eq_true] at hsegment
  exact List.all_eq_true.1 hsegment.2 c hc

theorem isNameChar_of_mem_name {l : Severity} {c : Char} (h : c ∈ l.name.toList) :
    isNameChar c = true := by
  have hall : l.name.toList.all isNameChar = true := by cases l <;> rfl
  exact List.all_eq_true.1 hall c h

/-! ### One directive -/

theorem Directive.text_toList_of_part (name : String) (l : Severity) :
    (⟨some name, l⟩ : Directive).text.toList = name.toList ++ '=' :: l.name.toList := by
  simp [Directive.text, toString]

/-- What a directive is written with: characters of names, and an equals sign. -/
theorem Directive.mem_text {d : Directive} (h : ∀ name ∈ d.part, isModulePath name = true)
    {c : Char} (hc : c ∈ d.text.toList) : c = '=' ∨ isNameChar c = true := by
  obtain ⟨part, l⟩ := d
  cases part with
  | none => exact .inr (isNameChar_of_mem_name hc)
  | some name =>
    rw [text_toList_of_part, List.mem_append, List.mem_cons] at hc
    rcases hc with hc | hc | hc
    · exact .inr (isNameChar_of_isModulePath (h name rfl) hc)
    · exact .inl hc
    · exact .inr (isNameChar_of_mem_name hc)

theorem splitFirst_text {name : String} (h : isModulePath name = true) (l : Severity) :
    Text.splitFirst '=' (⟨some name, l⟩ : Directive).text.toList =
      some (name.toList, l.name.toList) := by
  rw [Directive.text_toList_of_part]
  exact Text.splitFirst_append
    (fun hc => absurd (isNameChar_of_isModulePath h hc) (by decide)) l.name.toList

/-! ### All of them -/

theorem toList_intercalate (c : Char) (texts : List String) :
    ((String.singleton c).intercalate texts).toList = Text.joinWith c (texts.map String.toList) := by
  induction texts with
  | nil => rfl
  | cons t rest ih =>
    cases rest with
    | nil => rw [String.intercalate_singleton]; rfl
    | cons next rest =>
      rw [String.intercalate_cons_cons, String.toList_append, String.toList_append, ih,
        String.toList_singleton, List.append_assoc, List.singleton_append]
      rfl

/-- The commas of a text of directives are those between them. -/
theorem pieces_filterText {ds : List Directive} (hne : ds ≠ [])
    (h : ∀ d ∈ ds, ∀ name ∈ d.part, isModulePath name = true) :
    Text.pieces (· == ',') (filterText ds none).toList = ds.map fun d => d.text.toList := by
  have hjoined : (filterText ds none).toList =
      Text.joinWith ',' (ds.map fun d => d.text.toList) := by
    rw [filterText, Option.map_none, Option.getD_none, List.append_nil]
    exact (toList_intercalate ',' _).trans (congrArg _ (List.map_map))
  have hcomma : ∀ piece ∈ ds.map fun d => d.text.toList, ',' ∉ piece := by
    simp only [List.forall_mem_map]
    intro d hd hc
    exact absurd (Directive.mem_text (h d hd) hc) (by decide)
  rw [hjoined, Text.pieces_joinWith (mt List.map_eq_nil_iff.1 hne) hcomma]

end HostInventory.Log
