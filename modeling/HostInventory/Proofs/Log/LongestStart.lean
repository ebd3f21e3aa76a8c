import HostInventory.Proofs.Log.Rules
import Mathlib.Data.List.Nodup

/-! Filters that compare characters, as a parameter.

A filter knows nothing of the colons between a part and what is below it: a directive is about
every event whose source begins with the characters of its name (`Starts`), and of the directives
about an event the one with the longest name judges it. Nothing else is asked of a way to filter
(`Filtering.ByLongestStart`). The program's own is one: directives are read back as rules, and of
those the weightiest decides, which is the one with the longest name
(`filtering_byLongestStart`). -/
namespace HostInventory.Log

/-- The place begins with the characters of the name. -/
def Starts (name place : String) : Prop :=
  name.toList <+: place.toList

instance : DecidableRel Starts := fun name place =>
  inferInstanceAs (Decidable (name.toList <+: place.toList))

theorem Covers.starts {name place : String} (h : Covers name place) : Starts name place := by
  rcases h with rfl | h
  · exact List.prefix_refl _
  · exact (List.prefix_append _ _).trans h

/-- A text of directives with names, of which no two are about the same, is read as a filter; and
an event passes it if it reaches the threshold of the directive with the longest name that its
source begins with, or of the one for everything. -/
def Filtering.ByLongestStart {F : Type} (how : Filtering F) : Prop :=
  ∀ ds : List Directive, ds ≠ [] →
    (∀ d ∈ ds, ∀ name ∈ d.part, isModulePath name = true) → (ds.map Directive.part).Nodup →
    ∃ f, how.read (filterText ds none) = .ok f ∧ ∀ e,
      how.passes f e = true ↔ ∃ d ∈ deciding Starts ds e.source, d.level ≤ e.severity

/-! ### Names that one place begins with -/

section Names
variable {a b place : String}

theorem Starts.prefix_of_length_le (ha : Starts a place) (hb : Starts b place)
    (h : a.length ≤ b.length) : a.toList <+: b.toList :=
  List.prefix_of_prefix_length_le ha hb (by simpa only [String.length_toList] using h)

theorem Starts.eq_of_length (ha : Starts a place) (hb : Starts b place)
    (h : a.length = b.length) : a = b :=
  String.toList_inj.1 <| (ha.prefix_of_length_le hb h.le).eq_of_length <| by
    simpa only [String.length_toList] using h

theorem Starts.utf8ByteSize_lt (ha : Starts a place) (hb : Starts b place)
    (h : a.length < b.length) : a.utf8ByteSize < b.utf8ByteSize := by
  obtain ⟨rest, hrest⟩ := ha.prefix_of_length_le hb h.le
  have hb' : b = a ++ String.ofList rest := String.toList_inj.1 <| by
    rw [String.toList_append, String.toList_ofList, hrest]
  have hne : String.ofList rest ≠ "" := by
    rintro he
    rw [hb', he, String.append_empty] at h
    exact absurd h (Nat.lt_irrefl _)
  rw [hb', String.utf8ByteSize_append]
  exact Nat.lt_add_of_pos_right (Nat.pos_of_ne_zero (mt String.utf8ByteSize_eq_zero_iff.1 hne))

end Names

/-! ### The rule that decides -/

/-- The better one of the best rule so far and a later one. -/
def Rule.keep (best : Option Rule) (r : Rule) : Option Rule :=
  match best with
  | none => some r
  | some b => if b.yieldsTo r then some r else some b

theorem Rule.mem_of_foldl_keep {rules : List Rule} {b : Rule}
    (h : rules.foldl keep none = some b) : b ∈ rules := by
  induction rules using List.reverseRecOn generalizing b with
  | nil => cases h
  | append_singleton front r ih =>
    rw [List.foldl_append, List.foldl_cons, List.foldl_nil] at h
    rw [List.mem_append, List.mem_singleton]
    revert h
    cases hfront : front.foldl keep none with
    | none => exact fun h => .inr (Option.some.inj h).symm
    | some best =>
      intro h
      simp only [keep] at h
      split at h
      · exact .inr (Option.some.inj h).symm
      · exact .inl (Option.some.inj h ▸ ih hfront)

theorem Rule.foldl_keep_of_forall {r : Rule} {rules : List Rule}
    (h : ∀ r' ∈ rules, r' = r ∨ r.yieldsTo r' = false) : rules.foldl keep (some r) = some r := by
  induction rules with
  | nil => rfl
  | cons r' rest ih =>
    obtain ⟨hr', hrest⟩ := List.forall_mem_cons.1 h
    have hkeep : keep (some r) r' = some r := by
      rcases hr' with rfl | hr'
      · exact ite_self _
      · exact if_neg (Bool.eq_false_iff.1 hr')
    rw [List.foldl_cons, hkeep, ih hrest]

/-- A rule about the event to which every other one gives way, and which gives way to none,
decides on it, wherever it stands. -/
theorem Filter.ruleFor_eq_some {f : Filter} {e : Event} {r : Rule} (hr : r ∈ f)
    (hjudges : r.judges e = true)
    (hbest : ∀ r' ∈ f, r'.judges e = true →
      r' = r ∨ r'.yieldsTo r = true ∧ r.yieldsTo r' = false) : f.ruleFor e = some r := by
  have hmem : r ∈ f.filter fun r => r.judges e := List.mem_filter.2 ⟨hr, hjudges⟩
  obtain ⟨front, back, hsplit⟩ := List.append_of_mem hmem
  have hall : ∀ r' ∈ front ++ r :: back,
      r' = r ∨ r'.yieldsTo r = true ∧ r.yieldsTo r' = false := fun r' hr' =>
    have ⟨hmem, hjudges⟩ := List.mem_filter.1 (hsplit ▸ hr')
    hbest r' hmem hjudges
  -- Whichever rule of the front is kept so far gives way to `r`, and no later one displaces it.
  have hhere : Rule.keep (front.foldl Rule.keep none) r = some r := by
    cases hfront : front.foldl Rule.keep none with
    | none => rfl
    | some b =>
      rcases hall b (List.mem_append_left _ (Rule.mem_of_foldl_keep hfront)) with rfl | hb
      · exact ite_self _
      · exact if_pos hb.1
  change (f.filter fun r => r.judges e).foldl Rule.keep none = some r
  rw [hsplit, List.foldl_append, List.foldl_cons, hhere]
  exact Rule.foldl_keep_of_forall fun r' hr' =>
    (hall r' (List.mem_append_right _ (List.mem_cons_of_mem _ hr'))).imp_right And.right

/-! ### The rules of directives -/

namespace Directive

/-- How long a directive's name is in bytes, one more than that if it has one. -/
def size (d : Directive) : Nat :=
  match d.part with
  | none => 0
  | some name => 1 + name.utf8ByteSize

theorem yieldsTo_rule_iff {d d' : Directive} :
    d.rule.yieldsTo d'.rule = true ↔ d.size ≤ d'.size := by
  obtain ⟨part, l⟩ := d
  obtain ⟨part', l'⟩ := d'
  cases part <;> cases part' <;>
    simp [Rule.yieldsTo, Rule.weight, Rule.fieldNames, rule, size]
  case some.some =>
    exact (or_congr decide_eq_true_iff decide_eq_true_iff).trans Nat.le_iff_lt_or_eq.symm

theorem judges_rule_iff {d : Directive} {e : Event} :
    d.rule.judges e = true ↔ ∀ name ∈ d.part, Starts name e.source := by
  obtain ⟨part, l⟩ := d
  cases part <;> simp [Rule.judges, Rule.isStatic, rule, Starts]

/-- Of two directives about one place the one with the longer name is the weightier one. -/
theorem part_eq_or_size_lt {d d' : Directive} {place : String}
    (hname : ∀ name ∈ d'.part, isModulePath name = true)
    (h : ∀ name ∈ d.part, Starts name place) (h' : ∀ name ∈ d'.part, Starts name place)
    (hle : (d'.part.getD "").length ≤ (d.part.getD "").length) :
    d'.part = d.part ∨ d'.size < d.size := by
  obtain ⟨part, l⟩ := d
  obtain ⟨part', l'⟩ := d'
  cases part' with
  | none =>
    cases part with
    | none => exact .inl rfl
    | some name => exact .inr (Nat.lt_add_right _ Nat.one_pos)
  | some name' =>
    cases part with
    | none =>
      exact absurd hle (Nat.not_le_of_lt (length_pos_of_isModulePath (hname name' rfl)))
    | some name =>
      have hstarts := h name rfl
      have hstarts' := h' name' rfl
      rcases Nat.lt_or_eq_of_le hle with hlt | heq
      · exact .inr (Nat.add_lt_add_left (hstarts'.utf8ByteSize_lt hstarts hlt) 1)
      · exact .inl (congrArg some (hstarts'.eq_of_length hstarts heq))

end Directive

/-- The rule that decides on an event is that of the directive with the longest name that the
event's source begins with. -/
theorem ruleFor_of_directives {ds : List Directive}
    (hn : ∀ d ∈ ds, ∀ name ∈ d.part, isModulePath name = true)
    (hd : (ds.map Directive.part).Nodup) (e : Event) :
    Filter.ruleFor (ds.map Directive.rule) e =
      (deciding Starts ds e.source).map Directive.rule := by
  have habout : ∀ d : Directive, (d.part.all fun name => Starts name e.source) = true ↔
      ∀ name ∈ d.part, Starts name e.source := by
    simp [Option.all_eq_true]
  have hjudges : ∀ d : Directive,
      d.rule.judges e = d.part.all fun name => Starts name e.source := fun d =>
    Bool.eq_iff_iff.2 (Directive.judges_rule_iff.trans (habout d).symm)
  cases hc : deciding Starts ds e.source with
  | none =>
    have hnone : (ds.filter fun d => d.part.all fun name => Starts name e.source) = [] :=
      List.argmax_eq_none.1 hc
    have hfilter : (ds.map Directive.rule).filter (fun r => r.judges e) = [] := by
      rw [List.filter_map, show (fun r : Rule => r.judges e) ∘ Directive.rule = _ from
        funext hjudges, hnone]
      rfl
    rw [Filter.ruleFor, hfilter]
    rfl
  | some d =>
    obtain ⟨hmem, hstarts⟩ := List.mem_filter.1 (List.argmax_mem hc)
    refine Filter.ruleFor_eq_some (List.mem_map_of_mem hmem) ((hjudges d).trans hstarts)
      fun r hr hr' => ?_
    obtain ⟨d', hmem', rfl⟩ := List.mem_map.1 hr
    rw [hjudges] at hr'
    have hle : (d'.part.getD "").length ≤ (d.part.getD "").length :=
      List.le_of_mem_argmax (f := fun d : Directive => (d.part.getD "").length)
        (List.mem_filter.2 ⟨hmem', hr'⟩) hc
    rcases Directive.part_eq_or_size_lt (hn d' hmem') ((habout d).1 hstarts) ((habout d').1 hr')
      hle with hpart | hsize
    · exact .inl (congrArg _ (List.inj_on_of_nodup_map hd hmem' hmem hpart))
    · exact .inr ⟨Directive.yieldsTo_rule_iff.2 hsize.le,
        Bool.eq_false_iff.2 (mt Directive.yieldsTo_rule_iff.1 (Nat.not_le_of_lt hsize))⟩

/-- The program filters by the longest start. -/
theorem filtering_byLongestStart : filtering.ByLongestStart := by
  intro ds hne hn hd
  refine ⟨_, readFilter_of_directives hne hn, fun e => ?_⟩
  show Filter.passes _ e = true ↔ _
  rw [Filter.passes, ruleFor_of_directives hn hd]
  cases deciding Starts ds e.source <;> simp [Directive.rule]

end HostInventory.Log
