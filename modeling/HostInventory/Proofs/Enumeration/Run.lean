import HostInventory.Proofs.Enumeration.Operation
import Mathlib.Data.List.Dedup

/-! Runs of operations.

A run is any operations in any order, each with the kind as it is then; it ends early only
in a fault. Its history says which instances were accepted and which released. By induction
over the run, with `transition_of_apply` as its one step, an enumeration stays well formed,
and its identities stand in the order of their last acceptance in the history
(`lookup_and_order_of_run`). -/
namespace HostInventory.Enumeration

variable {Env Cache Data : Type}

/-- What has become of an instance. -/
inductive Event
  | accepted (a : Handle)
  | released (a : Handle)
deriving DecidableEq, Repr

namespace Event

def subject : Event → Subject
  | .accepted a => a.subject
  | .released a => a.subject

/-- The identity under which an instance was inserted. -/
def inserted? : Event → Option Identity
  | .accepted a => a.subject.identity?
  | .released _ => none

def accepted? : Event → Option Handle
  | .accepted a => some a
  | .released _ => none

def released? : Event → Option Handle
  | .accepted _ => none
  | .released a => some a

end Event

/-- The events of one operation: it releases before it accepts. -/
def events (released taken : List Handle) : List Event :=
  released.map Event.released ++ taken.map Event.accepted

/-- The identities that were inserted, in order. -/
def inserted (history : List Event) : List Identity :=
  history.filterMap Event.inserted?

/-- Does one operation after another, and answers with the history. -/
def run (e : Enumeration Cache Data) :
    List (Step Env Cache Data) → Outcome (List Event × Enumeration Cache Data)
  | [] => pure ([], e)
  | step :: rest => do
    let (taken, m) ← e.apply step
    let (history, e') ← run m rest
    return (events (e.apply step).releases taken ++ history, e')

theorem inserted_events (released taken : List Handle) :
    inserted (events released taken) = (subjectsOf taken).filterMap Subject.identity? := by
  have hnone : (released.map Event.released).filterMap Event.inserted? = [] := by
    simp [Event.inserted?]
  rw [inserted, events, List.filterMap_append, hnone, List.filterMap_map, List.nil_append,
    subjectsOf, List.filterMap_map]
  rfl

theorem inserted_append (a b : List Event) : inserted (a ++ b) = inserted a ++ inserted b :=
  List.filterMap_append

/-! ### Taking runs apart -/

theorem run_cons_of_ok {e m e' : Enumeration Cache Data} {step : Step Env Cache Data}
    {rest : List (Step Env Cache Data)} {taken : List Handle} {history : List Event}
    (hm : (e.apply step).value = .ok (taken, m)) (hv : (run m rest).value = .ok (history, e')) :
    (run e (step :: rest)).value = .ok (events (e.apply step).releases taken ++ history, e') ∧
      (run e (step :: rest)).calls = (e.apply step).calls ++ (run m rest).calls := by
  simp only [run, Outcome.value_bind_of_ok hm, Outcome.calls_bind_of_ok hm,
    Outcome.value_bind_of_ok hv, Outcome.calls_bind_of_ok hv, Outcome.value_pure,
    Outcome.calls_pure, List.append_nil, and_self]

theorem run_cons_cases {e e' : Enumeration Cache Data} {step : Step Env Cache Data}
    {rest : List (Step Env Cache Data)} {history : List Event}
    (hv : (run e (step :: rest)).value = .ok (history, e')) :
    ∃ taken m history', (e.apply step).value = .ok (taken, m) ∧
      (run m rest).value = .ok (history', e') ∧
      history = events (e.apply step).releases taken ++ history' := by
  unfold run at hv
  obtain ⟨⟨taken, m⟩, hm, hv⟩ := Outcome.value_bind_eq_ok.1 hv
  obtain ⟨⟨history', e''⟩, hr, hv⟩ := Outcome.value_bind_eq_ok.1 hv
  obtain ⟨rfl, rfl⟩ := Prod.mk.inj (Except.ok.inj hv)
  exact ⟨taken, m, history', hm, hr, rfl⟩

/-- A run may be interrupted anywhere. -/
theorem run_append_bind (e : Enumeration Cache Data) (before after : List (Step Env Cache Data)) :
    run e (before ++ after) = (do
      let (history, m) ← run e before
      let (history', e') ← run m after
      return (history ++ history', e')) := by
  induction before generalizing e with
  | nil => simp [run]
  | cons step rest ih => simp only [List.cons_append, run, ih, bind_assoc, pure_bind, List.append_assoc]

/-- One run after another is a run. -/
theorem run_append {e m e' : Enumeration Cache Data} {before after : List (Step Env Cache Data)}
    {history history' : List Event} (hb : (run e before).value = .ok (history, m))
    (ha : (run m after).value = .ok (history', e')) :
    (run e (before ++ after)).value = .ok (history ++ history', e') ∧
      (run e (before ++ after)).calls = (run e before).calls ++ (run m after).calls := by
  simp only [run_append_bind, Outcome.value_bind_of_ok hb, Outcome.calls_bind_of_ok hb,
    Outcome.value_bind_of_ok ha, Outcome.calls_answer, Outcome.value_pure, and_self]

/-- One more operation. -/
theorem run_concat {e m e' : Enumeration Cache Data} {steps : List (Step Env Cache Data)}
    {history : List Event} (hb : (run e steps).value = .ok (history, m))
    {step : Step Env Cache Data} {taken : List Handle}
    (hm : (m.apply step).value = .ok (taken, e')) :
    ∃ history', (run e (steps ++ [step])).value = .ok (history', e') := by
  have hnil : (run e' ([] : List (Step Env Cache Data))).value = .ok ([], e') := rfl
  exact ⟨_, (run_append hb (run_cons_of_ok hm hnil).1).1⟩

/-- An operation that takes in nothing, lets go of nothing and leaves the enumeration as it was
might as well not have been done. -/
theorem run_skip {start e : Enumeration Cache Data} {before : List (Step Env Cache Data)}
    {history : List Event} (hb : (run start before).value = .ok (history, e))
    {step : Step Env Cache Data} (hs : (e.apply step).value = .ok ([], e))
    (hr : (e.apply step).releases = []) (after : List (Step Env Cache Data)) :
    (run start (before ++ step :: after)).value = (run start (before ++ after)).value ∧
      (run start (before ++ step :: after)).calls =
        (run start before).calls ++ ((e.apply step).calls ++ (run e after).calls) ∧
      (run start (before ++ after)).calls = (run start before).calls ++ (run e after).calls := by
  have hsame : (do let (history', e') ← run e after; return ([] ++ history', e')) = run e after :=
    bind_pure _
  have hstep : run e (step :: after) = e.apply step >>= fun _ => run e after := by
    rw [run, Outcome.bind_of_ok hs, Outcome.bind_of_ok hs, hr]
    simp only [events, List.map_nil, List.append_nil, hsame]
  have hvalue : (run e (step :: after)).value = (run e after).value := by
    rw [hstep, Outcome.value_bind_of_ok hs]
  have hcalls : (run e (step :: after)).calls = (e.apply step).calls ++ (run e after).calls := by
    rw [hstep, Outcome.calls_bind_of_ok hs]
  refine ⟨?_, ?_, ?_⟩
  · rw [run_append_bind, run_append_bind, Outcome.value_bind_of_ok hb, Outcome.value_bind_of_ok hb]
    exact Outcome.value_bind_congr hvalue _
  · rw [run_append_bind, Outcome.calls_bind_of_ok hb, ← hcalls]
    exact congrArg _ (Outcome.calls_answer _ _)
  · rw [run_append_bind, Outcome.calls_bind_of_ok hb]
    exact congrArg _ (Outcome.calls_answer _ _)

theorem WellFormed.run {e e' : Enumeration Cache Data} (h : e.WellFormed)
    {steps : List (Step Env Cache Data)} {history : List Event}
    (hv : (e.run steps).value = .ok (history, e')) : e'.WellFormed := by
  induction steps generalizing e history with
  | nil =>
    obtain ⟨rfl, rfl⟩ := Prod.mk.inj (Except.ok.inj hv)
    exact h
  | cons step rest ih =>
    obtain ⟨taken, m, history', hm, hr, -⟩ := run_cons_cases hv
    exact ih (transition_of_apply h hm).wellFormed hr

/-! ### The order of identities -/

/-- Only the last occurrence of an identity counts, so those at the end stay as they are. -/
theorem dedup_append_of_nodup (l : List Identity) {t : List Identity} (ht : t.Nodup) :
    (l ++ t).dedup = l.dedup.filter (fun id => id ∉ t) ++ t := by
  induction l with
  | nil => simpa using ht.dedup
  | cons a rest ih =>
    rw [List.cons_append]
    by_cases hrest : a ∈ rest
    · rw [List.dedup_cons_of_mem (List.mem_append_left _ hrest), List.dedup_cons_of_mem hrest, ih]
    · rw [List.dedup_cons_of_notMem hrest]
      by_cases hat : a ∈ t
      · rw [List.dedup_cons_of_mem (List.mem_append_right _ hat), ih,
          List.filter_cons_of_neg (by simpa using hat)]
      · have hboth : a ∉ rest ++ t := by simp [hrest, hat]
        rw [List.dedup_cons_of_notMem hboth, ih, List.filter_cons_of_pos (by simpa using hat),
          List.cons_append]

theorem sublist_dedup_append {l log t : List Identity} (h : l.Sublist log.dedup)
    (hnd : (l ++ t).Nodup) : (l ++ t).Sublist (log ++ t).dedup := by
  obtain ⟨-, ht, hdisj⟩ := List.nodup_append.1 hnd
  have hl : l.filter (fun id => id ∉ t) = l := by
    rw [List.filter_eq_self]
    intro id hid
    exact decide_eq_true fun hin => hdisj id hid id hin rfl
  rw [dedup_append_of_nodup log ht]
  have hsub := h.filter fun id => id ∉ t
  rw [hl] at hsub
  exact hsub.append_right t

/-- After a run the identities stand in the order of their last insertion. -/
theorem ids_sublist_of_run {e e' : Enumeration Cache Data} (h : e.WellFormed)
    {steps : List (Step Env Cache Data)} {history : List Event}
    (hv : (e.run steps).value = .ok (history, e')) {log : List Identity}
    (hlog : e.ids.Sublist log.dedup) : e'.ids.Sublist (log ++ inserted history).dedup := by
  induction steps generalizing e history log with
  | nil =>
    obtain ⟨rfl, rfl⟩ := Prod.mk.inj (Except.ok.inj hv)
    simpa [inserted] using hlog
  | cons step rest ih =>
    obtain ⟨taken, m, history', hm, hr, rfl⟩ := run_cons_cases hv
    have ht := transition_of_apply h hm
    have hstep : m.ids.Sublist
        (log ++ (subjectsOf taken).filterMap Subject.identity?).dedup := by
      have hnd := ht.wellFormed.distinct
      rw [ht.ids_eq] at hnd ⊢
      exact sublist_dedup_append (List.filter_sublist.trans hlog) hnd
    have hrest := ih ht.wellFormed hr hstep
    rwa [inserted_append, inserted_events, ← List.append_assoc]

/-- An operation keeps the order of the identities that are there before and after it. -/
theorem Transition.filter_ids {e m : Enumeration Cache Data} (h : e.WellFormed)
    {released taken : List Handle} (ht : Transition e m released taken) {S : List Identity}
    (hb : ∀ id ∈ S, id ∈ e.ids) (ha : ∀ id ∈ S, id ∈ m.ids) :
    m.ids.filter (fun id => id ∈ S) = e.ids.filter fun id => id ∈ S := by
  have hnew : ∀ id ∈ S, id ∉ (subjectsOf taken).filterMap Subject.identity? := by
    intro id hid hin
    obtain ⟨s, hs, hsid⟩ := List.mem_filterMap.1 hin
    cases s with
    | whole => cases hsid
    | named id' =>
      obtain rfl : id' = id := Option.some.inj hsid
      exact nomatch (ht.free _ hs (h.named_mem_subjects.2 (hb id' hid))).1
  have hleft : ∀ id ∈ S, Subject.named id ∉ subjectsOf released := by
    intro id hid
    have hm := ha id hid
    rw [ht.ids_eq] at hm
    rcases List.mem_append.1 hm with hm | hm
    · exact of_decide_eq_true (List.mem_filter.1 hm).2
    · exact absurd hm (hnew id hid)
  have hnone : ((subjectsOf taken).filterMap Subject.identity?).filter
      (fun id => decide (id ∈ S)) = [] := by
    rw [List.filter_eq_nil_iff]
    intro id hid hS
    exact hnew id (of_decide_eq_true hS) hid
  rw [ht.ids_eq, List.filter_append, hnone, List.append_nil, List.filter_filter]
  apply List.filter_congr
  intro id _
  by_cases hS : id ∈ S
  · simp [hS, hleft id hS]
  · simp [hS]

/-- The identities in `S` are there at every point of a run. -/
def HeldThroughout (e : Enumeration Cache Data) (steps : List (Step Env Cache Data))
    (S : List Identity) : Prop :=
  ∀ before, before <+: steps → ∀ history m, (e.run before).value = .ok (history, m) →
    ∀ id ∈ S, id ∈ m.ids

/-- Identities that are held throughout a run keep their order. -/
theorem filter_ids_of_run {e e' : Enumeration Cache Data} (h : e.WellFormed)
    {steps : List (Step Env Cache Data)} {history : List Event}
    (hv : (e.run steps).value = .ok (history, e')) {S : List Identity}
    (hS : HeldThroughout e steps S) :
    e'.ids.filter (fun id => id ∈ S) = e.ids.filter fun id => id ∈ S := by
  induction steps generalizing e history with
  | nil =>
    obtain ⟨rfl, rfl⟩ := Prod.mk.inj (Except.ok.inj hv)
    rfl
  | cons step rest ih =>
    obtain ⟨taken, m, history', hm, hr, rfl⟩ := run_cons_cases hv
    have ht := transition_of_apply h hm
    have hrest : HeldThroughout m rest S := by
      intro before hb history m' hm'
      exact hS (step :: before) (List.cons_prefix_cons.2 ⟨rfl, hb⟩) _ m'
        (run_cons_of_ok hm hm').1
    rw [ih ht.wellFormed hr hrest]
    exact ht.filter_ids h (hS [] List.nil_prefix [] e rfl) (hrest [] List.nil_prefix [] m rfl)

/-! ### Reading after a run -/

/-- What the readers of an enumeration answer. -/
structure Readable (e : Enumeration Cache Data) (k : Kind Env Cache Data) : Prop where
  size : e.size k = .ok e.ids.length
  /-- Position and identity lead to the same instance. -/
  same : ∀ n (hn : n < e.ids.length),
    ∃ i, e.atIndex k n = .ok i ∧ e.get k e.ids[n] = .ok (some i)
  atIndex : ∀ n i, e.atIndex k n = .ok i → ∃ id ∈ e.ids, i.subject = .named id
  get : ∀ id i, e.get k id = .ok (some i) → i.subject = .named id
  absent : ∀ id, id ∉ e.ids → e.get k id = .ok none

theorem WellFormed.readable {e : Enumeration Cache Data} (h : e.WellFormed)
    (k : Kind Env Cache Data) (hp : e.phase = .initialized) : Readable e k := by
  have hget : ∀ id, e.get k id = .ok (e.find? id) := by
    intro id
    rw [Enumeration.get, require_eq_ok.2 hp]
    rfl
  have hat : ∀ n entry, e.held[n]? = some entry → e.atIndex k n = .ok entry.2 := by
    intro n entry hn
    rw [Enumeration.atIndex, require_eq_ok.2 hp, hn]
    rfl
  refine ⟨?_, ?_, ?_, ?_, ?_⟩
  · rw [Enumeration.size, require_eq_ok.2 hp, ids, List.length_map]
    rfl
  · intro n hn
    have hlt : n < e.held.length := by simpa [ids] using hn
    have hid : e.ids[n] = e.held[n].1 := List.getElem_map _
    have hm : (e.held[n].1, e.held[n].2) ∈ e.held := List.getElem_mem hlt
    refine ⟨e.held[n].2, hat n _ (List.getElem?_eq_getElem hlt), ?_⟩
    rw [hget, hid, h.find?_eq_some hm]
  · intro n i hi
    cases hn : e.held[n]? with
    | none =>
      rw [Enumeration.atIndex, require_eq_ok.2 hp, hn] at hi
      cases hi
    | some entry =>
      rw [hat n entry hn] at hi
      cases hi
      have hm : entry ∈ e.held := List.mem_of_getElem? hn
      exact ⟨entry.1, mem_ids.2 ⟨entry.2, hm⟩, h.named entry hm⟩
  · intro id i hi
    rw [hget] at hi
    exact h.subject_of_find? (Except.ok.inj hi)
  · intro id hid
    rw [hget, find?_eq_none hid]

/-- **After any run from a new enumeration**, entries and identities correspond, the readers
find each entry by position and by identity and never the whole, and the identities stand in
the order of their last insertion (`List.dedup` keeps last occurrences); those that are held
throughout a later run keep their order, whatever it does. -/
theorem lookup_and_order_of_run {cache : Cache} {steps : List (Step Env Cache Data)}
    {history : List Event} {e : Enumeration Cache Data}
    (hv : (run { cache } steps).value = .ok (history, e)) :
    e.ids.Nodup ∧ (∀ entry ∈ e.held, entry.2.subject = .named entry.1) ∧
      (∀ i, e.total = some i → i.subject = .whole) ∧
      (e.phase = .initialized → ∀ k : Kind Env Cache Data, Readable e k) ∧
      e.ids.Sublist (inserted history).dedup ∧
      ∀ (later : List (Step Env Cache Data)) (history' : List Event) (e' : Enumeration Cache Data),
        (run e later).value = .ok (history', e') →
          ∀ S : List Identity, HeldThroughout e later S →
            e'.ids.filter (fun id => id ∈ S) = e.ids.filter fun id => id ∈ S := by
  have hempty : WellFormed ({ cache } : Enumeration Cache Data) := .empty cache
  have h := hempty.run hv
  refine ⟨h.distinct, h.named, h.whole, fun hp k => h.readable k hp, ?_, ?_⟩
  · have hnil : (ids ({ cache } : Enumeration Cache Data)).Sublist ([] : List Identity).dedup :=
      List.nil_sublist _
    exact ids_sublist_of_run hempty hv hnil
  · intro later history' e' hv' S hS
    exact filter_ids_of_run h hv' hS

/-- `b` vanishes and comes back, and `a` and `c` stay in order although they are listed in
another one. -/
theorem lookup_and_order_of_run_relisted :
    let k := Probe.kind .remove true
    let steps : List (Step Probe.Script Unit Probe.Data) := [⟨k, .init⟩,
      ⟨k, .update { live := [⟨"a"⟩, ⟨"b"⟩, ⟨"c"⟩] } true⟩,
      ⟨k, .updateEnumeration { live := [⟨"c"⟩, ⟨"a"⟩] }⟩,
      ⟨k, .update { live := [⟨"b"⟩, ⟨"c"⟩, ⟨"a"⟩], broken := [⟨"a"⟩] } true⟩]
    ∃ history e, (run { cache := () } steps).value = .ok (history, e) ∧
      e.ids = [⟨"a"⟩, ⟨"c"⟩, ⟨"b"⟩] ∧ inserted history = [⟨"a"⟩, ⟨"b"⟩, ⟨"c"⟩, ⟨"b"⟩] ∧
      e.ids.Nodup ∧ Readable e k ∧ e.ids.Sublist (inserted history).dedup := by
  intro k steps
  have hread : (run { cache := () } steps).value.toOption.map
      (fun x => (x.2.ids, inserted x.1, x.2.phase)) =
        some ([⟨"a"⟩, ⟨"c"⟩, ⟨"b"⟩], [⟨"a"⟩, ⟨"b"⟩, ⟨"c"⟩, ⟨"b"⟩], .initialized) := by
    decide +kernel
  cases hv : (run { cache := () } steps).value with
  | error fault =>
    rw [hv] at hread
    cases hread
  | ok x =>
    rw [hv] at hread
    obtain ⟨hids, hins, hp⟩ : x.2.ids = _ ∧ inserted x.1 = _ ∧ x.2.phase = _ := by
      simpa [Except.toOption] using hread
    obtain ⟨hnd, -, -, hread, hsub, -⟩ := lookup_and_order_of_run hv
    exact ⟨x.1, x.2, rfl, hids, hins, hnd, hread hp k, hsub⟩

end HostInventory.Enumeration
