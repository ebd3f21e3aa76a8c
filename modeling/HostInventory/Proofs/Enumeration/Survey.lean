import HostInventory.Enumeration.Update
import Mathlib.Data.List.Nodup

/-! The loop over a listing.

The loop passes over what is held or has been seen before and asks for an instance for
everything else, so what it asks for are the `newcomers` of the listing: the identities that
are not held, each at its first occurrence. What can be built of them is what it leaves, and
it ends in a fault exactly when an instance is built under another identity than asked for
(`survey_eq`, `names_of_survey_ok`). -/
namespace HostInventory.Enumeration

variable {Env Cache Data : Type}

/-- The listed identities that are not held, in order of first occurrence. -/
def newcomers (e : Enumeration Cache Data) (listing : List Identity) : List Identity :=
  listing.eraseDups.filter fun id => !e.isHeld id

/-- An instance can be built for the identity. -/
def Kind.builds (k : Kind Env Cache Data) (env : Env) (cache : Cache) (id : Identity) : Bool :=
  (k.instantiate env cache id).toOption.isSome

/-- The instances that can be built for the identities, each under its own. -/
def Kind.built (k : Kind Env Cache Data) (env : Env) (cache : Cache) (ids : List Identity) :
    List (Identity × Instance Data) :=
  ids.filterMap fun id => (k.instantiate env cache id).toOption.map fun i => (id, i)

/-- An instance that is built for one of the identities carries that identity. -/
def Kind.Names (k : Kind Env Cache Data) (env : Env) (cache : Cache) (ids : List Identity) : Prop :=
  ∀ id ∈ ids, ∀ i, k.instantiate env cache id = .ok i → i.subject = .named id

/-! ### First occurrences -/

theorem eraseDups_filter (p : Identity → Bool) (l : List Identity) :
    (l.filter p).eraseDups = l.eraseDups.filter p := by
  induction h : l.length using Nat.strongRecOn generalizing l with
  | ind n ih =>
    cases l with
    | nil => rfl
    | cons a rest =>
      have hlt : (rest.filter fun b => !b == a).length < n := by
        have := List.length_filter_le (fun b => !b == a) rest
        simp only [List.length_cons] at h
        omega
      have hrest := ih _ hlt (rest.filter fun b => !b == a) rfl
      rw [List.eraseDups_cons, List.filter_cons, List.filter_cons]
      by_cases hp : p a = true
      · rw [if_pos hp, if_pos hp, List.eraseDups_cons, ← hrest, List.filter_filter,
          List.filter_filter]
        simp only [Bool.and_comm]
      · -- What `p` refuses is not there to be erased later.
        have hsame : (rest.filter fun b => !b == a).filter p = rest.filter p := by
          rw [List.filter_filter]
          apply List.filter_congr
          intro b _
          by_cases hb : b = a
          · subst hb
            simp [hp]
          · simp [hb]
        rw [if_neg hp, if_neg hp, ← hrest, hsame]

theorem nodup_eraseDups (l : List Identity) : l.eraseDups.Nodup := by
  induction l with
  | nil => exact List.nodup_nil
  | cons a rest ih =>
    rw [List.eraseDups_cons, eraseDups_filter]
    exact List.nodup_cons.2 ⟨by simp, ih.filter _⟩

/-- The first occurrences of a list that are not in `seen`. -/
def unseen (seen l : List Identity) : List Identity :=
  l.eraseDups.filter fun id => id ∉ seen

theorem unseen_nil (l : List Identity) : unseen [] l = l.eraseDups := by
  simp [unseen]

theorem unseen_of_mem {seen : List Identity} {id : Identity} (h : id ∈ seen) (rest : List Identity) :
    unseen seen (id :: rest) = unseen seen rest := by
  unfold unseen
  rw [List.eraseDups_cons, eraseDups_filter, List.filter_cons_of_neg (by simpa using h),
    List.filter_filter]
  apply List.filter_congr
  intro x _
  by_cases hx : x = id
  · subst hx
    simp [h]
  · simp [hx]

theorem unseen_of_not_mem {seen : List Identity} {id : Identity} (h : id ∉ seen)
    (rest : List Identity) : unseen seen (id :: rest) = id :: unseen (id :: seen) rest := by
  unfold unseen
  rw [List.eraseDups_cons, eraseDups_filter, List.filter_cons_of_pos (by simpa using h),
    List.filter_filter]
  congr 1
  apply List.filter_congr
  intro x _
  by_cases hx : x = id <;> simp [hx]

/-! ### Newcomers -/

theorem mem_newcomers {e : Enumeration Cache Data} {listing : List Identity} {id : Identity} :
    id ∈ e.newcomers listing ↔ id ∈ listing ∧ id ∉ e.ids := by
  rw [newcomers, List.mem_filter, List.mem_eraseDups, ← isHeld_iff]
  simp

theorem nodup_newcomers (e : Enumeration Cache Data) (listing : List Identity) :
    (e.newcomers listing).Nodup :=
  (nodup_eraseDups listing).filter _

theorem map_fst_built (k : Kind Env Cache Data) (env : Env) (cache : Cache) (ids : List Identity) :
    (k.built env cache ids).map Prod.fst = ids.filter (k.builds env cache) := by
  induction ids with
  | nil => rfl
  | cons id rest ih =>
    cases hi : k.instantiate env cache id <;>
      simp_all [Kind.built, Kind.builds, Except.toOption]

theorem mem_built {k : Kind Env Cache Data} {env : Env} {cache : Cache} {ids : List Identity}
    {entry : Identity × Instance Data} : entry ∈ k.built env cache ids ↔
      entry.1 ∈ ids ∧ k.instantiate env cache entry.1 = .ok entry.2 := by
  obtain ⟨id, i⟩ := entry
  simp only [Kind.built, List.mem_filterMap]
  constructor
  · rintro ⟨x, hx, he⟩
    cases hk : k.instantiate env cache x with
    | ok j =>
      rw [hk] at he
      cases he
      exact ⟨hx, hk⟩
    | error f =>
      rw [hk] at he
      cases he
  · rintro ⟨hid, hk⟩
    refine ⟨id, hid, ?_⟩
    rw [hk]
    rfl

theorem Kind.Names.subject_of_built {k : Kind Env Cache Data} {env : Env} {cache : Cache}
    {ids : List Identity} (hn : k.Names env cache ids) :
    ∀ entry ∈ k.built env cache ids, entry.2.subject = .named entry.1 := by
  intro entry hm
  obtain ⟨hid, hi⟩ := mem_built.1 hm
  exact hn _ hid _ hi

/-! ### The loop -/

/-- The newcomers of a listing that are not in `seen`. -/
def unseenNewcomers (e : Enumeration Cache Data) (seen listing : List Identity) : List Identity :=
  (unseen seen listing).filter fun id => !e.isHeld id

theorem unseenNewcomers_nil (e : Enumeration Cache Data) (listing : List Identity) :
    e.unseenNewcomers [] listing = e.newcomers listing := by
  rw [unseenNewcomers, unseen_nil, newcomers]

theorem unseenNewcomers_of_mem (e : Enumeration Cache Data) {seen : List Identity} {id : Identity}
    (h : id ∈ seen) (rest : List Identity) :
    e.unseenNewcomers seen (id :: rest) = e.unseenNewcomers seen rest := by
  rw [unseenNewcomers, unseen_of_mem h, unseenNewcomers]

/-- An identity that is held is no newcomer. -/
theorem unseenNewcomers_of_held {e : Enumeration Cache Data} {seen : List Identity} {id : Identity}
    (hs : id ∉ seen) (hh : e.isHeld id = true) (rest : List Identity) :
    e.unseenNewcomers seen (id :: rest) = e.unseenNewcomers (id :: seen) rest := by
  rw [unseenNewcomers, unseen_of_not_mem hs, List.filter_cons_of_neg (by simp [hh]),
    unseenNewcomers]

theorem unseenNewcomers_of_new {e : Enumeration Cache Data} {seen : List Identity} {id : Identity}
    (hs : id ∉ seen) (hh : e.isHeld id = false) (rest : List Identity) :
    e.unseenNewcomers seen (id :: rest) = id :: e.unseenNewcomers (id :: seen) rest := by
  rw [unseenNewcomers, unseen_of_not_mem hs, List.filter_cons_of_pos (by simp [hh]),
    unseenNewcomers]

/-- What the loop leaves when it starts with a survey `s`. -/
def surveyed (e : Enumeration Cache Data) (k : Kind Env Cache Data) (env : Env)
    (listing : List Identity) (s : Survey Data) : Survey Data where
  seen := (unseen s.seen listing).reverse ++ s.seen
  built := ((k.built env e.cache (e.unseenNewcomers s.seen listing)).map Prod.snd).reverse ++ s.built
  skipped := ((e.unseenNewcomers s.seen listing).filter fun id =>
    !k.builds env e.cache id).reverse ++ s.skipped

/-- The loop ends well when every instance that is built carries the identity asked for. -/
theorem survey_eq {e : Enumeration Cache Data} {k : Kind Env Cache Data} {env : Env}
    (listing : List Identity) (s : Survey Data)
    (hn : k.Names env e.cache (e.unseenNewcomers s.seen listing)) :
    (survey e k env listing s).value = .ok (e.surveyed k env listing s) ∧
      (survey e k env listing s).calls =
        (e.unseenNewcomers s.seen listing).map Call.instantiate := by
  induction listing generalizing s with
  | nil => simp [survey, surveyed, unseenNewcomers, unseen, Kind.built]
  | cons id rest ih =>
    by_cases hs : id ∈ s.seen
    · have hu := e.unseenNewcomers_of_mem hs rest
      have hsv : e.surveyed k env (id :: rest) s = e.surveyed k env rest s := by
        simp only [surveyed, hu, unseen_of_mem hs]
      rw [hu] at hn
      simpa only [survey, List.contains_eq_mem, hs, decide_true, if_true, hu, hsv] using ih s hn
    · cases hh : e.isHeld id with
      | true =>
        have hu := unseenNewcomers_of_held hs hh rest
        have hsv : e.surveyed k env (id :: rest) s =
            e.surveyed k env rest { s with seen := id :: s.seen } := by
          simp only [surveyed, hu, unseen_of_not_mem hs, List.reverse_cons, List.append_assoc,
            List.singleton_append]
        rw [hu] at hn
        simpa only [survey, List.contains_eq_mem, hs, decide_false, Bool.false_eq_true, if_false,
          hh, if_true, hu, hsv] using ih { s with seen := id :: s.seen } hn
      | false =>
        have hu := unseenNewcomers_of_new hs hh rest
        rw [hu] at hn
        have hrest : k.Names env e.cache (e.unseenNewcomers (id :: s.seen) rest) :=
          fun x hx => hn x (List.mem_cons_of_mem _ hx)
        simp only [survey, List.contains_eq_mem, hs, decide_false, Bool.false_eq_true, if_false,
          hh, Outcome.calling_bind, pure_bind, Outcome.value_calling, Outcome.calls_calling, hu,
          List.map_cons]
        cases hi : k.instantiate env e.cache id with
        | ok i =>
          have hsv : e.surveyed k env (id :: rest) s =
              e.surveyed k env rest { s with seen := id :: s.seen, built := i :: s.built } := by
            simp [surveyed, hu, unseen_of_not_mem hs, Kind.built, Kind.builds, hi, Except.toOption]
          obtain ⟨hv, hc⟩ := ih { s with seen := id :: s.seen, built := i :: s.built } hrest
          simp only [hn id List.mem_cons_self i hi, if_true, hsv, hv, hc, and_self]
        | error f =>
          have hsv : e.surveyed k env (id :: rest) s =
              e.surveyed k env rest { s with seen := id :: s.seen, skipped := id :: s.skipped } := by
            simp [surveyed, hu, unseen_of_not_mem hs, Kind.built, Kind.builds, hi, Except.toOption]
          obtain ⟨hv, hc⟩ := ih { s with seen := id :: s.seen, skipped := id :: s.skipped } hrest
          simp only [Outcome.value_say_bind, Outcome.calls_say_bind, hsv, hv, hc, and_self]

/-- A loop that ends well has built nothing under another identity than asked for. -/
theorem names_of_survey_ok {e : Enumeration Cache Data} {k : Kind Env Cache Data} {env : Env}
    {listing : List Identity} {s s' : Survey Data}
    (h : (survey e k env listing s).value = .ok s') :
    k.Names env e.cache (e.unseenNewcomers s.seen listing) := by
  induction listing generalizing s with
  | nil =>
    intro id hid
    simp [unseenNewcomers, unseen] at hid
  | cons id rest ih =>
    by_cases hs : id ∈ s.seen
    · rw [e.unseenNewcomers_of_mem hs]
      exact ih (by simpa [survey, hs] using h)
    · cases hh : e.isHeld id with
      | true =>
        rw [unseenNewcomers_of_held hs hh]
        exact ih (s := { s with seen := id :: s.seen }) (by simpa [survey, hs, hh] using h)
      | false =>
        rw [unseenNewcomers_of_new hs hh]
        simp only [survey, List.contains_eq_mem, hs, decide_false, Bool.false_eq_true, if_false,
          hh, Outcome.calling_bind, pure_bind, Outcome.value_calling] at h
        have key : (∀ i, k.instantiate env e.cache id = .ok i → i.subject = .named id) ∧
            k.Names env e.cache (e.unseenNewcomers (id :: s.seen) rest) := by
          cases hi : k.instantiate env e.cache id with
          | ok i =>
            rw [hi] at h
            by_cases hname : i.subject = .named id
            · simp only [hname, if_true] at h
              refine ⟨fun j hj => ?_, ih h⟩
              cases hj
              exact hname
            · simp [hname] at h
          | error f =>
            rw [hi] at h
            refine ⟨fun j hj => ?_, ih h⟩
            cases hj
        intro x hx
        rcases List.mem_cons.1 hx with rfl | hx
        · exact key.1
        · exact key.2 x hx

end HostInventory.Enumeration
