import HostInventory.Kind.Cpu
import Mathlib.Algebra.GroupWithZero.Nat
import HostInventory.Proofs.Enumeration.Operation
import HostInventory.Proofs.Text.Numeral

/-! Updates of processors.

A refresh sums up the counters of each processor it finds in the statistics, and of the
sample before. The sample before has been summed up already, so only the new one can be too
large (`Sound`). Since a listing is read from the same statistics, each processor in them is
held when the refresh begins, under every removal policy; so an update with a refresh ends in
a fault exactly when the line of some processor, or of all together, does not sum up in 64
bits (`Overflows`). -/
namespace HostInventory.Cpu

open Enumeration FileTree Format

/-! ### Sums -/

/-- Forming a sum from left to right is refused exactly when the whole does not fit. -/
theorem foldlM_below_eq_none {bound : Nat} (l : List Nat) {sum : Nat} (h : sum < bound) :
    l.foldlM (fun sum n => if sum + n < bound then some (sum + n) else none) sum = none ↔
      bound ≤ sum + l.sum := by
  induction l generalizing sum with
  | nil =>
    simp only [List.foldlM_nil, List.sum_nil]
    constructor
    · exact nofun
    · intro hle
      omega
  | cons n rest ih =>
    rw [List.foldlM_cons, List.sum_cons]
    by_cases hn : sum + n < bound
    · rw [if_pos hn, ← Nat.add_assoc]
      exact ih hn
    · rw [if_neg hn]
      exact ⟨fun _ => by omega, fun _ => rfl⟩

theorem total?_eq_none {t : CpuTicks} : t.total? = none ↔ Text.wordBound64 ≤ t.counters.sum := by
  have h := foldlM_below_eq_none t.counters (show 0 < Text.wordBound64 by decide)
  rwa [Nat.zero_add] at h

/-- A sum that is formed is the whole sum. -/
theorem sum_of_foldlM_below {bound : Nat} {l : List Nat} {sum total : Nat}
    (h : l.foldlM (fun sum n => if sum + n < bound then some (sum + n) else none) sum =
      some total) : total = sum + l.sum := by
  induction l generalizing sum with
  | nil => exact (Option.some.inj h).symm
  | cons n rest ih =>
    rw [List.foldlM_cons] at h
    by_cases hn : sum + n < bound
    · rw [if_pos hn] at h
      rw [ih h, List.sum_cons, Nat.add_assoc]
    · rw [if_neg hn] at h
      cases h

theorem total?_eq_some {t : CpuTicks} {total : Nat} (h : t.total? = some total) :
    total = t.counters.sum :=
  (sum_of_foldlM_below h).trans (Nat.zero_add _)

/-- The line of some processor, or of all together, does not sum up in 64 bits. -/
def Overflows (statistics : Path) (host : Provider) : Prop :=
  ∃ all t, readAs (host.read statistics) CpuTicks.read = .ok all ∧
    CpuTicks.find t.processor all = some t ∧ Text.wordBound64 ≤ t.counters.sum

/-! ### Instances -/

/-- What a processor is about. -/
def subjectOf : Option Nat → Subject
  | none => .whole
  | some n => .named ⟨toString n⟩

/-- An instance is named for its processor, and the sample before has been summed up. -/
structure Sound (i : Instance Data) : Prop where
  named : i.subject = subjectOf i.data.info.processor
  summed : ∀ before, i.data.previous = some before → before.total?.isSome = true

theorem subjectOf_injective {p q : Option Nat} (h : subjectOf p = subjectOf q) : p = q := by
  cases p with
  | none =>
    cases q with
    | none => rfl
    | some n => cases h
  | some m =>
    cases q with
    | none => cases h
    | some n =>
      have htext : toString m = toString n := congrArg Identity.text (Subject.named.inj h)
      rw [Text.toString_injective htext]

theorem Sound.processor_eq {i : Instance Data} (hi : Sound i) {p : Option Nat}
    (h : i.subject = subjectOf p) : i.data.info.processor = p :=
  subjectOf_injective (hi.named.symm.trans h)

theorem sample?_eq_none {d : Data} {now : CpuTicks}
    (hd : ∀ before, d.previous = some before → before.total?.isSome = true) :
    d.sample? now = none ↔ now.total? = none := by
  unfold Data.sample?
  cases ht : now.total? with
  | none => exact ⟨fun _ => rfl, fun _ => rfl⟩
  | some total =>
    refine ⟨?_, nofun⟩
    intro h
    cases hprev : d.previous with
    | none =>
      rw [hprev] at h
      cases h
    | some before =>
      obtain ⟨totalBefore, hb⟩ := Option.isSome_iff_exists.1 (hd before hprev)
      simp [hprev, hb] at h

/-- A sample says everything anew of a processor, except which one it is. -/
theorem sample?_eq {d d' : Data} {now : CpuTicks} (h : d.sample? now = some d') :
    ∃ total, now.total? = some total ∧
      d' = ⟨⟨d.info.processor, total, d'.info.usage⟩, some now⟩ := by
  unfold Data.sample? at h
  obtain ⟨total, ht, h⟩ := Option.bind_eq_some_iff.1 h
  refine ⟨total, ht, ?_⟩
  cases hprev : d.previous with
  | none =>
    rw [hprev] at h
    cases h
    rfl
  | some before =>
    rw [hprev] at h
    obtain ⟨usage, -, h⟩ := Option.bind_eq_some_iff.1 h
    cases h
    rfl

theorem sample?_eq_some {d d' : Data} {now : CpuTicks} (h : d.sample? now = some d') :
    d'.info.processor = d.info.processor ∧ d'.previous = some now ∧ now.total?.isSome = true := by
  obtain ⟨total, ht, heq⟩ := sample?_eq h
  rw [heq, ht]
  exact ⟨rfl, rfl, rfl⟩

/-- The line of a processor, or why there is none. -/
def line (statistics : Path) (host : Provider) (p : Option Nat) : Except Failure CpuTicks :=
  match readAs (host.read statistics) CpuTicks.read with
  | .error f => .error f
  | .ok all =>
    match CpuTicks.find p all with
    | none => .error (.gone s!"{label p} line in {statistics.spelling}")
    | some now => .ok now

section Look
variable {statistics : Path} {host : Provider} {d d' : Data}

theorem line_eq_ok {p : Option Nat} {now : CpuTicks} : line statistics host p = .ok now ↔
    ∃ all, readAs (host.read statistics) CpuTicks.read = .ok all ∧ CpuTicks.find p all = some now := by
  unfold line
  cases readAs (host.read statistics) CpuTicks.read with
  | error f => simp
  | ok all => cases hf : CpuTicks.find p all <;> simp [hf]

/-- A look takes a sample from the processor's line. -/
theorem look_eq (statistics : Path) (host : Provider) (d : Data) : look statistics host d =
    match line statistics host d.info.processor with
    | .error f => .ok (.error (f, d))
    | .ok now =>
      match d.sample? now with
      | none => .error .overflow
      | some d => .ok (.ok d) := by
  unfold look line
  cases readAs (host.read statistics) CpuTicks.read with
  | error f => rfl
  | ok all =>
    cases hf : CpuTicks.find d.info.processor all with
    | none => simp only [hf]
    | some now => cases hs : d.sample? now <;> simp only [hf, hs]

theorem look_eq_found : look statistics host d = .ok (.ok d') ↔
    ∃ now, line statistics host d.info.processor = .ok now ∧ d.sample? now = some d' := by
  rw [look_eq]
  cases line statistics host d.info.processor with
  | error f => simp
  | ok now => cases hs : d.sample? now <;> simp [hs]

/-- A look that fails leaves the data as they were. -/
theorem look_eq_failed {f : Failure} {left : Data} :
    look statistics host d = .ok (.error (f, left)) ↔
      line statistics host d.info.processor = .error f ∧ left = d := by
  rw [look_eq]
  cases line statistics host d.info.processor with
  | error f' => simp [eq_comm]
  | ok now => cases hs : d.sample? now <;> simp [hs]

/-- A processor whose line is there is found. -/
theorem found_of_line {now : CpuTicks} (hl : line statistics host d.info.processor = .ok now)
    {r : Except (Failure × Data) Data} (h : look statistics host d = .ok r) :
    ∃ d', r = .ok d' ∧ d.sample? now = some d' := by
  cases r with
  | error left =>
    rw [look_eq_failed, hl] at h
    cases h.1
  | ok d' =>
    obtain ⟨now', hl', hs⟩ := look_eq_found.1 h
    obtain rfl : now' = now := Except.ok.inj (hl'.symm.trans hl)
    exact ⟨d', rfl, hs⟩

/-- A look ends in a fault exactly when the processor's line does not sum up. -/
theorem look_eq_error {fault : Fault}
    (hd : ∀ before, d.previous = some before → before.total?.isSome = true) :
    look statistics host d = .error fault ↔ fault = .overflow ∧
      ∃ all t, readAs (host.read statistics) CpuTicks.read = .ok all ∧
        CpuTicks.find d.info.processor all = some t ∧ t.total? = none := by
  have hline : look statistics host d = .error fault ↔ fault = .overflow ∧
      ∃ t, line statistics host d.info.processor = .ok t ∧ t.total? = none := by
    rw [look_eq]
    cases line statistics host d.info.processor with
    | error f => simp
    | ok now => cases hs : d.sample? now <;> simp [hs, ← sample?_eq_none hd, eq_comm]
  rw [hline]
  refine and_congr_right fun _ => ⟨?_, ?_⟩
  · rintro ⟨t, hl, ht⟩
    obtain ⟨all, hr, hf⟩ := line_eq_ok.1 hl
    exact ⟨all, t, hr, hf, ht⟩
  · rintro ⟨all, t, hr, hf, ht⟩
    exact ⟨t, line_eq_ok.2 ⟨all, hr, hf⟩, ht⟩

/-- A look that succeeds leaves a sample. -/
theorem sample_of_look (h : look statistics host d = .ok (.ok d')) :
    ∃ now, d.sample? now = some d' := by
  obtain ⟨now, -, hs⟩ := look_eq_found.1 h
  exact ⟨now, hs⟩

end Look

theorem processor_of_find {p : Option Nat} {all : List CpuTicks} {t : CpuTicks}
    (h : CpuTicks.find p all = some t) : t ∈ all ∧ t.processor = p :=
  ⟨List.mem_of_find?_eq_some h, by simpa using List.find?_some h⟩

/-- Together with its instance the condition on a look is one on the statistics alone. -/
theorem overflows_of_look_eq_error {statistics : Path} {host : Provider} {i : Instance Data}
    (hi : Sound i) {fault : Fault} (h : look statistics host i.data = .error fault) :
    fault = .overflow ∧ Overflows statistics host := by
  obtain ⟨hfault, all, t, hr, hf, ht⟩ := (look_eq_error hi.summed).1 h
  rw [← (processor_of_find hf).2] at hf
  exact ⟨hfault, all, t, hr, hf, total?_eq_none.1 ht⟩

/-! ### The listing -/

theorem mem_of_mapM_ok {α β ε : Type} {f : α → Except ε β} {l : List α} {out : List β}
    (h : l.mapM f = .ok out) : ∀ b ∈ out, ∃ a ∈ l, f a = .ok b := by
  induction l generalizing out with
  | nil =>
    cases h
    exact nofun
  | cons a rest ih =>
    rw [List.mapM_cons] at h
    cases ha : f a with
    | error e =>
      rw [ha] at h
      cases h
    | ok b =>
      cases hrest : rest.mapM f with
      | error e =>
        rw [ha, hrest] at h
        cases h
      | ok out' =>
        rw [ha, hrest] at h
        cases h
        intro x hx
        rcases List.mem_cons.1 hx with rfl | hx
        · exact ⟨a, List.mem_cons_self, ha⟩
        · obtain ⟨a', ha', hfa⟩ := ih hrest x hx
          exact ⟨a', List.mem_cons_of_mem _ ha', hfa⟩

theorem processor_of_readFields {fields : List (List Char)} {t : CpuTicks}
    (h : CpuTicks.readFields fields = .ok t) :
    CpuTicks.readLabel (fields.headD []) = .ok t.processor := by
  unfold CpuTicks.readFields at h
  cases hl : CpuTicks.readLabel (fields.headD []) with
  | error e =>
    rw [hl] at h
    cases h
  | ok p =>
    rw [hl] at h
    cases h
    rfl

/-- The processors in the statistics have 32-bit numbers. -/
theorem processor_lt {source : Except FileTree.Error String} {all : List CpuTicks}
    (h : readAs source CpuTicks.read = .ok all) {t : CpuTicks} (ht : t ∈ all) {n : Nat}
    (hn : t.processor = some n) : n < Text.wordBound32 := by
  cases source with
  | error e => cases h
  | ok text =>
    have hread : CpuTicks.read text = .ok all := by
      simp only [readAs] at h
      cases hr : CpuTicks.read text with
      | error e =>
        rw [hr] at h
        cases h
      | ok all' =>
        rw [hr] at h
        cases h
        rfl
    obtain ⟨fields, -, hfields⟩ := mem_of_mapM_ok hread t ht
    have hlabel := processor_of_readFields hfields
    rw [hn] at hlabel
    unfold CpuTicks.readLabel at hlabel
    split at hlabel
    · cases hlabel
    · split at hlabel
      · next m hm =>
        cases hlabel
        exact Text.readNumeral_lt hm
      · cases hlabel

/-- What is built is a processor under its own number that has not been sampled. -/
theorem instantiate_cases {id : Identity} {i : Instance Data} (h : instantiate id = .ok i) :
    ∃ n, Text.readNumeral Text.wordBound32 id.text.toList = some n ∧
      i = Instance.fresh ⟨toString n⟩ { info := { processor := some n } } := by
  unfold instantiate at h
  cases hn : Text.readNumeral Text.wordBound32 id.text.toList with
  | none =>
    rw [hn] at h
    cases h
  | some n =>
    rw [hn] at h
    cases h
    exact ⟨n, rfl, rfl⟩

/-- The identities of the processors in the statistics. -/
def identities (all : List CpuTicks) : List Identity :=
  (all.filterMap CpuTicks.processor).map fun n => ⟨toString n⟩

theorem mem_identities {all : List CpuTicks} {t : CpuTicks} (ht : t ∈ all) {n : Nat}
    (hn : t.processor = some n) : ⟨toString n⟩ ∈ identities all :=
  List.mem_map.2 ⟨n, List.mem_filterMap.2 ⟨t, ht, hn⟩, rfl⟩

theorem discover_of_read {statistics : Path} {host : Provider} {all : List CpuTicks}
    (h : readAs (host.read statistics) CpuTicks.read = .ok all) :
    discover statistics host = .ok (identities all) := by
  rw [discover, h]
  rfl

/-- The listing is read from the statistics. -/
theorem discover_cases {proc : Path} {policy : RemovalPolicy} {host : Provider}
    {listing : List Identity}
    (h : ((kind proc policy).discover host ()).value = .ok (listing, ())) :
    ∃ all, readAs (host.read (proc / ⟨"stat"⟩)) CpuTicks.read = .ok all ∧
      listing = identities all := by
  have hd : (leaving () (discover (proc / ⟨"stat"⟩) host)).map (fun ids => (ids, ())) =
      .ok (listing, ()) := h
  unfold discover at hd
  cases hr : readAs (host.read (proc / ⟨"stat"⟩)) CpuTicks.read with
  | error f =>
    rw [hr] at hd
    cases hd
  | ok all =>
    rw [hr] at hd
    cases hd
    exact ⟨all, rfl, rfl⟩

section Kind
variable {proc : Path} {policy : RemovalPolicy} {host : Provider}

/-- A listed processor can be built, under its own number. -/
theorem builds_of_listed {listing : List Identity}
    (hd : ((kind proc policy).discover host ()).value = .ok (listing, ())) {id : Identity}
    (hid : id ∈ listing) : ∃ n, id = ⟨toString n⟩ ∧
      instantiate id = .ok (Instance.fresh id { info := { processor := some n } }) := by
  obtain ⟨all, hr, rfl⟩ := discover_cases hd
  obtain ⟨n, hn, rfl⟩ := List.mem_map.1 hid
  obtain ⟨t, ht, hp⟩ := List.mem_filterMap.1 hn
  refine ⟨n, rfl, ?_⟩
  simp only [instantiate, Text.readNumeral_toString (processor_lt hr ht hp)]

theorem kind_truthful : (kind proc policy).Truthful := by
  intro host _ listing _ hd id hid i hi
  obtain ⟨n, -, hb⟩ := builds_of_listed hd hid
  have hi' : instantiate id = .ok i := hi
  rw [hb] at hi'
  cases hi'
  rfl

/-! ### The enumeration -/

theorem sound_reconciled {e : Enumeration Unit Data} (h : e.All Sound) (listing : List Identity) :
    (e.reconciled (kind proc policy) host () listing).All Sound := by
  refine h.reconciled (fun _ i hi => hi) ?_
  intro id _ i hi
  obtain ⟨n, -, rfl⟩ := instantiate_cases hi
  exact ⟨rfl, nofun⟩

theorem sound_lookedAt {i : Instance Data} (hi : Sound i) :
    Sound ((kind proc policy).lookedAt host () i).2 := by
  unfold Kind.lookedAt
  split
  · next d hd =>
    have hlook : look (proc / ⟨"stat"⟩) host i.data = .ok (.ok d) := hd
    obtain ⟨now, hs⟩ := sample_of_look hlook
    obtain ⟨hproc, hprev, htotal⟩ := sample?_eq_some hs
    refine ⟨?_, ?_⟩
    · show i.subject = subjectOf d.info.processor
      rw [hproc]
      exact hi.named
    · intro before hbefore
      obtain rfl : now = before := Option.some.inj (hprev.symm.trans hbefore)
      exact htotal
  · next f left hd =>
    have hlook : look (proc / ⟨"stat"⟩) host i.data = .ok (.error (f, left)) := hd
    obtain ⟨-, rfl⟩ := look_eq_failed.1 hlook
    exact ⟨hi.named, nofun⟩
  · exact hi

/-- No look ends in a fault when the lines in the statistics sum up. -/
theorem faultless_of_sound {i : Instance Data} (hi : Sound i)
    (hover : ¬Overflows (proc / ⟨"stat"⟩) host) : (kind proc policy).Faultless host () i := by
  cases hv : look (proc / ⟨"stat"⟩) host i.data with
  | ok r => exact ⟨r, hv⟩
  | error fault => exact absurd (overflows_of_look_eq_error hi hv).2 hover

variable {e : Enumeration Unit Data}

theorem sound_update {e' : Enumeration Unit Data} (h : e.All Sound) {refresh : Bool}
    {r : Except Failure UpdateReport}
    (hv : (e.update (kind proc policy) host refresh).value = .ok (r, e')) : e'.All Sound := by
  refine h.update hv (fun _ i hi => hi) ?_ fun _ i hi => sound_lookedAt hi
  intro _ id i hi
  obtain ⟨n, -, rfl⟩ := instantiate_cases hi
  exact ⟨rfl, nofun⟩

/-- Once the statistics are listed there is an instance for each line in them. -/
theorem exists_instance (hs : e.All Sound) (hw : e.WellFormed) (ht : e.total.isSome = true)
    {all : List CpuTicks}
    (hd : ((kind proc policy).discover host e.cache).value = .ok (identities all, ()))
    {t : CpuTicks} (hmem : t ∈ all) :
    ∃ i ∈ (e.reconciled (kind proc policy) host () (identities all)).instances,
      i.data.info.processor = t.processor := by
  have hn := kind_truthful host e.cache _ () hd
  have hwf := (transition_reconciled hw (hn.newcomers e)).wellFormed
  have hsound : (e.reconciled (kind proc policy) host () (identities all)).All Sound :=
    sound_reconciled hs _
  cases hp : t.processor with
  | none =>
    obtain ⟨i, hi⟩ := Option.isSome_iff_exists.1 ht
    have hm : i ∈ (e.reconciled (kind proc policy) host () (identities all)).instances :=
      List.mem_append_left _ (Option.mem_toList.2 hi)
    exact ⟨i, hm, (hsound i hm).processor_eq (hw.whole i hi)⟩
  | some n =>
    have hlisted := mem_identities hmem hp
    obtain ⟨m, -, hb⟩ := builds_of_listed hd hlisted
    have hbuilds : (kind proc policy).builds host () ⟨toString n⟩ = true := by
      show (instantiate ⟨toString n⟩).toOption.isSome = true
      rw [hb]
      rfl
    obtain ⟨i, hheld⟩ := mem_ids.1 (mem_ids_reconciled hlisted hbuilds)
    have hm : i ∈ (e.reconciled (kind proc policy) host () (identities all)).instances :=
      List.mem_append_right _ (List.mem_map_of_mem hheld)
    exact ⟨i, hm, (hsound i hm).processor_eq (hwf.named _ hheld)⟩

variable (hp : e.phase = .initialized) (hs : e.All Sound)
include hp hs

/-- Processors are updated unless the line of one of them does not sum up. -/
theorem update_returns (hover : ¬Overflows (proc / ⟨"stat"⟩) host) :
    ∃ x, (e.update (kind proc policy) host true).value = .ok x := by
  cases hd : ((kind proc policy).discover host e.cache).value with
  | error left => exact ⟨_, update_of_error hp hd true⟩
  | ok found =>
    obtain ⟨listing, ⟨⟩⟩ := found
    have hn := kind_truthful host e.cache listing () hd
    exact ⟨_, update_with_refresh hp hd hn fun i hi =>
      faultless_of_sound (sound_reconciled hs listing i hi) hover⟩

/-- The line that does not sum up belongs to an instance that is held once what the statistics
list has been added. -/
theorem update_overflows (hw : e.WellFormed) (ht : e.total.isSome = true)
    (hover : Overflows (proc / ⟨"stat"⟩) host) :
    (e.update (kind proc policy) host true).value = .error .overflow := by
  obtain ⟨all, t, hr, hf, hsum⟩ := hover
  have hd : ((kind proc policy).discover host e.cache).value = .ok (identities all, ()) := by
    show (leaving () (discover (proc / ⟨"stat"⟩) host)).map (fun ids => (ids, ())) = _
    rw [discover_of_read hr]
    rfl
  have hn := kind_truthful host e.cache _ () hd
  obtain ⟨i, hi, hproc⟩ := exists_instance hs hw ht hd (processor_of_find hf).1
  have hsound : (e.reconciled (kind proc policy) host () (identities all)).All Sound :=
    sound_reconciled hs _
  have hfault : ¬∀ i ∈ (e.reconciled (kind proc policy) host () (identities all)).instances,
      (kind proc policy).Faultless host () i := by
    intro h
    obtain ⟨r, hl⟩ := h i hi
    have hlook : look (proc / ⟨"stat"⟩) host i.data = .ok r := hl
    have herror : look (proc / ⟨"stat"⟩) host i.data = .error .overflow :=
      (look_eq_error (hsound i hi).summed).2
        ⟨rfl, all, t, hr, hproc.symm ▸ hf, total?_eq_none.2 hsum⟩
    rw [herror] at hlook
    cases hlook
  obtain ⟨j, hj, fault, hl, hv⟩ := update_of_fault hp hd hn hfault
  rw [hv, (overflows_of_look_eq_error (hsound j hj) hl).1]

end Kind

end HostInventory.Cpu
