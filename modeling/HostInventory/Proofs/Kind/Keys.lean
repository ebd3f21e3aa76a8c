import HostInventory.Proofs.Kind.Software
import HostInventory.Proofs.Rearranged
import HostInventory.Proofs.Text.Lines

/-! What the keys of packages tell apart.

The key of a stanza is the name of its package, with the architecture behind a colon if there are
stanzas of that name for another architecture. No name holds a colon, so the name can be read off
either kind of key (`nameOfKey_key`). A stanza without an architecture keeps the bare name even
beside others of its name (`key_eq_name_iff`), and then those have theirs in their keys: two
stanzas have one key only if they are of one name and one architecture (`key_eq_iff`). Which key a
stanza has depends on what other stanzas there are, but not on where they stand (`key_congr_mem`).
All of it together is `keys_identify`. -/
namespace HostInventory.Software

open Format

/-- All stanzas of this name have the same architecture. -/
def OneArchitecture (all : List Package) (name : String) : Prop :=
  ∀ p ∈ all, ∀ q ∈ all, p.name = name → q.name = name → p.architecture = q.architecture

/-! ### One key -/

section Key
variable {all : List Package} {p q : Package}

theorem isMultiArch_eq_true_iff : isMultiArch all p = true ↔
    ∃ q ∈ all, q.name = p.name ∧ q.architecture ≠ p.architecture := by
  simp only [isMultiArch, List.any_eq_true, Bool.and_eq_true, decide_eq_true_eq]

theorem isMultiArch_iff (hp : p ∈ all) :
    isMultiArch all p = true ↔ ¬OneArchitecture all p.name := by
  rw [isMultiArch_eq_true_iff]
  constructor
  · rintro ⟨q, hq, hname, hne⟩ hone
    exact hne (hone q hq p hp hname rfl)
  · intro hmany
    by_contra hnone
    have hsame : ∀ q ∈ all, q.name = p.name → q.architecture = p.architecture := by
      simpa using hnone
    exact hmany fun q hq r hr hqn hrn => (hsame q hq hqn).trans (hsame r hr hrn).symm

/-- The key depends on which stanzas there are, not on their order. -/
theorem key_congr_mem {all' : List Package} (h : ∀ q, q ∈ all' ↔ q ∈ all) (p : Package) :
    key all' p = key all p := by
  have hmulti : isMultiArch all' p = isMultiArch all p := by
    rw [Bool.eq_iff_iff, isMultiArch_eq_true_iff, isMultiArch_eq_true_iff]
    simp only [h]
  rw [key, key, hmulti]

theorem key_of_bare (hp : p ∈ all) (h : OneArchitecture all p.name ∨ p.architecture = "") :
    key all p = p.name := by
  refine if_neg fun hqualified => ?_
  rw [Bool.and_eq_true, isMultiArch_iff hp, decide_eq_true_eq] at hqualified
  exact h.elim hqualified.1 hqualified.2

theorem key_of_qualified (hp : p ∈ all)
    (h : ¬(OneArchitecture all p.name ∨ p.architecture = "")) :
    (key all p).toList = p.name.toList ++ ':' :: p.architecture.toList := by
  obtain ⟨hmany, harch⟩ := not_or.1 h
  have hkey : key all p = s!"{p.name}:{p.architecture}" := by
    refine if_pos ?_
    rw [Bool.and_eq_true, isMultiArch_iff hp, decide_eq_true_eq]
    exact ⟨hmany, harch⟩
  rw [hkey]
  simp [toString]

theorem key_eq_name_iff (hp : p ∈ all) :
    key all p = p.name ↔ OneArchitecture all p.name ∨ p.architecture = "" := by
  refine ⟨fun hkey => ?_, key_of_bare hp⟩
  by_contra hqualified
  have hlonger := key_of_qualified hp hqualified
  rw [hkey, List.self_eq_append_right] at hlonger
  cases hlonger

/-- The name stands before the first colon of the key, or is the key. -/
theorem nameOfKey_key (hp : p ∈ all) (hname : ':' ∉ p.name.toList) :
    nameOfKey (key all p) = p.name := by
  rw [nameOfKey]
  by_cases h : OneArchitecture all p.name ∨ p.architecture = ""
  · rw [key_of_bare hp h, Text.splitFirst_of_not_mem hname]
  · rw [key_of_qualified hp h, Text.splitFirst_append hname]
    exact String.ofList_toList

theorem key_eq_iff (hp : p ∈ all) (hq : q ∈ all) (hpname : ':' ∉ p.name.toList)
    (hqname : ':' ∉ q.name.toList) :
    key all p = key all q ↔ p.name = q.name ∧ p.architecture = q.architecture := by
  refine ⟨fun hkey => ?_, fun ⟨hname, harch⟩ => key_congr all hname harch⟩
  have hname : p.name = q.name := by
    rw [← nameOfKey_key hp hpname, hkey, nameOfKey_key hq hqname]
  refine ⟨hname, ?_⟩
  by_cases hbare : key all p = p.name
  · have hbare' : key all q = q.name := by rw [← hkey, hbare, hname]
    rcases (key_eq_name_iff hp).1 hbare with hone | hpnone
    · exact hone p hp q hq rfl hname.symm
    · -- Beside a stanza without an architecture the name alone is the key of no other one.
      rcases (key_eq_name_iff hq).1 hbare' with hone | hqnone
      · exact hone p hp q hq hname rfl
      · rw [hpnone, hqnone]
  · have hbare' : key all q ≠ q.name := by rwa [← hkey, ← hname]
    have hp' := key_of_qualified hp (mt (key_eq_name_iff hp).2 hbare)
    have hq' := key_of_qualified hq (mt (key_eq_name_iff hq).2 hbare')
    rw [hkey, hq', hname] at hp'
    exact (String.toList_inj.1 (List.cons.inj (List.append_cancel_left hp')).2).symm

end Key

/-! ### All keys -/

theorem mem_keys_zip {all : List Package} {key' : String} {p : Package} :
    (key', p) ∈ (keys all).zip all ↔ p ∈ all ∧ key all p = key' := by
  rw [keys, ← List.map_prod_right_eq_zip, List.mem_map]
  constructor
  · rintro ⟨q, hq, heq⟩
    obtain ⟨rfl, rfl⟩ := Prod.mk.inj heq
    exact ⟨hq, rfl⟩
  · rintro ⟨hp, rfl⟩
    exact ⟨p, hp, rfl⟩

theorem keys_rearranged {all : List Package} (σ : Equiv.Perm (Fin all.length)) :
    keys (rearranged σ all) = rearranged σ (keys all) := by
  have hkey : key (rearranged σ all) = key all :=
    funext (key_congr_mem fun _ => (rearranged_perm σ).mem_iff)
  rw [keys, hkey, map_rearranged]
  rfl

/-- **Keys tell packages apart by name and architecture**, where no name holds a colon. A key
starts with the stanza's name, and is that name exactly if all stanzas of it have one architecture,
or this one has none. Stanzas in another order have the same keys. -/
theorem keys_identify {all : List Package} (hnames : ∀ p ∈ all, ':' ∉ p.name.toList) :
    (keys all).length = all.length ∧
    (∀ entry ∈ (keys all).zip all,
      nameOfKey entry.1 = entry.2.name ∧
      (entry.1 = entry.2.name ↔
        OneArchitecture all entry.2.name ∨ entry.2.architecture = "") ∧
      ∀ other ∈ (keys all).zip all, (entry.1 = other.1 ↔
        entry.2.name = other.2.name ∧ entry.2.architecture = other.2.architecture)) ∧
    ∀ σ : Equiv.Perm (Fin all.length), keys (rearranged σ all) = rearranged σ (keys all) := by
  refine ⟨List.length_map _, ?_, keys_rearranged⟩
  rintro ⟨_, p⟩ hentry
  obtain ⟨hp, rfl⟩ := mem_keys_zip.1 hentry
  refine ⟨nameOfKey_key hp (hnames p hp), key_eq_name_iff hp, ?_⟩
  rintro ⟨_, q⟩ hother
  obtain ⟨hq, rfl⟩ := mem_keys_zip.1 hother
  exact key_eq_iff hp hq (hnames p hp) (hnames q hq)

/-- A library for two architectures, and once without one, beside another package. -/
def mixedArchitectures : List Package :=
  [{ name := "libc6", architecture := "amd64" }, { name := "libc6" },
    { name := "libc6", architecture := "i386" }, { name := "bash", architecture := "amd64" }]

/-- The first stanza and the last one change places, and take their keys with them. -/
theorem keys_identify_mixed :
    let σ : Equiv.Perm (Fin mixedArchitectures.length) := Equiv.swap ⟨0, by decide⟩ ⟨3, by decide⟩
    (∀ p ∈ mixedArchitectures, ':' ∉ p.name.toList) ∧
      keys mixedArchitectures = ["libc6:amd64", "libc6", "libc6:i386", "bash"] ∧
      keys (rearranged σ mixedArchitectures) = ["bash", "libc6", "libc6:i386", "libc6:amd64"] ∧
      ¬OneArchitecture mixedArchitectures "libc6" := by
  intro σ
  have hnames : ∀ p ∈ mixedArchitectures, ':' ∉ p.name.toList := by decide
  have hkeys : keys mixedArchitectures = ["libc6:amd64", "libc6", "libc6:i386", "bash"] := by
    decide +kernel
  obtain ⟨-, hentries, horder⟩ := keys_identify hnames
  refine ⟨hnames, hkeys, ?_, fun hone => ?_⟩
  · rw [horder σ, hkeys]
    decide +kernel
  · have hfirst := hentries ("libc6:amd64", { name := "libc6", architecture := "amd64" })
      (by decide +kernel)
    exact absurd (hfirst.2.1.2 (.inl hone)) (by decide)

end HostInventory.Software
