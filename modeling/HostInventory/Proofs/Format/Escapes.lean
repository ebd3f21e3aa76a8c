import HostInventory.Format.MountTable
import HostInventory.Proofs.Text.Utf8
import HostInventory.Proofs.Text.Words

/-! Mount tables as they are written.

In the first two fields of a row any character may be written as the octal groups of its bytes, and
those that would break the row have to be (`Encodes`). What is written so holds no blank, and it
starts no comment (`not_breaks_of_encodes`), so a row falls into its fields again (`mount?_of_writes`).
Each group is taken once, as the byte it stands for, so the bytes that come out are those of the text
that was written (`fieldBytes_of_encodes`). So a table gives back its mounts, whatever their names
hold and whatever else of them is written in groups (`read_of_table`). -/
namespace HostInventory.Format.MountTable

open Text

/-- The digit of a number below eight. -/
def octalDigit (n : Nat) : Char :=
  Char.ofNat ('0'.toNat + n)

/-- The group of a byte: a backslash and three digits. -/
def octalGroup (b : UInt8) : List Char :=
  ['\\', octalDigit (b.toNat / 64), octalDigit (b.toNat / 8 % 8), octalDigit (b.toNat % 8)]

/-- A character that does not stand for itself in a field, or not in every place. -/
def Breaks (c : Char) : Prop :=
  isBlank c = true ∨ c = '\\' ∨ c = '#'

instance : DecidablePred Breaks :=
  fun c => inferInstanceAs (Decidable (isBlank c = true ∨ c = '\\' ∨ c = '#'))

/-- The text is written in the field: each character as itself or as the groups of its bytes. -/
inductive Encodes : List Char → List Char → Prop where
  | nil : Encodes [] []
  | plain {c : Char} {s field : List Char} :
      ¬Breaks c → Encodes s field → Encodes (c :: s) (c :: field)
  | groups (c : Char) {s field : List Char} :
      Encodes s field → Encodes (c :: s) ((String.utf8EncodeChar c).flatMap octalGroup ++ field)

/-- The row writes the mount: its device and its point in the first two fields, its kind as it is
in the third, and at least one field more. -/
structure Writes (m : Mount) (row : List Char) : Prop where
  device : m.device ≠ ""
  point : m.point ≠ ""
  kind : IsWord m.kind.toList
  fields : ∃ device point more, Encodes m.device.toList device ∧ Encodes m.point.toList point ∧
    more ≠ [] ∧ (∀ word ∈ more, IsWord word) ∧ Spaced (device :: point :: m.kind.toList :: more) row

/-! ### Groups -/

theorem octalDigit?_octalDigit {n : Nat} (h : n < 8) : octalDigit? (octalDigit n) = some n := by
  interval_cases n <;> rfl

theorem not_breaks_octalDigit {n : Nat} (h : n < 8) :
    isBlank (octalDigit n) = false ∧ octalDigit n ≠ '#' := by
  interval_cases n <;> decide

theorem not_breaks_of_mem_octalGroup {b : UInt8} {c : Char} (h : c ∈ octalGroup b) :
    isBlank c = false ∧ c ≠ '#' := by
  have hb := b.toNat_lt
  simp only [octalGroup, List.mem_cons, List.not_mem_nil, or_false] at h
  rcases h with rfl | rfl | rfl | rfl
  · decide
  all_goals exact not_breaks_octalDigit (by omega)

theorem octalByte?_octalDigit (b : UInt8) :
    octalByte? (octalDigit (b.toNat / 64)) (octalDigit (b.toNat / 8 % 8))
      (octalDigit (b.toNat % 8)) = some b := by
  have hb := b.toNat_lt
  have hsum : 64 * (b.toNat / 64) + 8 * (b.toNat / 8 % 8) + b.toNat % 8 = b.toNat := by omega
  rw [octalByte?, octalDigit?_octalDigit (by omega), octalDigit?_octalDigit (by omega),
    octalDigit?_octalDigit (by omega)]
  simp only [Option.bind_eq_bind, Option.bind_some, hsum]
  rw [if_pos (by omega)]
  exact congrArg some (UInt8.ofNat_toNat)

/-- A group is taken once, as its byte. -/
theorem fieldBytes_octalGroup (b : UInt8) (rest : List Char) :
    fieldBytes (octalGroup b ++ rest) = b :: fieldBytes rest := by
  simp only [octalGroup, List.cons_append, List.nil_append, fieldBytes, octalByte?_octalDigit]

theorem fieldBytes_groups (bytes : List UInt8) (rest : List Char) :
    fieldBytes (bytes.flatMap octalGroup ++ rest) = bytes ++ fieldBytes rest := by
  induction bytes with
  | nil => rfl
  | cons b bytes ih =>
    rw [List.flatMap_cons, List.append_assoc, fieldBytes_octalGroup, ih, List.cons_append]

theorem fieldBytes_cons {c : Char} (h : c ≠ '\\') (rest : List Char) :
    fieldBytes (c :: rest) = String.utf8EncodeChar c ++ fieldBytes rest := by
  rw [fieldBytes]
  exact fun _ _ _ _ hc => absurd hc h

/-! ### Fields -/

section Fields
variable {s field : List Char}

/-- The bytes of a field are those of the text that it writes. -/
theorem fieldBytes_of_encodes (h : Encodes s field) : fieldBytes field = Utf8.encode s := by
  induction h with
  | nil => rfl
  | plain hc _ ih => rw [fieldBytes_cons fun hslash => hc (.inr (.inl hslash)), ih]; rfl
  | groups c _ ih => rw [fieldBytes_groups, ih]; rfl

theorem readField_of_encodes (h : Encodes s field) : readField field = String.ofList s := by
  rw [readField, fieldBytes_of_encodes h, Utf8.decodeLossy_encode]

/-- What is written in a field neither ends it nor starts a comment. -/
theorem not_breaks_of_encodes (h : Encodes s field) :
    ∀ c ∈ field, isBlank c = false ∧ c ≠ '#' := by
  induction h with
  | nil => exact nofun
  | plain hc _ ih =>
    refine List.forall_mem_cons.2 ⟨⟨?_, fun hsharp => hc (.inr (.inr hsharp))⟩, ih⟩
    exact Bool.eq_false_iff.2 fun hblank => hc (.inl hblank)
  | groups d _ ih =>
    intro c hc
    rcases List.mem_append.1 hc with hc | hc
    · obtain ⟨b, -, hgroup⟩ := List.mem_flatMap.1 hc
      exact not_breaks_of_mem_octalGroup hgroup
    · exact ih c hc

theorem isWord_of_encodes (h : Encodes s field) (hne : s ≠ []) : IsWord field := by
  refine ⟨?_, fun c hc => (not_breaks_of_encodes h c hc).1⟩
  cases h with
  | nil => exact absurd rfl hne
  | plain => exact List.cons_ne_nil _ _
  | groups c =>
    intro hnil
    have hbytes : String.utf8EncodeChar c ≠ [] := by
      rw [← List.length_pos_iff, String.length_utf8EncodeChar]
      exact c.utf8Size_pos
    obtain ⟨b, bytes, hcons⟩ := List.exists_cons_of_ne_nil hbytes
    rw [hcons] at hnil
    cases hnil

end Fields

/-! ### Rows -/

/-- The mount of four fields or more. -/
def mountOf : List (List Char) → Option Mount
  | device :: point :: kind :: _ :: _ =>
    some ⟨readField device, readField point, String.ofList kind⟩
  | _ => none

/-- The mount of a line that counts, if it has the fields. -/
def mount? (line : List Char) : Option (Option Mount) :=
  (substance? line).map fun _ => mountOf (words line)

theorem mount?_dropReturn (line : List Char) : mount? (dropReturn line) = mount? line := by
  rw [mount?, mount?, substance?_dropReturn, words_dropReturn]

theorem mount?_of_silent {row : List Char} (h : Silent row) : mount? row = none :=
  congrArg (Option.map _) (substance?_of_silent h)

/-- A row falls into the fields that it has been put together from. -/
theorem mount?_of_writes {m : Mount} {row : List Char} (h : Writes m row) :
    mount? row = some (some m) := by
  obtain ⟨device, point, more, hdevice, hpoint, hne, hmore, hrow⟩ := h.fields
  have hdword : IsWord device :=
    isWord_of_encodes hdevice fun hnil => h.device (String.toList_eq_nil_iff.1 hnil)
  have hpword : IsWord point :=
    isWord_of_encodes hpoint fun hnil => h.point (String.toList_eq_nil_iff.1 hnil)
  have hwords : words row = device :: point :: m.kind.toList :: more := by
    refine words_of_spaced hrow ?_
    simp only [List.forall_mem_cons]
    exact ⟨hdword, hpword, h.kind, hmore⟩
  -- The first character that is not blank is one of the device.
  obtain ⟨c, front, hfront⟩ := List.exists_cons_of_ne_nil hdword.ne_nil
  obtain ⟨hblank, hsharp⟩ := not_breaks_of_encodes hdevice c (hfront ▸ List.mem_cons_self)
  have hcounts : ∃ body, substance? row = some body := by
    obtain ⟨gap, rest, hgap, rfl⟩ := hrow.exists_front
    rw [hfront, List.append_assoc]
    exact ⟨_, substance?_of_ne hgap hblank hsharp _⟩
  obtain ⟨body, hbody⟩ := hcounts
  obtain ⟨word, words, rfl⟩ := List.exists_cons_of_ne_nil hne
  rw [mount?, hbody, Option.map_some, hwords, mountOf, readField_of_encodes hdevice,
    readField_of_encodes hpoint]
  simp only [String.ofList_toList]

/-! ### Tables -/

/-- The number of a line plays no part where every line that counts has a mount. -/
theorem mapM_readRow {ls : List (List Char)} {ms : List Mount} (n : Nat)
    (h : ls.filterMap mount? = ms.map some) :
    ((ls.zipIdx n).filter fun row => (substance? row.1).isSome).mapM readRow = .ok ms := by
  induction ls generalizing n ms with
  | nil =>
    cases ms with
    | nil => rfl
    | cons m ms => cases h
  | cons line rest ih =>
    rw [List.zipIdx_cons]
    cases hline : substance? line with
    | none =>
      have hnone : mount? line = none := congrArg (Option.map _) hline
      rw [List.filterMap_cons_none hnone] at h
      rw [List.filter_cons_of_neg (by simp [hline])]
      exact ih (n + 1) h
    | some body =>
      have hsome : mount? line = some (mountOf (words line)) := congrArg (Option.map _) hline
      rw [List.filterMap_cons_some hsome] at h
      cases ms with
      | nil => cases h
      | cons m ms =>
        obtain ⟨hmount, hrest⟩ := List.cons.inj h
        have hread : readRow (line, n) = .ok m := by
          unfold mountOf at hmount
          unfold readRow
          split at hmount
          · next hwords => rw [hwords]; exact congrArg _ (Option.some.inj hmount)
          · cases hmount
        rw [List.filter_cons_of_pos (by simp [hline]), List.mapM_cons, hread, ih (n + 1) hrest]
        rfl

/-- **A mount table is read as it is written**, among blank rows and comments, and with any
characters of the device and the mount point as octal groups. What comes out of a group, a backslash
with digits behind it too, is not taken for a group again. -/
theorem read_of_table {ms : List Mount} {rows : List (List Char)} (h : InRows Writes Silent ms rows)
    (hrows : ∀ row ∈ rows, '\n' ∉ row) : read (ofRows rows) = .ok ms := by
  refine mapM_readRow 0 ?_
  rw [filterMap_lines_ofRows rfl mount?_dropReturn hrows]
  exact h.filterMap_eq (fun _ => mount?_of_silent) fun _ _ _ => mount?_of_writes

/-- The device is called `\\040`, and in the mount point a letter outside ASCII is written in groups
as the space is. -/
theorem read_of_table_escaped :
    let text := "# device point kind\n\n\\134040 /\\303\\251\\040x\text4  rw,relatime\n"
    let m : Mount := ⟨"\\040", "/é x", "ext4"⟩
    ∃ rows, text = ofRows rows ∧ InRows Writes Silent [m] rows ∧ read text = .ok [m] := by
  intro text m
  have hzero : ¬Breaks '0' := by decide
  have hfour : ¬Breaks '4' := by decide
  have hdevice : Encodes ['\\', '0', '4', '0'] _ :=
    .groups _ (.plain hzero (.plain hfour (.plain hzero .nil)))
  have hpoint : Encodes ['/', 'é', ' ', 'x'] _ :=
    .plain (by decide) (.groups _ (.groups _ (.plain (by decide) .nil)))
  have hdname : ['\\', '0', '4', '0'] = m.device.toList := by decide
  have hpname : ['/', 'é', ' ', 'x'] = m.point.toList := by decide
  have hmore : ∀ word ∈ ["rw,relatime".toList], IsWord word := by
    rw [List.forall_mem_singleton]
    decide
  have hrow : Writes m _ := {
    device := by decide
    point := by decide
    kind := by decide
    fields := ⟨_, _, _, hdname ▸ hdevice, hpname ▸ hpoint, List.cons_ne_nil _ _, hmore,
      .word _ (c := ' ') rfl (.word _ (c := '\t') rfl
        (.word _ (c := ' ') rfl (.blank (c := ' ') rfl (.last _))))⟩ }
  have hcomment : Silent "# device point kind".toList :=
    .inr ⟨[], " device point kind".toList, nofun, rfl⟩
  have hblank : Silent [] := .inl nofun
  have htable : InRows Writes Silent [m] _ :=
    .pass hcomment (.pass hblank (.item hrow (.pass hblank .nil)))
  obtain ⟨rows, htable, htext, hfeed⟩ :
      ∃ rows, InRows Writes Silent [m] rows ∧ text = ofRows rows ∧ ∀ row ∈ rows, '\n' ∉ row :=
    ⟨_, htable, by decide +kernel, by decide +kernel⟩
  exact ⟨rows, htext, htable, htext ▸ read_of_table htable hfeed⟩

end HostInventory.Format.MountTable
