import HostInventory.Format.OsRelease
import HostInventory.Proofs.Text.Words

/-! Releases as they are written.

A row assigns a value to a key, and the value stands between double quotes, with a backslash before
each character that would mean something else there (`quote`). The row falls into its key and its
value again, whatever the value holds (`readLine_assigns`), and no other row is taken for one
(`readLine_foreign`). Of the backslashes only those before double quotes are taken out
(`unquote_quote`), so a value comes back as it was exactly if nothing else in it needs one
(`read_of_release`). -/
namespace HostInventory.Format.OsRelease

open Text

/-- The keys whose values are kept. -/
inductive Key where
  | id
  | name
  | versionId
  | prettyName
deriving DecidableEq, Repr

/-- The key as it is written. -/
def Key.text : Key → String
  | .id => "ID"
  | .name => "NAME"
  | .versionId => "VERSION_ID"
  | .prettyName => "PRETTY_NAME"

/-- The value that is kept under a key. -/
def get (release : OsRelease) : Key → String
  | .id => release.id
  | .name => release.name
  | .versionId => release.versionId
  | .prettyName => release.prettyName

/-- The characters that a backslash is written before: the double quote, the backslash, the dollar
sign and the backtick. -/
def shielded : List Char :=
  ['"', '\\', '$', '\x60']

/-- A character with the backslash that it needs. -/
def shield (c : Char) : List Char :=
  if c ∈ shielded then ['\\', c] else [c]

/-- A value between double quotes. -/
def quote (v : List Char) : List Char :=
  '"' :: (v.flatMap shield ++ ['"'])

/-- What is read of a character with the backslash that it needs. -/
def unshield (c : Char) : List Char :=
  if c = '"' then [c] else shield c

/-- What is read of a value. -/
def readValue (v : String) : String :=
  String.ofList (v.toList.flatMap unshield)

/-- The row assigns the value to the key. -/
def Assigns (entry : Key × String) (row : List Char) : Prop :=
  row = entry.1.text.toList ++ '=' :: quote entry.2.toList

/-- A blank row, a comment or an assignment to any other key. -/
def Foreign (row : List Char) : Prop :=
  Silent row ∨ ∃ key value, row = key ++ '=' :: value ∧ '=' ∉ key ∧
    ∀ k : Key, trim key ≠ k.text.toList

/-- The values that are assigned to a key, in order. -/
def valuesOf {κ : Type} [DecidableEq κ] (k : κ) (entries : List (κ × String)) : List String :=
  (entries.filter (·.1 = k)).map (·.2)

/-! ### Values -/

section Values
variable {v : List Char}

theorem dropEscapes_cons {c : Char} {rest : List Char} (h : c = '\\' → rest.head? ≠ some '"') :
    dropEscapes (c :: rest) = c :: dropEscapes rest := by
  rw [dropEscapes]
  rintro next hc rfl
  exact h hc rfl

theorem head?_flatMap_shield (v : List Char) : (v.flatMap shield).head? ≠ some '"' := by
  cases v with
  | nil => exact nofun
  | cons c v =>
    rw [List.flatMap_cons, shield]
    split
    · exact by simp
    · next hc =>
      rintro hhead
      cases Option.some.inj hhead
      exact hc (by decide)

/-- A backslash that does not stand before a double quote stays, before another backslash too. -/
theorem dropEscapes_flatMap_shield (v : List Char) :
    dropEscapes (v.flatMap shield) = v.flatMap unshield := by
  induction v with
  | nil => rfl
  | cons c v ih =>
    have hrest : dropEscapes (c :: v.flatMap shield) = c :: v.flatMap unshield := by
      rw [dropEscapes_cons fun _ => head?_flatMap_shield v, ih]
    rw [List.flatMap_cons, List.flatMap_cons, unshield]
    by_cases hquote : c = '"'
    · subst hquote
      rw [if_pos rfl]
      exact congrArg _ ih
    · rw [if_neg hquote, shield]
      split
      · have hslash : ([c] ++ v.flatMap shield).head? ≠ some '"' := by simpa using hquote
        exact (dropEscapes_cons fun _ => hslash).trans (congrArg _ hrest)
      · exact hrest

theorem between?_quotes (s : List Char) : between? '"' ('"' :: (s ++ ['"'])) = some s := by
  simp [between?, dropHead?, dropTail?]

/-- Between its quotes a value is found whole. -/
theorem unquote_quote (v : List Char) : unquote (quote v) = v.flatMap unshield := by
  rw [unquote, quote, between?_quotes, Option.some_or, Option.getD_some, dropEscapes_flatMap_shield]

theorem trimEnd_quote (v : List Char) : trimEnd (quote v) = quote v :=
  trimEnd_append_cons (c := '"') rfl ('"' :: v.flatMap shield) []

theorem trim_quote (v : List Char) : trim (quote v) = quote v := by
  rw [trim, trimStart, quote, List.dropWhile_cons_of_neg (by decide)]
  exact trimEnd_quote v

theorem length_le_flatMap_unshield (v : List Char) : v.length ≤ (v.flatMap unshield).length := by
  induction v with
  | nil => exact Nat.le_refl _
  | cons c v ih =>
    have hc : 1 ≤ (unshield c).length := by
      rw [unshield, shield]
      split_ifs <;> simp
    rw [List.flatMap_cons, List.length_append, List.length_cons]
    omega

/-- A value is read as it is exactly if nothing in it but double quotes needs a backslash. -/
theorem flatMap_unshield_eq_iff :
    v.flatMap unshield = v ↔ ∀ c ∈ v, c ∈ shielded → c = '"' := by
  induction v with
  | nil => simp
  | cons c v ih =>
    rw [List.flatMap_cons, List.forall_mem_cons, ← ih, unshield]
    by_cases hquote : c = '"'
    · simp [hquote]
    · rw [if_neg hquote, shield]
      split
      · next hc =>
        refine ⟨fun h => ?_, fun h => absurd (h.1 hc) hquote⟩
        -- A backslash more than there was.
        have hlength := congrArg List.length h
        have := length_le_flatMap_unshield v
        simp only [List.length_append, List.length_cons, List.length_nil] at hlength
        omega
      · next hc => simp [hc]

end Values

/-! ### Rows -/

section Rows
variable {key value : List Char}

theorem Key.isWord (k : Key) : IsWord k.text.toList := by
  cases k <;> decide

theorem Key.not_mem (k : Key) : '#' ∉ k.text.toList ∧ '=' ∉ k.text.toList := by
  cases k <;> decide

theorem Key.text_injective {k k' : Key} (h : k.text = k'.text) : k = k' := by
  cases k <;> cases k' <;> first | rfl | exact absurd h (by decide)

/-- What counts of an assignment is an assignment, unless the key starts a comment. -/
theorem substance?_assignment (key value : List Char) :
    substance? (key ++ '=' :: value) = none ∨
      substance? (key ++ '=' :: value) = some (trimStart key ++ '=' :: trimEnd value) := by
  rw [substance?, trim_append_cons rfl]
  split
  · exact .inl rfl
  · exact .inl rfl
  · exact .inr rfl

theorem readLine_assignment (h : '=' ∉ key) (value : List Char) :
    readLine (trimStart key ++ '=' :: value) =
      .ok (String.ofList (trim key), String.ofList (unquote (trim value))) := by
  have hkey : '=' ∉ trimStart key := fun hmem => h ((List.dropWhile_sublist _).mem hmem)
  rw [readLine, splitFirst_append hkey]
  exact congrArg (fun key => Except.ok (String.ofList key, _)) (trim_trimStart key)

/-- A row that assigns a value counts, and it falls into the key and the value. -/
theorem readLine_assigns {k : Key} {v : String} {row : List Char} (h : Assigns (k, v) row) :
    ∃ body, substance? row = some body ∧ readLine body = .ok (k.text, readValue v) := by
  subst h
  refine ⟨_, (substance?_assignment _ _).resolve_left ?_, ?_⟩
  · obtain ⟨c, rest, hcons⟩ := List.exists_cons_of_ne_nil k.isWord.ne_nil
    have hc : c ∈ k.text.toList := hcons ▸ List.mem_cons_self
    have hsharp : c ≠ '#' := fun h => k.not_mem.1 (h ▸ hc)
    have hgap : ∀ c ∈ ([] : List Char), isBlank c = true := nofun
    have hcounts := substance?_of_ne hgap (k.isWord.not_blank c hc) hsharp
      (rest ++ '=' :: quote v.toList)
    rw [hcons]
    exact fun hnone => Option.some_ne_none _ (hcounts.symm.trans hnone)
  · rw [readLine_assignment k.not_mem.2, trimEnd_quote, trim_quote, unquote_quote,
      trim_of_forall_not k.isWord.not_blank, String.ofList_toList, readValue]

/-- Of a foreign row nothing is read, or a value of a key that is none of those kept. -/
theorem readLine_foreign {row : List Char} (h : Foreign row) : substance? row = none ∨
    ∃ body key v, substance? row = some body ∧ readLine body = .ok (key, v) ∧
      ∀ k : Key, key ≠ k.text := by
  rcases h with hsilent | ⟨key, value, rfl, hkey, hother⟩
  · exact .inl (substance?_of_silent hsilent)
  · refine (substance?_assignment key value).imp_right fun hbody => ?_
    refine ⟨_, _, _, hbody, readLine_assignment hkey _, fun k heq => hother k ?_⟩
    exact heq ▸ String.toList_ofList.symm

/-- An assignment sets the value of its key and leaves the others as they are. -/
theorem get_assign (k : Key) (release : OsRelease) (entry : String × String) :
    (release.assign entry).get k = if entry.1 = k.text then entry.2 else release.get k := by
  obtain ⟨key, value⟩ := entry
  by_cases hkey : ∃ k' : Key, key = k'.text
  · obtain ⟨k', rfl⟩ := hkey
    have hset : (release.assign (k'.text, value)).get k =
        if k' = k then value else release.get k := by
      cases k' <;> cases k <;> rfl
    rw [hset]
    exact if_congr ⟨congrArg Key.text, Key.text_injective⟩ rfl rfl
  · have hother : ∀ k' : Key, key ≠ k'.text := not_exists.1 hkey
    have hsame : release.assign (key, value) = release :=
      (if_neg (hother .id)).trans <| (if_neg (hother .name)).trans <|
        (if_neg (hother .versionId)).trans (if_neg (hother .prettyName))
    rw [hsame, if_neg (hother k)]

end Rows

/-! ### Releases -/

theorem valuesOf_cons {κ : Type} [DecidableEq κ] (k : κ) (entry : κ × String)
    (entries : List (κ × String)) : valuesOf k (entry :: entries) =
      if entry.1 = k then entry.2 :: valuesOf k entries else valuesOf k entries := by
  unfold valuesOf
  by_cases h : entry.1 = k <;> simp [h]

/-- After some assignments a key has the last value that they give it, or the one it had. -/
theorem get_foldl_assign (k : Key) (release : OsRelease) (all : List (String × String)) :
    (all.foldl assign release).get k = (valuesOf k.text all).getLast?.getD (release.get k) := by
  have hassign : ∀ (release : OsRelease) (entry : String × String), (release.assign entry).get k =
      if decide (entry.1 = k.text) then entry.2 else release.get k := by
    simpa only [decide_eq_true_eq] using get_assign k
  rw [valuesOf, List.getLast?_map]
  exact foldl_of_last (·.get k) hassign release all

/-- The assignments that are read of a release give its keys the values that are read. -/
theorem entries_of_release {entries : List (Key × String)} {rows : List (List Char)}
    (h : InRows Assigns Foreign entries rows) :
    ∃ all, (rows.filterMap substance?).mapM readLine = .ok all ∧
      ∀ k : Key, valuesOf k.text all = (valuesOf k entries).map readValue := by
  induction h with
  | nil => exact ⟨[], rfl, fun _ => rfl⟩
  | pass hrow _ ih =>
    rcases readLine_foreign hrow with hnone | ⟨body, key, v, hbody, hline, hother⟩
    · rwa [List.filterMap_cons_none hnone]
    · obtain ⟨all, hread, hall⟩ := ih
      rw [List.filterMap_cons_some hbody, List.mapM_cons, hline, hread]
      refine ⟨_, rfl, fun k => ?_⟩
      rw [valuesOf_cons, if_neg (hother k), hall]
  | @item entry _ _ _ hrow _ ih =>
    obtain ⟨key, v⟩ := entry
    obtain ⟨body, hbody, hline⟩ := readLine_assigns hrow
    obtain ⟨all, hread, hall⟩ := ih
    rw [List.filterMap_cons_some hbody, List.mapM_cons, hline, hread]
    refine ⟨_, rfl, fun k => ?_⟩
    have hkey : key.text = k.text ↔ key = k := ⟨Key.text_injective, congrArg Key.text⟩
    rw [valuesOf_cons, valuesOf_cons, hall, if_congr hkey rfl rfl]
    split <;> rfl

/-- **A release is read but for backslashes.** Each key has the last value assigned to it, with
the backslashes before double quotes gone and the others left in. So a value comes out as it went
in exactly if it holds no backslash, no dollar sign and no backtick. -/
theorem read_of_release {entries : List (Key × String)} {rows : List (List Char)}
    (h : InRows Assigns Foreign entries rows) (hrows : ∀ row ∈ rows, '\n' ∉ row) :
    ∃ release, read (ofRows rows) = .ok release ∧ ∀ k,
      release.get k = ((valuesOf k entries).getLast?.map readValue).getD "" ∧
      ∀ v, (valuesOf k entries).getLast? = some v →
        (release.get k = v ↔ ∀ c ∈ v.toList, c ∈ shielded → c = '"') := by
  obtain ⟨all, hread, hall⟩ := entries_of_release h
  refine ⟨all.foldl assign {}, ?_, fun k => ?_⟩
  · rw [read, filterMap_lines_ofRows rfl substance?_dropReturn hrows, hread]
    rfl
  · have hempty : ({} : OsRelease).get k = "" := by cases k <;> rfl
    have hget : (all.foldl assign {}).get k =
        ((valuesOf k entries).getLast?.map readValue).getD "" := by
      rw [get_foldl_assign, hall, List.getLast?_map, hempty]
    refine ⟨hget, fun v hv => ?_⟩
    rw [hget, hv, Option.map_some, Option.getD_some, ← flatMap_unshield_eq_iff, readValue,
      ← String.toList_inj, String.toList_ofList]

/-- The name is assigned twice and holds a backslash then; the other value holds a quote only. -/
theorem read_of_release_renamed :
    let text := "# os-release\nNAME=\"x\"\nPRETTY_NAME=\"5\\\" disk\"\n\nVERSION=1\n" ++
      "NAME=\"a\\\\b\"\n"
    let entries := [(Key.name, "x"), (.prettyName, "5\" disk"), (.name, "a\\b")]
    ∃ rows release, InRows Assigns Foreign entries rows ∧ text = ofRows rows ∧
      read text = .ok release ∧
      release.prettyName = "5\" disk" ∧ release.name ≠ "a\\b" ∧ release.id = "" := by
  intro text entries
  have hblank : Foreign [] := .inl (.inl nofun)
  have hcomment : Foreign "# os-release".toList :=
    .inl (.inr ⟨[], " os-release".toList, nofun, rfl⟩)
  have hother : Foreign "VERSION=1".toList := by
    refine .inr ⟨"VERSION".toList, ['1'], rfl, by decide, fun k => ?_⟩
    cases k <;> decide
  have hrelease : InRows Assigns Foreign entries _ := .pass hcomment (.item rfl (.item rfl
    (.pass hblank (.pass hother (.item rfl (.pass hblank .nil))))))
  obtain ⟨rows, hrelease, htext, hfeed⟩ : ∃ rows, InRows Assigns Foreign entries rows ∧
      text = ofRows rows ∧ ∀ row ∈ rows, '\n' ∉ row :=
    ⟨_, hrelease, by decide +kernel, by decide +kernel⟩
  obtain ⟨release, hread, hkeys⟩ := read_of_release hrelease hfeed
  refine ⟨rows, release, hrelease, htext, htext ▸ hread, ?_, ?_, (hkeys .id).1⟩
  · exact (hkeys .prettyName).1.trans (by decide)
  · intro hname
    exact absurd (((hkeys .name).2 _ rfl).1 hname '\\' (by decide) (by decide)) (by decide)

/-- A dollar sign comes back with the backslash that the quotes need before it. -/
theorem read_dollar_shielded :
    let text := "ID=\"x\"\nNAME=\"X\"\nVERSION_ID=\"1\"\nPRETTY_NAME=\"X for \\$5\"\n"
    let entries := [(Key.id, "x"), (.name, "X"), (.versionId, "1"), (.prettyName, "X for $5")]
    ∃ rows, InRows Assigns Foreign entries rows ∧ text = ofRows rows ∧
      read text = .ok ⟨"x", "X", "1", "X for \\$5"⟩ ∧ "X for \\$5" ≠ "X for $5" := by
  intro text entries
  have hblank : Foreign [] := .inl (.inl nofun)
  have hrelease : InRows Assigns Foreign entries _ :=
    .item rfl (.item rfl (.item rfl (.item rfl (.pass hblank .nil))))
  exact ⟨_, hrelease, by decide +kernel, by decide +kernel, by decide⟩

end HostInventory.Format.OsRelease
