import HostInventory.Proofs.Format.Stanzas
import HostInventory.Proofs.Text.Numeral
import HostInventory.Proofs.Text.Words

/-! Databases of packages as they are written.

A package is written as a stanza: rows that state its fields, in any order, among rows of other
fields and continuations of what stands above them (`Stanza`). A field that is empty or zero need
not be stated. A database is stanzas with one blank row or more between them (`Database`). Within a
stanza the reader holds what has been stated so far and nothing else (`finish?_states`), so at its
end it holds the package, and reading gives back the packages of the database in their order,
whatever stands among their fields (`read_of_database`). -/
namespace HostInventory.Format.PackageDatabase

open Text

/-- What a database says of a package. -/
inductive Field
  | name | status | version | architecture | maintainer | installedSize | summary
deriving DecidableEq, Repr

namespace Field

def key : Field → String
  | .name => "Package"
  | .status => "Status"
  | .version => "Version"
  | .architecture => "Architecture"
  | .maintainer => "Maintainer"
  | .installedSize => "Installed-Size"
  | .summary => "Description"

def value (p : Package) : Field → String
  | .name => p.name
  | .status => p.status
  | .version => p.version
  | .architecture => p.architecture
  | .maintainer => p.maintainer
  | .installedSize => toString p.installedSize
  | .summary => p.summary

/-- The row that states a field. -/
def row (p : Package) (f : Field) : List Char :=
  f.key.toList ++ ':' :: ' ' :: (f.value p).toList

/-- The package `q` with one field as `p` has it. -/
def copy (p q : Package) : Field → Package
  | .name => { q with name := p.name }
  | .status => { q with status := p.status }
  | .version => { q with version := p.version }
  | .architecture => { q with architecture := p.architecture }
  | .maintainer => { q with maintainer := p.maintainer }
  | .installedSize => { q with installedSize := p.installedSize }
  | .summary => { q with summary := p.summary }

end Field

/-- A package that can be written: it has a name, no text begins or ends with a blank, and its size
fits into 64 bits. -/
structure Plain (p : Package) : Prop where
  named : p.name ≠ ""
  trimmed : ∀ f : Field, f ≠ .installedSize → trim (f.value p).toList = (f.value p).toList
  size : p.installedSize < wordBound64

/-- A row that goes on with the field above it, and is not blank. -/
def Continues (row : List Char) : Prop :=
  ∃ c rest, row = c :: rest ∧ (c = ' ' ∨ c = '\t') ∧ ∃ d ∈ rest, isBlank d = false

/-- A row of a field that is none of a package's. -/
def Other (row : List Char) : Prop :=
  ∃ key value, row = key ++ ':' :: value ∧ ':' ∉ key ∧ ∀ f : Field, String.ofList key ≠ f.key

/-- The rows state these fields of the package in this order, among others that state none. -/
inductive States (p : Package) : List Field → List (List Char) → Prop where
  | nil : States p [] []
  | field (f : Field) {fs : List Field} {rows : List (List Char)} :
      States p fs rows → States p (f :: fs) (f.row p :: rows)
  | other {row : List Char} {fs : List Field} {rows : List (List Char)} :
      Other row ∨ Continues row → States p fs rows → States p fs (row :: rows)

/-- The rows are a stanza of the package: what they do not state is empty or zero. -/
def Stanza (p : Package) (rows : List (List Char)) : Prop :=
  ∃ fs, States p fs rows ∧ ∀ f, f ∉ fs → f.value p = f.value {}

/-- The rows are stanzas of the packages with one blank row or more between any two of them. -/
inductive Database : List Package → List (List Char) → Prop where
  | nil : Database [] []
  | between {row : List Char} {ps : List Package} {rows : List (List Char)} :
      (∀ c ∈ row, isBlank c = true) ∨ Continues row → Database ps rows → Database ps (row :: rows)
  | stanza {p : Package} {stanza : List (List Char)} {blank : List Char} {ps : List Package}
      {rows : List (List Char)} : Stanza p stanza → (∀ c ∈ blank, isBlank c = true) →
      Database ps rows → Database (p :: ps) (stanza ++ blank :: rows)
  | last {p : Package} {stanza : List (List Char)} : Stanza p stanza → Database [p] stanza

/-! ### Fields -/

namespace Field
variable {p q : Package}

theorem ext (h : ∀ f : Field, f.value p = f.value q) : p = q := by
  have hsize : p.installedSize = q.installedSize := toString_injective (h .installedSize)
  obtain ⟨⟩ := p
  obtain ⟨⟩ := q
  simp only [Package.mk.injEq]
  exact ⟨h .name, h .status, h .version, h .architecture, h .maintainer, hsize, h .summary⟩

theorem value_copy (f g : Field) :
    g.value (f.copy p q) = if g = f then g.value p else g.value q := by
  cases f <;> cases g <;> rfl

/-- Fields that are copied one by one are as in the one package, and the others as in the other. -/
theorem value_foldl_copy (fs : List Field) (q : Package) (g : Field) :
    g.value (fs.foldl (fun q f => f.copy p q) q) = if g ∈ fs then g.value p else g.value q := by
  induction fs generalizing q with
  | nil => rfl
  | cons f fs ih =>
    rw [List.foldl_cons, ih, value_copy]
    by_cases hg : g ∈ fs
    · rw [if_pos hg, if_pos (List.mem_cons_of_mem f hg)]
    · simp only [if_neg hg, List.mem_cons, or_iff_left hg]

/-- A text of a field is read as that field. -/
theorem setField_value (hsize : p.installedSize < wordBound64) (f : Field) :
    setField q f.key (f.value p).toList = f.copy p q := by
  cases f with
  | installedSize =>
    show { q with installedSize :=
      (readNumeral wordBound64 (toString p.installedSize).toList).getD 0 } = _
    rw [readNumeral_toString hsize]
    rfl
  | _ => simp [setField, key, value, copy]

theorem setField_of_ne {key : String} (h : ∀ f : Field, key ≠ f.key) (value : List Char) :
    setField q key value = q :=
  (if_neg (h .name)).trans <| (if_neg (h .status)).trans <| (if_neg (h .version)).trans <|
    (if_neg (h .architecture)).trans <| (if_neg (h .maintainer)).trans <|
      (if_neg (h .installedSize)).trans (if_neg (h .summary))

theorem trim_value (hp : Plain p) (f : Field) : trim (f.value p).toList = (f.value p).toList := by
  by_cases hf : f = .installedSize
  · subst hf
    have hdigits : (toString p.installedSize).toList = Nat.toDigits 10 p.installedSize :=
      Nat.toList_repr
    refine trim_of_forall_not fun c hc => isBlank_of_isDigit ?_
    exact isDigit_of_mem_toDigits c (hdigits ▸ hc)
  · exact hp.trimmed f hf

end Field

/-! ### One row -/

namespace Reader
variable {p : Package} {row : List Char}

theorem next_blank (r : Reader) (h : ∀ c ∈ row, isBlank c = true) :
    (r.next row).toOption = r.close.toOption := by
  rw [toOption_next, trim_eq_nil_iff.2 h]
  rfl

theorem next_continues (r : Reader) (h : Continues row) : (r.next row).toOption = some r := by
  obtain ⟨c, rest, rfl, hc, d, hd, hblank⟩ := h
  have hhead : isContinuation (c :: rest) = true := by
    rcases hc with rfl | rfl <;> rfl
  rw [toOption_next, isEmpty_trim (List.mem_cons_of_mem c hd) hblank, hhead]
  rfl

/-- A row with a colon is a field unless it goes on with the field above it. -/
theorem next_field (r : Reader) {key value : List Char} (hkey : ':' ∉ key)
    (hhead : isContinuation (key ++ ':' :: value) = false) :
    (r.next (key ++ ':' :: value)).toOption = some { r with
      current := some (setField (r.current.getD {}) (String.ofList key) (trim value)) } := by
  rw [toOption_next, isEmpty_trim List.mem_append_cons_self rfl, hhead, splitFirst_append hkey]
  rfl

theorem next_row (hp : Plain p) (r : Reader) (f : Field) :
    (r.next (f.row p)).toOption = some { r with current := some (f.copy p (r.current.getD {})) } := by
  have hkey : ':' ∉ f.key.toList := by cases f <;> decide
  have hhead : isContinuation (f.row p) = false := by cases f <;> rfl
  have hspace : ∀ c ∈ [' '], isBlank c = true := List.forall_mem_singleton.2 rfl
  have htrim : trim (' ' :: (f.value p).toList) = (f.value p).toList :=
    (trim_append_left hspace _).trans (Field.trim_value hp f)
  rw [Field.row, next_field r hkey hhead, htrim, String.ofList_toList, Field.setField_value hp.size]

/-- A row that states nothing of the package leaves what has been stated. -/
theorem next_other (r : Reader) (h : Other row ∨ Continues row) :
    ∃ current, (r.next row).toOption = some { r with current } ∧
      current.getD {} = r.current.getD {} := by
  rcases h with ⟨key, value, rfl, hkey, hother⟩ | hcontinues
  · cases hhead : isContinuation (key ++ ':' :: value) with
    | false =>
      refine ⟨_, next_field r hkey hhead, ?_⟩
      rw [Field.setField_of_ne hother]
      rfl
    | true =>
      refine ⟨r.current, ?_, rfl⟩
      rw [toOption_next, isEmpty_trim List.mem_append_cons_self rfl, hhead]
      rfl
  · exact ⟨r.current, next_continues r hcontinues, rfl⟩

/-! ### Rows in a row -/

/-- Behind some rows of a stanza the reader holds what they have stated. -/
theorem finish?_states (hp : Plain p) {fs : List Field} {rows : List (List Char)}
    (h : States p fs rows) (r : Reader) (tail : List (List Char)) :
    ∃ current, r.finish? (rows ++ tail) = finish? { r with current } tail ∧
      current.getD {} = fs.foldl (fun q f => f.copy p q) (r.current.getD {}) := by
  induction h generalizing r with
  | nil => exact ⟨r.current, rfl, rfl⟩
  | field f _ ih =>
    obtain ⟨current, hfinish, hcurrent⟩ := ih { r with current := some (f.copy p (r.current.getD {})) }
    refine ⟨current, ?_, hcurrent⟩
    rw [List.cons_append, finish?, next_row hp, Option.bind_some, hfinish]
  | other hrow _ ih =>
    obtain ⟨held, hnext, hheld⟩ := next_other r hrow
    obtain ⟨current, hfinish, hcurrent⟩ := ih { r with current := held }
    refine ⟨current, ?_, ?_⟩
    · rw [List.cons_append, finish?, hnext, Option.bind_some, hfinish]
    · rw [hcurrent, hheld]

/-- Behind a stanza the reader holds its package. -/
theorem finish?_stanza (hp : Plain p) {stanza : List (List Char)} (h : Stanza p stanza)
    (closed : List Package) (tail : List (List Char)) :
    finish? ⟨closed, none⟩ (stanza ++ tail) = finish? ⟨closed, some p⟩ tail := by
  obtain ⟨fs, hstates, hrest⟩ := h
  obtain ⟨current, hfinish, hcurrent⟩ := finish?_states hp hstates ⟨closed, none⟩ tail
  have hall : fs.foldl (fun q f => f.copy p q) {} = p := by
    refine Field.ext fun f => ?_
    rw [Field.value_foldl_copy]
    split
    · rfl
    · next hf => exact (hrest f hf).symm
  rw [hfinish]
  cases current with
  | none => exact absurd (congrArg Package.name (hcurrent.trans hall)).symm hp.named
  | some q => rw [show q = p from hcurrent.trans hall]

theorem close_of_plain (hp : Plain p) (closed : List Package) :
    close ⟨closed, some p⟩ = .ok ⟨p :: closed, none⟩ :=
  if_neg hp.named

/-- Behind a database the reader has closed its packages. -/
theorem finish?_database {ps : List Package} {rows : List (List Char)} (h : Database ps rows)
    (hp : ∀ p ∈ ps, Plain p) (closed : List Package) :
    finish? ⟨closed, none⟩ rows = some ⟨ps.reverse ++ closed, none⟩ := by
  induction h generalizing closed with
  | nil => rfl
  | between hrow _ ih =>
    have hnext := hrow.elim (next_blank ⟨closed, none⟩) (next_continues ⟨closed, none⟩)
    rw [finish?, hnext]
    exact ih hp closed
  | @stanza p _ _ ps _ hstanza hblank _ ih =>
    obtain ⟨hplain, hp⟩ := List.forall_mem_cons.1 hp
    rw [finish?_stanza hplain hstanza, finish?, next_blank _ hblank, close_of_plain hplain]
    refine (ih hp (p :: closed)).trans ?_
    rw [List.reverse_cons, List.append_assoc, List.singleton_append]
  | @last p stanza hstanza =>
    have hplain := hp p List.mem_cons_self
    have hfinish := finish?_stanza hplain hstanza closed []
    rw [List.append_nil] at hfinish
    rw [hfinish, finish?, close_of_plain hplain]
    rfl

theorem finish?_map_dropReturn (r : Reader) (rows : List (List Char)) :
    r.finish? (rows.map dropReturn) = r.finish? rows := by
  induction rows generalizing r with
  | nil => rfl
  | cons row rest ih =>
    rw [List.map_cons, finish?, finish?, toOption_next_dropReturn]
    exact congrArg _ (funext ih)

/-- The lines of a text come to what its rows do. -/
theorem finish?_ofRows (r : Reader) {rows : List (List Char)} (h : ∀ row ∈ rows, '\n' ∉ row) :
    r.finish? (lines (ofRows rows).toList) = r.finish? rows := by
  rw [ofRows, String.toList_ofList]
  by_cases hne : rows = []
  · subst hne
    rfl
  · rw [← finish?_pieces, pieces_joinWith hne h, finish?_map_dropReturn]

end Reader

/-! ### Databases -/

/-- **A database is read as it is written**, whatever the order of the fields, the ones left
out, the other fields and the continuations, which may look like fields. A package counts as
installed exactly if its status is `install ok installed`. -/
theorem read_of_database {ps : List Package} {rows : List (List Char)} (h : Database ps rows)
    (hp : ∀ p ∈ ps, Plain p) (hrows : ∀ row ∈ rows, '\n' ∉ row) :
    read (ofRows rows) = .ok ps ∧
      ∀ p ∈ ps, p.isInstalled = true ↔ p.status = "install ok installed" := by
  refine ⟨?_, fun p _ => decide_eq_true_iff⟩
  have hread : (read (ofRows rows)).toOption = some ps := by
    rw [toOption_read, Reader.finish?_ofRows _ hrows, Reader.finish?_database h hp, Option.map_some,
      List.append_nil, List.reverse_reverse]
  cases hresult : read (ofRows rows) with
  | error e => cases hresult ▸ hread
  | ok all => rw [hresult] at hread; exact congrArg _ (Option.some.inj hread)

/-- The fields stand in another order, one is of no package, one row only looks like a field, and
two blank rows stand between the stanzas. -/
theorem read_of_database_rearranged :
    let text := "Installed-Size: 1864\n Package: other\nStatus: install ok installed\n" ++
      "Essential: yes\nPackage: bash\nVersion: 1:5.2\n\n \t\n" ++
      "Package: nano\nStatus: deinstall ok config-files\n"
    let bash : Package := {
      name := "bash", status := "install ok installed", version := "1:5.2", installedSize := 1864 }
    let nano : Package := { name := "nano", status := "deinstall ok config-files" }
    ∃ rows, text = ofRows rows ∧ Database [bash, nano] rows ∧ read text = .ok [bash, nano] ∧
      bash.isInstalled = true ∧ nano.isInstalled = false := by
  intro text bash nano
  let stanza : List (List Char) := [Field.row bash .installedSize, " Package: other".toList,
    Field.row bash .status, "Essential: yes".toList, Field.row bash .name, Field.row bash .version]
  let next : List (List Char) := [Field.row nano .name, Field.row nano .status]
  have hstanza : Stanza bash stanza := by
    refine ⟨_, .field .installedSize (.other (.inr ⟨' ', _, rfl, .inl rfl, 'P', by decide, rfl⟩)
      (.field .status (.other (.inl ⟨"Essential".toList, " yes".toList, rfl, by decide, ?_⟩)
        (.field .name (.field .version .nil))))), ?_⟩
    · intro f
      cases f <;> decide
    · intro f hf
      cases f <;> first | rfl | exact absurd hf (by decide)
  have hnext : Stanza nano next := by
    refine ⟨_, .field .name (.field .status .nil), fun f hf => ?_⟩
    cases f <;> first | rfl | exact absurd hf (by decide)
  have hall : Database [bash, nano] (stanza ++ [] :: " \t".toList :: (next ++ [] :: [])) :=
    .stanza hstanza nofun (.between (.inl (List.all_eq_true.1 (by decide)))
      (.stanza hnext nofun .nil))
  have htext : text = ofRows (stanza ++ [] :: " \t".toList :: (next ++ [] :: [])) := by
    decide +kernel
  have hplain : ∀ p ∈ [bash, nano], Plain p := by
    simp only [List.forall_mem_cons, List.not_mem_nil, false_implies, implies_true, and_true]
    constructor
    · exact ⟨by decide, fun f _ => by cases f <;> decide +kernel, by decide⟩
    · exact ⟨by decide, fun f _ => by cases f <;> decide +kernel, by decide⟩
  obtain ⟨hread, hinstalled⟩ := read_of_database hall hplain (by decide +kernel)
  refine ⟨_, htext, hall, htext ▸ hread, (hinstalled bash (by simp)).2 rfl, ?_⟩
  exact Bool.eq_false_iff.2 fun h => absurd ((hinstalled nano (by simp)).1 h) (by decide)

end HostInventory.Format.PackageDatabase
