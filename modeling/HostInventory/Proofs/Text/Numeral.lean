import HostInventory.Text.Numeral

/-! Numerals that are printed are read back.

A number is printed without a sign and without leading zeros, so its digits have its value
(`decimalValue_toDigits`), reading them gives the number whenever it lies below the bound
(`readNumeral_toString`), and no two numbers are printed alike.

In base sixteen the bound is checked digit by digit. Since a further digit makes no number
smaller, that is the check of the whole number, and what is read is any numeral below the
bound and nothing else (`readHexadecimal_eq_ok_iff`). -/
namespace HostInventory.Text

/-- The digits of a number have its value. -/
theorem decimalValue_toDigits (n : Nat) : decimalValue (Nat.toDigits 10 n) = n := by
  rw [decimalValue, ← Nat.ofDigitChars_eq_foldl]
  exact Nat.ofDigitChars_ten_toDigits

theorem isDigit_of_mem_toDigits {n : Nat} : ∀ c ∈ Nat.toDigits 10 n, c.isDigit = true :=
  fun _ hc => Nat.isDigit_of_mem_toDigits (by decide) (by decide) hc

theorem dropPlus_toDigits (n : Nat) : dropPlus (Nat.toDigits 10 n) = Nat.toDigits 10 n := by
  unfold dropPlus
  split
  · next rest hd =>
    have hplus : '+' ∈ Nat.toDigits 10 n := by
      rw [hd]
      exact List.mem_cons_self
    exact absurd (isDigit_of_mem_toDigits _ hplus) (by decide)
  · rfl

/-- A number below the bound is read back. -/
theorem readNumeral_toString {bound n : Nat} (h : n < bound) :
    readNumeral bound (toString n).toList = some n := by
  have hlist : (toString n).toList = Nat.toDigits 10 n := Nat.toList_repr
  have hne : (Nat.toDigits 10 n).isEmpty = false := by
    rw [List.isEmpty_eq_false_iff]
    exact Nat.toDigits_ne_nil
  have hall : (Nat.toDigits 10 n).all Char.isDigit = true :=
    List.all_eq_true.2 isDigit_of_mem_toDigits
  rw [hlist]
  simp only [readNumeral, dropPlus_toDigits, hne, hall, decimalValue_toDigits, h, Bool.not_false,
    Bool.and_self, decide_true, if_true]

theorem toString_injective {m n : Nat} (h : toString m = toString n) : m = n := by
  have hdigits : Nat.toDigits 10 m = Nat.toDigits 10 n := by
    rw [← Nat.toList_repr, ← Nat.toList_repr]
    exact congrArg String.toList h
  rw [← decimalValue_toDigits m, hdigits, decimalValue_toDigits]

/-! ### Numerals in base sixteen -/

/-- The value of a row of digits in base sixteen. -/
def hexadecimalValue (digits : List Nat) : Nat :=
  digits.foldl (fun n d => 16 * n + d) 0

/-- The text writes a number in base sixteen: a digit or more, in either case of letters, and
perhaps a plus sign in front. -/
def WritesHexadecimal (s : List Char) (n : Nat) : Prop :=
  ∃ sign row digits, (sign = [] ∨ sign = ['+']) ∧ s = sign ++ row ∧ row ≠ [] ∧
    row.map hexDigit? = digits.map some ∧ hexadecimalValue digits = n

/-- Further digits make no number smaller. -/
theorem le_foldl_digits (n : Nat) (digits : List Nat) :
    n ≤ digits.foldl (fun n d => 16 * n + d) n := by
  induction digits generalizing n with
  | nil => exact Nat.le_refl n
  | cons d digits ih => exact Nat.le_trans (by omega) (ih (16 * n + d))

theorem foldlM_pushHexDigit_eq_ok_iff {bound n m : Nat} (h : n < bound) {s : List Char} :
    s.foldlM (pushHexDigit bound) n = .ok m ↔
      ∃ digits : List Nat, s.map hexDigit? = digits.map some ∧
        digits.foldl (fun n d => 16 * n + d) n = m ∧ m < bound := by
  induction s generalizing n with
  | nil =>
    constructor
    · intro hm
      cases Except.ok.inj hm
      exact ⟨[], rfl, rfl, h⟩
    · rintro ⟨digits, hdigits, hm, -⟩
      rw [List.map_nil, List.nil_eq, List.map_eq_nil_iff] at hdigits
      subst hdigits
      exact congrArg Except.ok hm
  | cons c s ih =>
    rw [List.foldlM_cons, pushHexDigit]
    cases hc : hexDigit? c with
    | none =>
      refine iff_of_false nofun ?_
      rintro ⟨digits, hdigits, -⟩
      cases digits with
      | nil => cases hdigits
      | cons d digits =>
        rw [List.map_cons, hc] at hdigits
        cases hdigits
    | some d =>
      have hcons : (∃ digits : List Nat, (c :: s).map hexDigit? = digits.map some ∧
            digits.foldl (fun n d => 16 * n + d) n = m ∧ m < bound) ↔
          ∃ digits : List Nat, s.map hexDigit? = digits.map some ∧
            digits.foldl (fun n d => 16 * n + d) (16 * n + d) = m ∧ m < bound := by
        constructor
        · rintro ⟨digits, hdigits, hm⟩
          cases digits with
          | nil => cases hdigits
          | cons d' digits =>
            rw [List.map_cons, hc] at hdigits
            obtain ⟨rfl, hrest⟩ : d = d' ∧ s.map hexDigit? = digits.map some := by
              simpa using hdigits
            exact ⟨digits, hrest, hm⟩
        · rintro ⟨digits, hdigits, hm⟩
          exact ⟨d :: digits, by rw [List.map_cons, List.map_cons, hc, hdigits], hm⟩
      rw [hcons]
      dsimp only
      split
      · next hlt => exact ih hlt
      · next hge =>
        refine iff_of_false nofun ?_
        rintro ⟨digits, -, hm, hlt⟩
        exact hge (Nat.lt_of_le_of_lt (hm ▸ le_foldl_digits _ digits) hlt)

theorem writesHexadecimal_iff {s : List Char} {n : Nat} :
    WritesHexadecimal s n ↔ dropPlus s ≠ [] ∧
      ∃ digits : List Nat, (dropPlus s).map hexDigit? = digits.map some ∧ hexadecimalValue digits = n := by
  have hplus : hexDigit? '+' = none := rfl
  unfold dropPlus
  split
  · next rest =>
    constructor
    · rintro ⟨sign, row, digits, rfl | rfl, hs, hne, hdigits, hn⟩
      · rw [← (show '+' :: rest = row from hs), List.map_cons, hplus] at hdigits
        cases digits <;> cases hdigits
      · obtain rfl : rest = row := (List.cons.inj hs).2
        exact ⟨hne, digits, hdigits, hn⟩
    · rintro ⟨hne, digits, hdigits, hn⟩
      exact ⟨['+'], rest, digits, .inr rfl, rfl, hne, hdigits, hn⟩
  · next hsign =>
    constructor
    · rintro ⟨sign, row, digits, rfl | rfl, rfl, hne, hdigits, hn⟩
      · exact ⟨hne, digits, hdigits, hn⟩
      · exact absurd rfl (hsign row)
    · rintro ⟨hne, digits, hdigits, hn⟩
      exact ⟨[], s, digits, .inl rfl, rfl, hne, hdigits, hn⟩

/-- What is read in base sixteen are the numerals below the bound. -/
theorem readHexadecimal_eq_ok_iff {bound : Nat} (h : 0 < bound) {s : List Char} {n : Nat} :
    readHexadecimal bound s = .ok n ↔ WritesHexadecimal s n ∧ n < bound := by
  rw [writesHexadecimal_iff]
  unfold readHexadecimal
  split
  · exact iff_of_false nofun fun h => h.1.1 rfl
  · exact iff_of_false nofun fun h => h.1.1 rfl
  · next hnil hsign =>
    have hne : dropPlus s ≠ [] := by
      unfold dropPlus
      split
      · next rest => exact fun he => hsign (he ▸ rfl)
      · exact hnil
    rw [foldlM_pushHexDigit_eq_ok_iff h]
    constructor
    · rintro ⟨digits, hdigits, hn, hlt⟩
      exact ⟨⟨hne, digits, hdigits, hn⟩, hlt⟩
    · rintro ⟨⟨-, digits, hdigits, hn⟩, hlt⟩
      exact ⟨digits, hdigits, hn, hlt⟩

end HostInventory.Text
