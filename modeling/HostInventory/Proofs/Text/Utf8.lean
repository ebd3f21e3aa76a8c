import HostInventory.Text.Utf8
import Mathlib.Tactic.IntervalCases

/-! Text that is written as bytes is read back.

Each character is written as a leading byte, which says how many bytes follow it and carries the
highest bits, and the bytes that follow with six bits each. The decoder takes the leading byte for
what it is (`next_lead`), finds every byte that follows in its range (`next_inner`, `next_last`),
and so ends where it began with one character more (`foldl_encodeChar`). A text comes back as it
was, with no fault in it (`decode_encode`). -/
namespace HostInventory.Text.Utf8

/-! ### Leading bytes -/

theorem start_two {k : Nat} (hlow : 2 ≤ k) (hhigh : k < 32) :
    start (k + 0xC0) = .inr ⟨k, 1, 0x80, 0xBF⟩ := by
  rw [start, if_neg (by omega), if_pos (by omega), Nat.add_sub_cancel]

/-- Of three bytes the second is bounded from below where fewer would be enough, and from above
where no character is. -/
theorem start_three {k : Nat} (h : k < 16) : start (k + 0xE0) =
    .inr ⟨k, 2, if k = 0 then 0xA0 else 0x80, if k = 0xD then 0x9F else 0xBF⟩ := by
  interval_cases k <;> rfl

/-- Of four bytes the second is bounded from below where fewer would be enough, and from above
where the last character is. -/
theorem start_four {k : Nat} (h : k < 5) : start (k + 0xF0) =
    .inr ⟨k, 3, if k = 0 then 0x90 else 0x80, if k = 4 then 0x8F else 0xBF⟩ := by
  interval_cases k <;> rfl

theorem next_lead {read : List (Option Char)} {n : Nat} (hn : n < 256) {p : Pending}
    (h : start n = .inr p) : Decoder.next ⟨read, none⟩ (UInt8.ofNat n) = ⟨read, some p⟩ := by
  rw [Decoder.next, UInt8.toNat_ofNat_of_lt' hn]
  simp only [Decoder.begin, h]

/-! ### Bytes that follow -/

section Following
variable {read : List (Option Char)} {p : Pending} {k : Nat}

/-- One of several bytes that are owed. -/
theorem next_inner (howed : 1 < p.owed) (hk : k < 64) (hlow : p.low ≤ k + 0x80)
    (hhigh : k + 0x80 ≤ p.high) : Decoder.next ⟨read, some p⟩ (UInt8.ofNat (k + 0x80)) =
      ⟨read, some ⟨p.bits * 64 + k, p.owed - 1, 0x80, 0xBF⟩⟩ := by
  have hbyte : (UInt8.ofNat (k + 0x80)).toNat = k + 0x80 :=
    UInt8.toNat_ofNat_of_lt' (show k + 0x80 < 256 by omega)
  have hbits : (k + 0x80) % 64 = k := by omega
  simp only [Decoder.next, hbyte, hbits]
  rw [if_pos ⟨hlow, hhigh⟩, if_neg (by omega)]

/-- The only byte that is owed. -/
theorem next_last (howed : p.owed = 1) (hk : k < 64) (hlow : p.low ≤ k + 0x80)
    (hhigh : k + 0x80 ≤ p.high) : Decoder.next ⟨read, some p⟩ (UInt8.ofNat (k + 0x80)) =
      ⟨some (Char.ofNat (p.bits * 64 + k)) :: read, none⟩ := by
  have hbyte : (UInt8.ofNat (k + 0x80)).toNat = k + 0x80 :=
    UInt8.toNat_ofNat_of_lt' (show k + 0x80 < 256 by omega)
  have hbits : (k + 0x80) % 64 = k := by omega
  simp only [Decoder.next, hbyte, hbits]
  rw [if_pos ⟨hlow, hhigh⟩, if_pos (by omega)]

end Following

/-! ### Characters

The number of a character, as one to four bytes. -/

section Characters
variable (read : List (Option Char)) {v : Nat}

theorem foldl_one (h : v ≤ 0x7F) :
    [UInt8.ofNat v].foldl Decoder.next ⟨read, none⟩ = ⟨some (Char.ofNat v) :: read, none⟩ := by
  have hstart : start v = .inl (some (Char.ofNat v)) := if_pos (by omega)
  rw [List.foldl_cons, Decoder.next, UInt8.toNat_ofNat_of_lt' (show v < 256 by omega)]
  simp only [Decoder.begin, hstart, List.foldl_nil]

theorem foldl_two (hlow : 0x7F < v) (hhigh : v ≤ 0x7FF) :
    [UInt8.ofNat (v / 64 % 32 + 0xC0), UInt8.ofNat (v % 64 + 0x80)].foldl Decoder.next
      ⟨read, none⟩ = ⟨some (Char.ofNat v) :: read, none⟩ := by
  have hlead : v / 64 % 32 = v / 64 := by omega
  have hbits : v / 64 * 64 + v % 64 = v := by omega
  rw [hlead, List.foldl_cons, next_lead (by omega) (start_two (by omega) (by omega)),
    List.foldl_cons, next_last rfl (by omega) (by dsimp only; omega) (by dsimp only; omega),
    List.foldl_nil, hbits]

theorem foldl_three (hlow : 0x7FF < v) (hhigh : v ≤ 0xFFFF) (hvalid : v < 0xD800 ∨ 0xDFFF < v) :
    [UInt8.ofNat (v / 4096 % 16 + 0xE0), UInt8.ofNat (v / 64 % 64 + 0x80),
      UInt8.ofNat (v % 64 + 0x80)].foldl Decoder.next ⟨read, none⟩ =
        ⟨some (Char.ofNat v) :: read, none⟩ := by
  have hlead : v / 4096 % 16 = v / 4096 := by omega
  have hbits : (v / 4096 * 64 + v / 64 % 64) * 64 + v % 64 = v := by omega
  have hfrom : (if v / 4096 = 0 then 0xA0 else 0x80) ≤ v / 64 % 64 + 0x80 := by
    split <;> omega
  have hto : v / 64 % 64 + 0x80 ≤ if v / 4096 = 0xD then 0x9F else 0xBF := by
    split <;> omega
  rw [hlead, List.foldl_cons, next_lead (by omega) (start_three (by omega)),
    List.foldl_cons, next_inner Nat.one_lt_two (by omega) hfrom hto,
    List.foldl_cons, next_last rfl (by omega) (by dsimp only; omega) (by dsimp only; omega),
    List.foldl_nil, hbits]

theorem foldl_four (hlow : 0xFFFF < v) (hhigh : v < 0x110000) :
    [UInt8.ofNat (v / 262144 % 8 + 0xF0), UInt8.ofNat (v / 4096 % 64 + 0x80),
      UInt8.ofNat (v / 64 % 64 + 0x80), UInt8.ofNat (v % 64 + 0x80)].foldl Decoder.next
        ⟨read, none⟩ = ⟨some (Char.ofNat v) :: read, none⟩ := by
  have hlead : v / 262144 % 8 = v / 262144 := by omega
  have hbits : ((v / 262144 * 64 + v / 4096 % 64) * 64 + v / 64 % 64) * 64 + v % 64 = v := by
    omega
  have hfrom : (if v / 262144 = 0 then 0x90 else 0x80) ≤ v / 4096 % 64 + 0x80 := by
    split <;> omega
  have hto : v / 4096 % 64 + 0x80 ≤ if v / 262144 = 4 then 0x8F else 0xBF := by
    split <;> omega
  rw [hlead, List.foldl_cons, next_lead (by omega) (start_four (by omega)),
    List.foldl_cons, next_inner (show 1 < 3 by decide) (by omega) hfrom hto,
    List.foldl_cons, next_inner Nat.one_lt_two (by omega) (by dsimp only; omega)
      (by dsimp only; omega),
    List.foldl_cons, next_last rfl (by omega) (by dsimp only; omega) (by dsimp only; omega),
    List.foldl_nil, hbits]

/-- Between two characters, the bytes of one are read as that character. -/
theorem foldl_encodeChar (c : Char) :
    (String.utf8EncodeChar c).foldl Decoder.next ⟨read, none⟩ = ⟨some c :: read, none⟩ := by
  -- No character is a surrogate, and none lies beyond the last.
  have hvalid : c.val.toNat < 0xD800 ∨ 0xDFFF < c.val.toNat ∧ c.val.toNat < 0x110000 := c.valid
  have hc : Char.ofNat c.val.toNat = c := Char.ofNat_toNat c
  unfold String.utf8EncodeChar
  dsimp only
  generalize c.val.toNat = v at hvalid hc ⊢
  subst hc
  split
  · next h => exact foldl_one read h
  · next hone =>
    split
    · next h => exact foldl_two read (by omega) h
    · next htwo =>
      split
      · next h => exact foldl_three read (by omega) h (by omega)
      · exact foldl_four read (by omega) (by omega)

end Characters

/-! ### Texts -/

theorem foldl_encode (read : List (Option Char)) (s : List Char) :
    (encode s).foldl Decoder.next ⟨read, none⟩ = ⟨(s.map some).reverse ++ read, none⟩ := by
  induction s generalizing read with
  | nil => rfl
  | cons c s ih =>
    rw [encode, List.flatMap_cons, List.foldl_append, foldl_encodeChar, ← encode, ih,
      List.map_cons, List.reverse_cons, List.append_assoc, List.singleton_append]

/-- A text is read back without a fault. -/
theorem decode_encode (s : List Char) : decode (encode s) = s.map some := by
  simp only [decode, foldl_encode, Option.isSome_none, Bool.false_eq_true, if_false,
    List.append_nil, List.reverse_reverse]

theorem decodeLossy_encode (s : List Char) : decodeLossy (encode s) = String.ofList s := by
  rw [decodeLossy, decode_encode, List.map_map]
  exact congrArg String.ofList (List.map_id s)

end HostInventory.Text.Utf8
