import HostInventory.Proofs.Text.Utf8
import Mathlib.Data.List.Basic
import Mathlib.Data.String.Basic

/-! Texts in the order of their bytes.

The bytes of a character are its number in base 64, the highest digit in a leading byte that also
says how many bytes there are (`utf8EncodeChar_eq`). Numbers of as many bytes are in order by their
digits (`digits_lt`), and of fewer bytes is the smaller number, which its leading byte shows
(`lead_lt`). So the first byte that differs puts two texts into the order of the first characters
that differ (`bytes_lt_iff`). -/
namespace HostInventory.Text.Utf8

/-- The bytes of a text. -/
def bytes (s : String) : List UInt8 :=
  encode s.toList

theorem bytes_injective {a b : String} (h : bytes a = bytes b) : a = b := by
  have hdecoded := congrArg decode h
  rw [bytes, bytes, decode_encode, decode_encode] at hdecoded
  exact String.toList_inj.1 (List.map_injective_iff.2 (Option.some_injective _) hdecoded)

/-! ### Characters as digits -/

/-- How many bytes follow the leading one. -/
def width (v : Nat) : Nat :=
  if v ≤ 0x7F then 0 else if v ≤ 0x7FF then 1 else if v ≤ 0xFFFF then 2 else 3

/-- The bits of a leading byte that say how many bytes follow. -/
def mark : Nat → Nat
  | 0 => 0
  | 1 => 0xC0
  | 2 => 0xE0
  | _ => 0xF0

/-- The leading byte of a number, above its mark. -/
def lead (v : Nat) : Nat :=
  v / 64 ^ width v + mark (width v)

/-- The number as a leading byte above `base` and some bytes that follow. -/
def digits (base : Nat) : Nat → Nat → List UInt8
  | 0, v => [UInt8.ofNat (v + base)]
  | n + 1, v => digits base n (v / 64) ++ [UInt8.ofNat (v % 64 + 0x80)]

theorem ofNat_lt {a b : Nat} (h : a < b) (hb : b < 256) : UInt8.ofNat a < UInt8.ofNat b := by
  rwa [UInt8.lt_iff_toNat_lt, UInt8.toNat_ofNat_of_lt' (h.trans hb), UInt8.toNat_ofNat_of_lt' hb]

theorem exists_digits_eq_cons (base n v : Nat) :
    ∃ rest, digits base n v = UInt8.ofNat (v / 64 ^ n + base) :: rest := by
  induction n generalizing v with
  | zero => exact ⟨[], by rw [digits, Nat.pow_zero, Nat.div_one]⟩
  | succ n ih =>
    obtain ⟨rest, h⟩ := ih (v / 64)
    refine ⟨rest ++ [UInt8.ofNat (v % 64 + 0x80)], ?_⟩
    rw [digits, h, Nat.div_div_eq_div_mul, ← Nat.pow_succ', List.cons_append]

/-- The order is decided in the digits, whatever follows. -/
theorem digits_lt {base n v w : Nat} (h : v < w) (hw : w / 64 ^ n + base < 256)
    (s t : List UInt8) : digits base n v ++ s < digits base n w ++ t := by
  induction n generalizing v w s t with
  | zero =>
    rw [Nat.pow_zero, Nat.div_one] at hw
    exact List.cons_lt_cons_iff.2 (.inl (ofNat_lt (by omega) hw))
  | succ n ih =>
    rw [digits, digits, List.append_assoc, List.append_assoc]
    rcases Nat.lt_or_eq_of_le (Nat.div_le_div_right h.le) with hhigh | hhigh
    · refine ih hhigh ?_ _ _
      rwa [Nat.div_div_eq_div_mul, ← Nat.pow_succ']
    · rw [hhigh]
      refine List.append_left_lt (List.cons_lt_cons_iff.2 (.inl (ofNat_lt ?_ ?_))) <;> omega

theorem utf8EncodeChar_eq (c : Char) : String.utf8EncodeChar c =
    digits (mark (width c.val.toNat)) (width c.val.toNat) c.val.toNat := by
  have hvalid : c.val.toNat < 0xD800 ∨ 0xDFFF < c.val.toNat ∧ c.val.toNat < 0x110000 := c.valid
  unfold String.utf8EncodeChar
  dsimp only
  generalize c.val.toNat = v at hvalid ⊢
  unfold width
  split
  · rfl
  · split
    · next h =>
      have hlead : v / 64 % 32 = v / 64 := by omega
      rw [hlead]
      rfl
    · split
      · next h =>
        have hlead : v / 4096 % 16 = v / 4096 := by omega
        rw [hlead, show v / 4096 = v / 64 / 64 by omega]
        rfl
      · have hlead : v / 262144 % 8 = v / 262144 := by omega
        rw [hlead, show v / 262144 = v / 64 / 64 / 64 by omega,
          show v / 4096 = v / 64 / 64 by omega]
        rfl

theorem exists_utf8EncodeChar_eq_cons (c : Char) :
    ∃ rest, String.utf8EncodeChar c = UInt8.ofNat (lead c.val.toNat) :: rest :=
  utf8EncodeChar_eq c ▸ exists_digits_eq_cons _ _ _

/-- A leading byte is a byte, and is smaller where fewer bytes follow. -/
theorem lead_lt {v w : Nat} (h : v < w) (hw : w < 0x110000) :
    lead w < 256 ∧ (width v = width w ∨ lead v < lead w) := by
  unfold lead width
  split_ifs <;> simp [mark] <;> omega

theorem utf8EncodeChar_lt {c d : Char} (h : c < d) (s t : List UInt8) :
    String.utf8EncodeChar c ++ s < String.utf8EncodeChar d ++ t := by
  have hvalid : d.val.toNat < 0xD800 ∨ 0xDFFF < d.val.toNat ∧ d.val.toNat < 0x110000 := d.valid
  have hlast : d.val.toNat < 0x110000 := by omega
  obtain ⟨hbyte, hwidth | hlead⟩ := lead_lt (v := c.val.toNat) h hlast
  · rw [utf8EncodeChar_eq, utf8EncodeChar_eq, hwidth]
    exact digits_lt h hbyte s t
  · obtain ⟨rest, hc⟩ := exists_utf8EncodeChar_eq_cons c
    obtain ⟨rest', hd⟩ := exists_utf8EncodeChar_eq_cons d
    rw [hc, hd]
    exact List.cons_lt_cons_iff.2 (.inl (ofNat_lt hlead hbyte))

/-! ### Texts -/

theorem encode_lt {s t : List Char} (h : s < t) : encode s < encode t := by
  induction s generalizing t with
  | nil =>
    cases t with
    | nil => exact absurd h (List.lt_irrefl _)
    | cons d t =>
      obtain ⟨rest, hd⟩ := exists_utf8EncodeChar_eq_cons d
      rw [encode, encode, List.flatMap_cons, hd]
      exact List.nil_lt_cons _ _
  | cons c s ih =>
    cases t with
    | nil => exact absurd h (List.not_lt_nil _)
    | cons d t =>
      rcases List.cons_lt_cons_iff.1 h with hcd | ⟨rfl, hst⟩
      · exact utf8EncodeChar_lt hcd _ _
      · exact List.append_left_lt (ih hst)

theorem bytes_lt_iff {a b : String} : bytes a < bytes b ↔ a < b := by
  have hlt : ∀ {a b : String}, a < b → bytes a < bytes b :=
    fun h => encode_lt (String.lt_iff_toList_lt.1 h)
  refine ⟨fun h => ?_, hlt⟩
  rcases lt_trichotomy a b with hab | rfl | hba
  · exact hab
  · exact absurd h (List.lt_irrefl _)
  · exact absurd h (List.lt_asymm (hlt hba))

theorem bytes_le_iff {a b : String} : bytes a ≤ bytes b ↔ a ≤ b := by
  rw [← List.not_lt, bytes_lt_iff, not_lt]

end HostInventory.Text.Utf8
