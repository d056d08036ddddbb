import Mathlib
import MessageLookup.Proofs.Decoding

/-! Which bytes are UTF-8. The table of the Unicode standard lists the bytes of one character by the
ranges of the first two; text is a sequence of those. It has the bytes of every text and no others,
so reading bytes and writing them again gives them back exactly if they are well-formed. -/

namespace MessageLookup.Utf8

def Between (low high : Nat) (b : UInt8) : Prop := low ≤ b.toNat ∧ b.toNat ≤ high

/-- A row of the table: which bytes come first and second, and how many follow them. -/
structure Row where
  first : Nat × Nat
  second : Nat × Nat
  more : Nat
deriving DecidableEq

/-- The characters of more than one byte. -/
def rows : List Row :=
  [ ⟨(0xC2, 0xDF), (0x80, 0xBF), 0⟩,
    ⟨(0xE0, 0xE0), (0xA0, 0xBF), 1⟩,
    ⟨(0xE1, 0xEC), (0x80, 0xBF), 1⟩,
    ⟨(0xED, 0xED), (0x80, 0x9F), 1⟩,
    ⟨(0xEE, 0xEF), (0x80, 0xBF), 1⟩,
    ⟨(0xF0, 0xF0), (0x90, 0xBF), 2⟩,
    ⟨(0xF1, 0xF3), (0x80, 0xBF), 2⟩,
    ⟨(0xF4, 0xF4), (0x80, 0x8F), 2⟩ ]

/-- The bytes of one character. -/
inductive Character : Bytes → Prop where
  | single {b : UInt8} (h : Between 0x00 0x7F b) : Character [b]
  | long {row : Row} (hrow : row ∈ rows) {first second : UInt8} {rest : Bytes}
      (hfirst : Between row.first.1 row.first.2 first)
      (hsecond : Between row.second.1 row.second.2 second)
      (hmore : rest.length = row.more) (hrest : ∀ b ∈ rest, Between 0x80 0xBF b) :
      Character (first :: second :: rest)

inductive WellFormed : Bytes → Prop where
  | nil : WellFormed []
  | cons {c rest : Bytes} (hc : Character c) (hrest : WellFormed rest) : WellFormed (c ++ rest)

theorem ofNat_eq_of_toNat {n : Nat} {b : UInt8} (h : n = b.toNat) : UInt8.ofNat n = b := by
  rw [h, UInt8.ofNat_toNat]

/-- Any bytes that continue a character are the groups of a number. -/
theorem exists_gathered (value : Nat) {rest : Bytes} (h : ∀ b ∈ rest, Between 0x80 0xBF b) :
    ∃ v, v / 64 ^ rest.length = value ∧ tails v rest.length = rest := by
  induction rest generalizing value with
  | nil => exact ⟨value, Nat.div_one value, rfl⟩
  | cons b rest ih =>
    rw [List.forall_mem_cons] at h
    obtain ⟨⟨hb, hb'⟩, hrest⟩ := h
    obtain ⟨v, hv, htails⟩ := ih (value * 64 + (b.toNat - 0x80)) hrest
    have htail : tail v rest.length = b.toNat := by
      rw [tail, hv]
      omega
    refine ⟨v, ?_, ?_⟩
    · rw [List.length_cons, Nat.pow_succ, ← Nat.div_div_eq_div_mul, hv]
      omega
    · rw [List.length_cons, tails, htails, htail, UInt8.ofNat_toNat]

section Written

variable {a : UInt8} {v : Nat}

theorem encodeChar_one (ha : Between 0x00 0x7F a) :
    String.utf8EncodeChar (Char.ofNat a.toNat) = [a] := by
  obtain ⟨-, ha⟩ := ha
  have hvalid : a.toNat.isValidChar := Or.inl (by omega)
  rw [encodeChar_eq, Char.toNat_ofNat, if_pos hvalid, if_pos ha, UInt8.ofNat_toNat]

theorem encodeChar_two (ha : Between 0xC2 0xDF a) (hv : v / 64 = a.toNat - 0xC0) :
    String.utf8EncodeChar (Char.ofNat v) = a :: tails v 1 := by
  obtain ⟨ha, ha'⟩ := ha
  have hvalid : v.isValidChar := Or.inl (by omega)
  have hfirst : UInt8.ofNat (v / 64 % 32 + 0xC0) = a := ofNat_eq_of_toNat (by omega)
  rw [encodeChar_eq, Char.toNat_ofNat, if_pos hvalid, if_neg (by omega), if_pos (by omega), hfirst]

/-- After E0 no shorter spelling is allowed, and after ED no surrogate. -/
theorem encodeChar_three (ha : Between 0xE0 0xEF a) (hv : v / 4096 = a.toNat - 0xE0)
    (hlong : a.toNat = 0xE0 → 0xA0 ≤ tail v 1) (hsurrogate : a.toNat = 0xED → tail v 1 ≤ 0x9F) :
    String.utf8EncodeChar (Char.ofNat v) = a :: tails v 2 := by
  obtain ⟨ha, ha'⟩ := ha
  unfold tail at hlong hsurrogate
  have hvalid : v.isValidChar := by omega
  have hfirst : UInt8.ofNat (v / 4096 % 16 + 0xE0) = a := ofNat_eq_of_toNat (by omega)
  rw [encodeChar_eq, Char.toNat_ofNat, if_pos hvalid, if_neg (by omega), if_neg (by omega),
    if_pos (by omega), hfirst]

/-- After F0 no shorter spelling is allowed, and after F4 nothing beyond the last code point. -/
theorem encodeChar_four (ha : Between 0xF0 0xF4 a) (hv : v / 262144 = a.toNat - 0xF0)
    (hlong : a.toNat = 0xF0 → 0x90 ≤ tail v 2) (hlast : a.toNat = 0xF4 → tail v 2 ≤ 0x8F) :
    String.utf8EncodeChar (Char.ofNat v) = a :: tails v 3 := by
  obtain ⟨ha, ha'⟩ := ha
  unfold tail at hlong hlast
  have hvalid : v.isValidChar := Or.inr ⟨by omega, by omega⟩
  have hfirst : UInt8.ofNat (v / 262144 % 8 + 0xF0) = a := ofNat_eq_of_toNat (by omega)
  rw [encodeChar_eq, Char.toNat_ofNat, if_pos hvalid, if_neg (by omega), if_neg (by omega),
    if_neg (by omega), hfirst]

end Written

theorem rows_more : ∀ row ∈ rows, row.more ≤ 2 := by decide

theorem rows_tail : ∀ row ∈ rows, 0x80 ≤ row.second.1 ∧ row.second.2 ≤ 0xBF := by decide

theorem rows_two : ∀ row ∈ rows, row.more = 0 → row.first = (0xC2, 0xDF) := by decide

theorem rows_three : ∀ row ∈ rows, row.more = 1 →
    (0xE0 ≤ row.first.1 ∧ row.first.2 ≤ 0xEF) ∧ (row.first.1 ≤ 0xE0 → 0xA0 ≤ row.second.1) ∧
      (row.first.1 ≤ 0xED → 0xED ≤ row.first.2 → row.second.2 ≤ 0x9F) := by decide

theorem rows_four : ∀ row ∈ rows, row.more = 2 →
    (0xF0 ≤ row.first.1 ∧ row.first.2 ≤ 0xF4) ∧ (row.first.1 ≤ 0xF0 → 0x90 ≤ row.second.1) ∧
      (0xF4 ≤ row.first.2 → row.second.2 ≤ 0x8F) := by decide

/-- The table has no bytes but those of characters. -/
theorem Character.exists_char {bytes : Bytes} (h : Character bytes) :
    ∃ ch, String.utf8EncodeChar ch = bytes := by
  cases h with
  | single h => exact ⟨_, encodeChar_one h⟩
  | @long row hrow first second rest hfirst hsecond hmore hrest =>
    obtain ⟨hfirst, hfirst'⟩ := hfirst
    obtain ⟨hsecond, hsecond'⟩ := hsecond
    have hbounds := rows_tail row hrow
    have htail : ∀ b ∈ second :: rest, Between 0x80 0xBF b :=
      List.forall_mem_cons.2 ⟨⟨by omega, by omega⟩, hrest⟩
    have hle := rows_more row hrow
    match hcount : row.more with
    | 0 =>
      have hrange := rows_two row hrow hcount
      rw [hrange] at hfirst hfirst'
      obtain ⟨v, hv, htails⟩ := exists_gathered (first.toNat - 0xC0) htail
      rw [List.length_cons, hmore, hcount] at hv htails
      exact ⟨_, htails ▸ encodeChar_two ⟨hfirst, hfirst'⟩ hv⟩
    | 1 =>
      obtain ⟨hrange, hlong, hsurrogate⟩ := rows_three row hrow hcount
      obtain ⟨v, hv, htails⟩ := exists_gathered (first.toNat - 0xE0) htail
      rw [List.length_cons, hmore, hcount] at hv htails
      have hgroup : tail v 1 = second.toNat := by rw [← toNat_tail, (List.cons.inj htails).1]
      exact ⟨_, htails ▸ encodeChar_three ⟨by omega, by omega⟩ hv (by omega) (by omega)⟩
    | 2 =>
      obtain ⟨hrange, hlong, hlast⟩ := rows_four row hrow hcount
      obtain ⟨v, hv, htails⟩ := exists_gathered (first.toNat - 0xF0) htail
      rw [List.length_cons, hmore, hcount] at hv htails
      have hgroup : tail v 2 = second.toNat := by rw [← toNat_tail, (List.cons.inj htails).1]
      exact ⟨_, htails ▸ encodeChar_four ⟨by omega, by omega⟩ hv (by omega) (by omega)⟩
    | n + 3 => omega

/-- The reader opens a character at the bytes that come first in the table, and then allows those
that come second. -/
theorem row_of_lead {b n low high value : Nat} (h : lead b = .opens ⟨n + 1, low, high, value⟩) :
    ∃ least greatest, ⟨(least, greatest), (low, high), n⟩ ∈ rows ∧ least ≤ b ∧ b ≤ greatest := by
  unfold lead at h
  split at h
  · cases h
  split at h
  · cases h
  split at h
  · cases h
    exact ⟨0xC2, 0xDF, by decide, by omega, by omega⟩
  split at h
  · cases h
    exact ⟨0xE0, 0xE0, by decide, by omega, by omega⟩
  split at h
  · cases h
    exact ⟨0xED, 0xED, by decide, by omega, by omega⟩
  split at h
  · cases h
    by_cases hb : b < 0xED
    · exact ⟨0xE1, 0xEC, by decide, by omega, by omega⟩
    · exact ⟨0xEE, 0xEF, by decide, by omega, by omega⟩
  split at h
  · cases h
    exact ⟨0xF0, 0xF0, by decide, by omega, by omega⟩
  split at h
  · cases h
    exact ⟨0xF1, 0xF3, by decide, by omega, by omega⟩
  split at h
  · cases h
    exact ⟨0xF4, 0xF4, by decide, by omega, by omega⟩
  · cases h

/-- The table has the bytes of every character. -/
theorem character_encodeChar (c : Char) : Character (String.utf8EncodeChar c) := by
  by_cases hc : c.toNat ≤ 0x7F
  · rw [encodeChar_of_le hc]
    refine .single ?_
    rw [Between, toNat_byte_of_le hc]
    exact ⟨Nat.zero_le _, hc⟩
  · obtain ⟨b, n, ⟨hb, low, high, hlead, hallow⟩, henc⟩ := encodeChar_opens (Nat.lt_of_not_le hc)
    obtain ⟨least, greatest, hrow, hfirst⟩ := row_of_lead hlead
    rw [henc]
    refine .long hrow ?_ ?_ (length_tails c.toNat n) bounds_of_mem_tails
    · rw [Between, UInt8.toNat_ofNat_of_lt' hb]
      exact hfirst
    · rw [Between, toNat_tail]
      exact hallow

theorem wellFormed_encode (s : String) : WellFormed (encode s) := by
  rw [encode]
  induction s.toList with
  | nil => exact .nil
  | cons c cs ih => exact .cons (character_encodeChar c) ih

theorem WellFormed.exists_encode {b : Bytes} (h : WellFormed b) : ∃ s, encode s = b := by
  induction h with
  | nil => exact ⟨"", rfl⟩
  | cons hc _ ih =>
    obtain ⟨c, rfl⟩ := hc.exists_char
    obtain ⟨s, rfl⟩ := ih
    exact ⟨String.ofList (c :: s.toList), by simp [encode]⟩

/-- Bytes are read and written back as they were exactly if they are well-formed. -/
theorem encode_decodeLossy_iff (b : Bytes) : encode (decodeLossy b) = b ↔ WellFormed b := by
  constructor
  · intro h
    rw [← h]
    exact wellFormed_encode _
  · intro h
    obtain ⟨s, rfl⟩ := h.exists_encode
    rw [decodeLossy_encode]

end MessageLookup.Utf8
