import Mathlib.Algebra.Order.Ring.Nat
import Mathlib.Data.List.Basic
import MessageLookup.Text.Utf8

/-! Reading back text that was written as UTF-8. A character above 127 is a first byte, which says
how many more are due, and then its number in groups of six bits; reading gathers the groups again,
so a text is read back as it was (`decodeLossy_encode`). -/

namespace MessageLookup.Utf8

/-- Group `n` of six bits of a number, as a byte that continues a character. -/
def tail (v n : Nat) : Nat := v / 64 ^ n % 64 + 128

/-- The last `n` groups of a number, the highest first. -/
def tails (v : Nat) : Nat → Bytes
  | 0 => []
  | n + 1 => UInt8.ofNat (tail v n) :: tails v n

theorem length_tails (v n : Nat) : (tails v n).length = n := by
  induction n with
  | zero => rfl
  | succ n ih => rw [tails, List.length_cons, ih]

theorem tail_bounds (v n : Nat) : 0x80 ≤ tail v n ∧ tail v n ≤ 0xBF := by
  unfold tail
  omega

theorem toNat_tail (v n : Nat) : (UInt8.ofNat (tail v n)).toNat = tail v n :=
  UInt8.toNat_ofNat_of_lt' (Nat.lt_of_le_of_lt (tail_bounds v n).2 (by decide))

theorem bounds_of_mem_tails {v n : Nat} : ∀ b ∈ tails v n, 0x80 ≤ b.toNat ∧ b.toNat ≤ 0xBF := by
  induction n with
  | zero => simp [tails]
  | succ n ih =>
    rw [tails, List.forall_mem_cons]
    exact ⟨by rw [toNat_tail]; exact tail_bounds v n, ih⟩

theorem gather_tail (v n : Nat) : v / 64 ^ (n + 1) * 64 + tail v n % 64 = v / 64 ^ n := by
  rw [tail, Nat.pow_succ, ← Nat.div_div_eq_div_mul]
  omega

theorem step_tail (text : String) {p : Partial} {v n : Nat}
    (h : p.low ≤ tail v n ∧ tail v n ≤ p.high) :
    step ⟨text, some p⟩ (UInt8.ofNat (tail v n)) = continued text p (tail v n) := by
  simp only [step, toNat_tail, h, and_self, if_true]

/-- Reading the groups that are due closes the character. -/
theorem foldl_tails (text : String) {v n low high : Nat} (h : low ≤ tail v n ∧ tail v n ≤ high) :
    (tails v (n + 1)).foldl step ⟨text, some ⟨n + 1, low, high, v / 64 ^ (n + 1)⟩⟩ =
      ⟨text.push (Char.ofNat v), none⟩ := by
  induction n generalizing low high with
  | zero =>
    rw [tails, List.foldl_cons, step_tail text h]
    simp only [continued, gather_tail]
    simp [tails]
  | succ n ih =>
    rw [tails, List.foldl_cons, step_tail text h]
    simp only [continued, gather_tail]
    exact ih (tail_bounds v n)

/-- The byte opens a character of `n + 1` more groups, and allows the first of them. -/
def Opens (v b n : Nat) : Prop :=
  b < 256 ∧ ∃ low high, lead b = .opens ⟨n + 1, low, high, v / 64 ^ (n + 1)⟩ ∧
    low ≤ tail v n ∧ tail v n ≤ high

theorem lead_two {b : Nat} (h : 0xC2 ≤ b) (h' : b < 0xE0) :
    lead b = .opens ⟨1, 0x80, 0xBF, b % 32⟩ := by
  rw [lead, if_neg (by omega), if_neg (by omega), if_pos h']

theorem lead_three {b : Nat} (h : 0xE0 < b) (h' : b < 0xF0) (hne : b ≠ 0xED) :
    lead b = .opens ⟨2, 0x80, 0xBF, b % 16⟩ := by
  rw [lead, if_neg (by omega), if_neg (by omega), if_neg (by omega), if_neg (by omega), if_neg hne,
    if_pos h']

theorem lead_four {b : Nat} (h : 0xF0 < b) (h' : b < 0xF4) :
    lead b = .opens ⟨3, 0x80, 0xBF, b % 8⟩ := by
  rw [lead, if_neg (by omega), if_neg (by omega), if_neg (by omega), if_neg (by omega),
    if_neg (by omega), if_neg (by omega), if_neg (by omega), if_pos h']

section Opens

variable {v b n low high value : Nat}

theorem Opens.of_lead (hb : b < 256) (hlead : lead b = .opens ⟨n + 1, low, high, value⟩)
    (hvalue : value = v / 64 ^ (n + 1)) (htail : low ≤ tail v n ∧ tail v n ≤ high) : Opens v b n :=
  ⟨hb, low, high, hvalue ▸ hlead, htail⟩

theorem opens_two (h : 0x7F < v) (h' : v ≤ 0x7FF) : Opens v (v / 64 % 32 + 0xC0) 0 :=
  .of_lead (by omega) (lead_two (by omega) (by omega)) (by omega) (tail_bounds v 0)

theorem opens_three (h : 0x7FF < v) (h' : v ≤ 0xFFFF) (hs : v < 0xD800 ∨ 0xDFFF < v) :
    Opens v (v / 4096 % 16 + 0xE0) 1 := by
  -- after E0 no shorter spelling is allowed, after ED no surrogate
  by_cases h0 : v / 4096 = 0
  · rw [h0]
    exact .of_lead (by decide) rfl h0.symm (by unfold tail; omega)
  · by_cases h13 : v / 4096 = 13
    · rw [h13]
      exact .of_lead (by decide) rfl h13.symm (by unfold tail; omega)
    · exact .of_lead (by omega) (lead_three (by omega) (by omega) (by omega)) (by omega)
        (tail_bounds v 1)

theorem opens_four (h : 0xFFFF < v) (h' : v < 0x110000) :
    Opens v (v / 262144 % 8 + 0xF0) 2 := by
  -- after F0 no shorter spelling is allowed, after F4 nothing beyond the last code point
  by_cases h0 : v / 262144 = 0
  · rw [h0]
    exact .of_lead (by decide) rfl h0.symm (by unfold tail; omega)
  · by_cases h4 : v / 262144 = 4
    · rw [h4]
      exact .of_lead (by decide) rfl h4.symm (by unfold tail; omega)
    · exact .of_lead (by omega) (lead_four (by omega) (by omega)) (by omega) (tail_bounds v 2)

end Opens

theorem encodeChar_eq (c : Char) :
    String.utf8EncodeChar c =
      if c.toNat ≤ 0x7F then [UInt8.ofNat c.toNat]
      else if c.toNat ≤ 0x7FF then UInt8.ofNat (c.toNat / 64 % 32 + 0xC0) :: tails c.toNat 1
      else if c.toNat ≤ 0xFFFF then UInt8.ofNat (c.toNat / 4096 % 16 + 0xE0) :: tails c.toNat 2
      else UInt8.ofNat (c.toNat / 262144 % 8 + 0xF0) :: tails c.toNat 3 := by
  simp only [tails, tail, Nat.pow_zero, Nat.div_one]
  rfl

/-- A character above 127 is a byte that opens it and the groups that are due. -/
theorem encodeChar_opens {c : Char} (hc : 0x7F < c.toNat) :
    ∃ b n, Opens c.toNat b n ∧
      String.utf8EncodeChar c = UInt8.ofNat b :: tails c.toNat (n + 1) := by
  have hvalid : c.toNat < 0xD800 ∨ 0xDFFF < c.toNat ∧ c.toNat < 0x110000 := c.valid
  rw [encodeChar_eq, if_neg (by omega)]
  by_cases h2 : c.toNat ≤ 0x7FF
  · exact ⟨_, 0, opens_two hc h2, if_pos h2⟩
  · rw [if_neg h2]
    by_cases h3 : c.toNat ≤ 0xFFFF
    · exact ⟨_, 1, opens_three (by omega) h3 (by omega), if_pos h3⟩
    · exact ⟨_, 2, opens_four (by omega) (by omega), if_neg h3⟩

theorem encodeChar_of_le {c : Char} (hc : c.toNat ≤ 0x7F) :
    String.utf8EncodeChar c = [UInt8.ofNat c.toNat] := by
  rw [encodeChar_eq, if_pos hc]

theorem toNat_byte_of_le {c : Char} (hc : c.toNat ≤ 0x7F) :
    (UInt8.ofNat c.toNat).toNat = c.toNat :=
  UInt8.toNat_ofNat_of_lt' (Nat.lt_of_le_of_lt hc (by decide))

theorem foldl_encodeChar (text : String) (c : Char) :
    (String.utf8EncodeChar c).foldl step ⟨text, none⟩ = ⟨text.push c, none⟩ := by
  by_cases hc : c.toNat ≤ 0x7F
  · rw [encodeChar_of_le hc, List.foldl_cons, List.foldl_nil, step, toNat_byte_of_le hc, start,
      lead, if_pos (by omega), Char.ofNat_toNat]
  · obtain ⟨b, n, ⟨hb, low, high, hlead, hallow⟩, henc⟩ := encodeChar_opens (Nat.lt_of_not_le hc)
    rw [henc, List.foldl_cons, step, UInt8.toNat_ofNat_of_lt' hb, start, hlead]
    exact (foldl_tails text hallow).trans (by rw [Char.ofNat_toNat])

theorem foldl_encode (text : String) (cs : List Char) :
    (cs.flatMap String.utf8EncodeChar).foldl step ⟨text, none⟩ =
      ⟨text ++ String.ofList cs, none⟩ := by
  induction cs generalizing text with
  | nil => simp
  | cons c cs ih =>
    have hpush : text.push c ++ String.ofList cs = text ++ String.ofList (c :: cs) := by
      simp [String.ext_iff]
    rw [List.flatMap_cons, List.foldl_append, foldl_encodeChar, ih, hpush]

/-- Text is read back as it was written. -/
theorem decodeLossy_encode (s : String) : decodeLossy (encode s) = s := by
  rw [decodeLossy, encode, foldl_encode]
  simp [finish]

theorem encode_injective : Function.Injective encode := by
  intro a b h
  rw [← decodeLossy_encode a, h, decodeLossy_encode]

/-- A byte up to 127 stands for its own character only. -/
theorem eq_of_mem_encodeChar {a c : Char} (ha : a.toNat ≤ 0x7F)
    (h : UInt8.ofNat a.toNat ∈ String.utf8EncodeChar c) : c = a := by
  by_cases hle : c.toNat ≤ 0x7F
  · rw [encodeChar_of_le hle, List.mem_singleton] at h
    have hbyte := congrArg UInt8.toNat h
    rw [toNat_byte_of_le ha, toNat_byte_of_le hle] at hbyte
    exact Char.toNat_inj.1 hbyte.symm
  · obtain ⟨b, n, ⟨hb, low, high, hlead, -⟩, henc⟩ := encodeChar_opens (Nat.lt_of_not_le hle)
    rw [henc, List.mem_cons] at h
    rcases h with hfirst | htail
    · have hbyte := congrArg UInt8.toNat hfirst
      rw [toNat_byte_of_le ha, UInt8.toNat_ofNat_of_lt' hb] at hbyte
      -- such a byte is a character of its own and opens none
      rw [← hbyte, lead, if_pos (by omega)] at hlead
      cases hlead
    · have hbound := (bounds_of_mem_tails _ htail).1
      rw [toNat_byte_of_le ha] at hbound
      omega

theorem byte_not_mem_encode {a : Char} (ha : a.toNat ≤ 0x7F) {s : String} (h : a ∉ s.toList) :
    UInt8.ofNat a.toNat ∉ encode s := by
  rw [encode, List.mem_flatMap]
  rintro ⟨c, hc, hbyte⟩
  exact h (eq_of_mem_encodeChar ha hbyte ▸ hc)

/-- Only a NUL is written with a NUL. -/
theorem nul_not_mem_encode {s : String} (h : '\x00' ∉ s.toList) : (0 : UInt8) ∉ encode s :=
  byte_not_mem_encode (by decide) h

/-- Only characters of one byte, and no NUL. -/
def isPlain (s : String) : Bool := s.toList.all fun c => decide (0 < c.toNat ∧ c.toNat ≤ 0x7F)

theorem isPlain_iff {s : String} :
    isPlain s = true ↔ ∀ c ∈ s.toList, 0 < c.toNat ∧ c.toNat ≤ 0x7F := by
  simp [isPlain]

theorem isPlain_append {a b : String} (ha : isPlain a = true) (hb : isPlain b = true) :
    isPlain (a ++ b) = true := by
  simp_all [isPlain]

theorem encode_of_isPlain {s : String} (h : isPlain s = true) :
    encode s = s.toList.map fun c => UInt8.ofNat c.toNat := by
  rw [isPlain_iff] at h
  rw [encode, List.map_eq_flatMap]
  exact List.flatMap_congr fun c hc => encodeChar_of_le (h c hc).2

theorem nul_not_mem_of_isPlain {s : String} (h : isPlain s = true) : '\x00' ∉ s.toList := by
  intro hmem
  exact Nat.lt_irrefl 0 (isPlain_iff.1 h _ hmem).1

/-- The first bytes of plain text are plain text. -/
theorem take_encode {s : String} (h : isPlain s = true) (n : Nat) :
    (encode s).take n = encode (String.ofList (s.toList.take n)) := by
  have htake : isPlain (String.ofList (s.toList.take n)) = true := by
    rw [isPlain_iff] at h ⊢
    intro c hc
    rw [String.toList_ofList] at hc
    exact h c (List.mem_of_mem_take hc)
  rw [encode_of_isPlain h, encode_of_isPlain htake, String.toList_ofList, List.map_take]

end MessageLookup.Utf8
