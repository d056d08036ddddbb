import MessageLookup.Bytes

/-! UTF-8 text and bytes. Decoding never fails: a run of bytes that starts a character but cannot be
continued, and a byte that starts none, are each read as one replacement character. It is a fold of
one step over the bytes, whose state is the text so far and the character that is not finished. -/

namespace MessageLookup.Utf8

def encode (s : String) : Bytes := s.toList.flatMap String.utf8EncodeChar

def replacement : Char := '\uFFFD'

/-- A character whose first bytes were read. It needs `due` more, the next one between `low` and
`high`; `value` is the number that the bytes read so far spell. -/
structure Partial where
  due : Nat
  low : Nat
  high : Nat
  value : Nat
deriving DecidableEq, Repr

/-- What a byte says where a character may start. -/
inductive Lead where
  | single (c : Char)
  | opens (p : Partial)
  | invalid
deriving DecidableEq, Repr

/-- The byte after `E0`, `ED`, `F0` and `F4` has a
smaller range, so that no character has two spellings, none is a surrogate and none lies beyond the
last code point. -/
def lead (b : Nat) : Lead :=
  if b < 0x80 then .single (Char.ofNat b)
  else if b < 0xC2 then .invalid
  else if b < 0xE0 then .opens ⟨1, 0x80, 0xBF, b % 32⟩
  else if b = 0xE0 then .opens ⟨2, 0xA0, 0xBF, 0⟩
  else if b = 0xED then .opens ⟨2, 0x80, 0x9F, 13⟩
  else if b < 0xF0 then .opens ⟨2, 0x80, 0xBF, b % 16⟩
  else if b = 0xF0 then .opens ⟨3, 0x90, 0xBF, 0⟩
  else if b < 0xF4 then .opens ⟨3, 0x80, 0xBF, b % 8⟩
  else if b = 0xF4 then .opens ⟨3, 0x80, 0x8F, 4⟩
  else .invalid

structure Decoder where
  text : String := ""
  pending : Option Partial := none
deriving DecidableEq, Repr

def start (text : String) (b : Nat) : Decoder :=
  match lead b with
  | .single c => ⟨text.push c, none⟩
  | .opens p => ⟨text, some p⟩
  | .invalid => ⟨text.push replacement, none⟩

def continued (text : String) (p : Partial) (b : Nat) : Decoder :=
  let value := p.value * 64 + b % 64
  if p.due ≤ 1 then ⟨text.push (Char.ofNat value), none⟩
  else ⟨text, some ⟨p.due - 1, 0x80, 0xBF, value⟩⟩

/-- Reads one byte. A byte that cannot continue the open character ends it and is read again. -/
def step (d : Decoder) (b : UInt8) : Decoder :=
  match d.pending with
  | none => start d.text b.toNat
  | some p =>
    if p.low ≤ b.toNat ∧ b.toNat ≤ p.high then continued d.text p b.toNat
    else start (d.text.push replacement) b.toNat

def finish (d : Decoder) : String :=
  match d.pending with
  | none => d.text
  | some _ => d.text.push replacement

def decodeLossy (b : Bytes) : String := finish (b.foldl step {})

theorem encode_eq_toByteArray (s : String) : encode s = s.toByteArray.data.toList := by
  have h := String.toByteArray_ofList (l := s.toList)
  rw [String.ofList_toList] at h
  rw [h]
  simp [encode, List.utf8Encode]

end MessageLookup.Utf8
