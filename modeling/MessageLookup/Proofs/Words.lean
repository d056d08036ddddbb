import Mathlib.Logic.Function.Basic
import MessageLookup.LookupError

/-! Texts taken apart again. A word has letters, digits, minus signs and underscores only, so it is
told from whatever else follows it (`word_append_inj`). Decimal numbers are words. The text of a
failure is a run of words with single blanks between them, and a record's text has marks of its own
between words; either can be read in one way only. -/

namespace MessageLookup

/-- A letter, a digit, a minus sign or an underscore. -/
def isWordChar (c : Char) : Bool := c.isAlphanum || c == '-' || c == '_'

def IsWord (s : String) : Prop := ∀ c ∈ s.toList, isWordChar c = true

instance (s : String) : Decidable (IsWord s) :=
  decidable_of_iff (s.toList.all isWordChar = true) List.all_eq_true

/-- A word right before this text ends there. -/
def EndsWord (rest : List Char) : Prop := rest.takeWhile isWordChar = []

theorem endsWord_nil : EndsWord [] := rfl

theorem endsWord_cons {c : Char} (hc : isWordChar c = false) (rest : List Char) :
    EndsWord (c :: rest) :=
  List.takeWhile_cons_of_neg (by simp [hc])

theorem IsWord.not_mem {w : String} (hw : IsWord w) {c : Char} (hc : isWordChar c = false) :
    c ∉ w.toList := by
  intro hmem
  rw [hw c hmem] at hc
  cases hc

theorem takeWhile_word_append {w : String} {rest : List Char} (hw : IsWord w)
    (hrest : EndsWord rest) : (w.toList ++ rest).takeWhile isWordChar = w.toList := by
  rw [List.takeWhile_append_of_pos hw, hrest, List.append_nil]

/-- A word is told from what follows it. -/
theorem word_append_inj {w w' : String} {rest rest' : List Char} (hw : IsWord w) (hw' : IsWord w')
    (hrest : EndsWord rest) (hrest' : EndsWord rest')
    (h : w.toList ++ rest = w'.toList ++ rest') : w = w' ∧ rest = rest' := by
  have hword : w.toList = w'.toList := by
    rw [← takeWhile_word_append hw hrest, h, takeWhile_word_append hw' hrest']
  rw [hword] at h
  exact ⟨String.toList_inj.1 hword, List.append_cancel_left h⟩

theorem mem_of_mem_intercalate {sep : List Char} {parts : List (List Char)} {c : Char}
    (h : c ∈ sep.intercalate parts) : c ∈ sep ∨ ∃ part ∈ parts, c ∈ part := by
  induction parts with
  | nil => cases h
  | cons part parts ih =>
    cases parts with
    | nil => exact Or.inr ⟨part, by simp, by simpa using h⟩
    | cons next parts =>
      rw [List.intercalate_cons_cons, List.mem_append, List.mem_append] at h
      rcases h with (h | h) | h
      · exact Or.inr ⟨part, by simp, h⟩
      · exact Or.inl h
      · rcases ih h with h | ⟨p, hp, hc⟩
        · exact Or.inl h
        · exact Or.inr ⟨p, List.mem_cons_of_mem part hp, hc⟩

/-- Words with single blanks between them. -/
def spaced (words : List String) : String := " ".intercalate words

theorem splitOn_spaced {words : List String} (hne : words ≠ []) (hwords : ∀ w ∈ words, IsWord w) :
    (spaced words).toList.splitOn ' ' = words.map String.toList := by
  rw [spaced, String.toList_intercalate]
  refine List.splitOn_intercalate ' ' ?_ (by simpa using hne)
  intro l hl
  obtain ⟨w, hw, rfl⟩ := List.mem_map.1 hl
  exact (hwords w hw).not_mem rfl

theorem newline_not_mem_spaced {words : List String} (hwords : ∀ w ∈ words, IsWord w) :
    '\n' ∉ (spaced words).toList := by
  intro hmem
  rw [spaced, String.toList_intercalate] at hmem
  rcases mem_of_mem_intercalate hmem with h | ⟨l, hl, h⟩
  · exact absurd h (by decide)
  · obtain ⟨w, hw, rfl⟩ := List.mem_map.1 hl
    exact (hwords w hw).not_mem rfl h

namespace Decimal

theorem natural_injective : Function.Injective natural := by
  intro m n h
  rw [← ofDigitChars_natural m, h, ofDigitChars_natural]

/-- A minus sign is no digit, so it tells the negative numbers. -/
theorem minus_mem_integer {i : Int} : '-' ∈ (integer i).toList ↔ i < 0 := by
  cases i with
  | ofNat n =>
    have hminus : '-' ∉ (natural n).toList := by
      intro hmem
      cases isDigit_of_mem_natural hmem
    exact iff_of_false hminus (Int.not_lt.2 (Int.natCast_nonneg n))
  | negSucc n =>
    rw [toList_negSucc]
    exact iff_of_true List.mem_cons_self (Int.negSucc_lt_zero n)

theorem integer_injective : Function.Injective integer := by
  intro i j h
  have hsign : i < 0 ↔ j < 0 := by rw [← minus_mem_integer, h, minus_mem_integer]
  cases i with
  | ofNat m =>
    cases j with
    | ofNat n => exact congrArg Int.ofNat (natural_injective h)
    | negSucc n =>
      exact absurd (hsign.2 (Int.negSucc_lt_zero n)) (Int.not_lt.2 (Int.natCast_nonneg m))
  | negSucc m =>
    cases j with
    | ofNat n =>
      exact absurd (hsign.1 (Int.negSucc_lt_zero m)) (Int.not_lt.2 (Int.natCast_nonneg n))
    | negSucc n =>
      rw [← String.toList_inj, toList_negSucc, toList_negSucc] at h
      have hdigits := natural_injective (String.toList_inj.1 (List.cons.inj h).2)
      rw [Nat.succ.inj hdigits]

@[simp]
theorem natural_inj {m n : Nat} : natural m = natural n ↔ m = n := natural_injective.eq_iff

@[simp]
theorem code_inj {c c' : Int32} : code c = code c' ↔ c = c' :=
  integer_injective.eq_iff.trans Int32.toInt_inj

theorem isWordChar_of_isDigit {c : Char} (hc : c.isDigit = true) : isWordChar c = true := by
  simp [isWordChar, Char.isAlphanum, hc]

theorem isWord_natural (n : Nat) : IsWord (natural n) :=
  fun _ hc => isWordChar_of_isDigit (isDigit_of_mem_natural hc)

theorem isWord_code (c : Int32) : IsWord (code c) := by
  intro x hx
  rcases isDigit_or_minus_of_mem_code hx with hdigit | rfl
  · exact isWordChar_of_isDigit hdigit
  · rfl

end Decimal

namespace Record

theorem toList_field (f : String × String) :
    (field f).toList = f.1.toList ++ ':' :: ' ' :: f.2.toList := by
  simp [field]

/-- The text of the fields after the first one. -/
def laterFields : List (String × String) → List Char
  | [] => []
  | f :: fs => ',' :: ' ' :: ((field f).toList ++ laterFields fs)

theorem toList_intercalate_fields (f : String × String) (fs : List (String × String)) :
    (", ".intercalate ((f :: fs).map field)).toList = (field f).toList ++ laterFields fs := by
  induction fs generalizing f with
  | nil => simp [laterFields]
  | cons next fs ih =>
    have hrest := ih next
    rw [List.map_cons] at hrest
    rw [List.map_cons, List.map_cons, String.intercalate_cons_cons, String.toList_append, hrest]
    simp [laterFields]

theorem toList_text (name : String) (f : String × String) (fs : List (String × String)) :
    (text name (f :: fs)).toList =
      name.toList ++ ' ' :: '\x7b' :: ' ' :: ((field f).toList ++ laterFields fs ++ [' ', '\x7d']) := by
  rw [text, String.toList_append, String.toList_append, String.toList_append,
    toList_intercalate_fields]
  simp

theorem endsWord_laterFields (fs : List (String × String)) : EndsWord (laterFields fs) := by
  cases fs with
  | nil => exact endsWord_nil
  | cons f fs => exact endsWord_cons rfl _

/-- The name and the value are words. -/
def IsPlain (f : String × String) : Prop := IsWord f.1 ∧ IsWord f.2

section

variable {f f' : String × String} {fs fs' : List (String × String)}

theorem field_append_inj {rest rest' : List Char} (hf : IsPlain f) (hf' : IsPlain f')
    (hrest : EndsWord rest) (hrest' : EndsWord rest')
    (h : (field f).toList ++ rest = (field f').toList ++ rest') : f = f' ∧ rest = rest' := by
  simp only [toList_field, List.append_assoc, List.cons_append] at h
  obtain ⟨hname, hcolon⟩ :=
    word_append_inj hf.1 hf'.1 (endsWord_cons rfl _) (endsWord_cons rfl _) h
  have hvalues := (List.cons.inj (List.cons.inj hcolon).2).2
  obtain ⟨hvalue, hends⟩ := word_append_inj hf.2 hf'.2 hrest hrest' hvalues
  exact ⟨Prod.ext hname hvalue, hends⟩

theorem laterFields_inj (hfs : ∀ f ∈ fs, IsPlain f) (hfs' : ∀ f ∈ fs', IsPlain f)
    (h : laterFields fs = laterFields fs') : fs = fs' := by
  induction fs generalizing fs' with
  | nil =>
    cases fs' with
    | nil => rfl
    | cons f' fs' => cases h
  | cons f fs ih =>
    cases fs' with
    | nil => cases h
    | cons f' fs' =>
      rw [List.forall_mem_cons] at hfs hfs'
      have hfields := (List.cons.inj (List.cons.inj h).2).2
      obtain ⟨rfl, hlater⟩ := field_append_inj hfs.1 hfs'.1 (endsWord_laterFields fs)
        (endsWord_laterFields fs') hfields
      rw [ih hfs.2 hfs'.2 hlater]

/-- The text of a record says what its name and its fields are. -/
theorem text_inj {name name' : String} (hname : IsWord name) (hname' : IsWord name')
    (hfs : ∀ g ∈ f :: fs, IsPlain g) (hfs' : ∀ g ∈ f' :: fs', IsPlain g)
    (h : text name (f :: fs) = text name' (f' :: fs')) : name = name' ∧ f :: fs = f' :: fs' := by
  rw [← String.toList_inj, toList_text, toList_text] at h
  obtain ⟨rfl, hbraces⟩ :=
    word_append_inj hname hname' (endsWord_cons rfl _) (endsWord_cons rfl _) h
  simp only [List.cons.injEq, true_and] at hbraces
  rw [List.forall_mem_cons] at hfs hfs'
  obtain ⟨rfl, hlater⟩ := field_append_inj hfs.1 hfs'.1 (endsWord_laterFields fs)
    (endsWord_laterFields fs') (List.append_cancel_right hbraces)
  rw [laterFields_inj hfs.2 hfs'.2 hlater]
  exact ⟨rfl, rfl⟩

end

end Record

namespace LookupError

/-- The words of the failure's text. -/
def words : LookupError → List String
  | unknownCode c => ["unknown", "error", "code", Decimal.code c]
  | bufferTooSmall c n =>
    ["message", "for", "error", "code", Decimal.code c, "does", "not", "fit", "in",
      Decimal.natural n, "bytes"]
  | failed c s =>
    ["lookup", "of", "error", "code", Decimal.code c, "failed", "with", "status", Decimal.code s]

theorem message_eq_spaced (e : LookupError) : e.message = spaced e.words := by
  rw [← String.toList_inj]
  -- each text is spelled out by its shape: rewriting with the definition of the message is slow
  cases e with
  | unknownCode c =>
    change (_ ++ Decimal.code c : String).toList = _
    simp [words, spaced]
  | bufferTooSmall c n =>
    change (_ ++ Decimal.code c ++ _ ++ Decimal.natural n ++ _ : String).toList = _
    simp [words, spaced]
  | failed c s =>
    change (_ ++ Decimal.code c ++ _ ++ Decimal.code s : String).toList = _
    simp [words, spaced]

theorem isWord_of_mem_words {e : LookupError} : ∀ w ∈ e.words, IsWord w := by
  cases e <;> simp [words, Decimal.isWord_code, Decimal.isWord_natural] <;> decide

theorem words_ne_nil (e : LookupError) : e.words ≠ [] := by cases e <;> simp [words]

theorem words_injective : Function.Injective words := by
  intro e e' h
  cases e <;> cases e' <;> simp_all [words]

theorem message_injective : Function.Injective message := by
  intro e e' h
  have hwords : e.words.map String.toList = e'.words.map String.toList := by
    rw [← splitOn_spaced e.words_ne_nil isWord_of_mem_words, ← message_eq_spaced, h,
      message_eq_spaced, splitOn_spaced e'.words_ne_nil isWord_of_mem_words]
  exact words_injective ((List.map_inj_right fun _ _ => String.toList_inj.1).1 hwords)

theorem newline_not_mem_message (e : LookupError) : '\n' ∉ e.message.toList := by
  rw [message_eq_spaced]
  exact newline_not_mem_spaced isWord_of_mem_words

/-- The name of the failure's constructor. -/
def variant : LookupError → String
  | unknownCode _ => "UnknownCode"
  | bufferTooSmall _ _ => "BufferTooSmall"
  | failed _ _ => "Status"

/-- What a record of the failure shows after the code. -/
def detail : LookupError → List (String × String)
  | unknownCode _ => []
  | bufferTooSmall _ n => [("capacity", Decimal.natural n)]
  | failed _ s => [("status", Decimal.code s)]

theorem debugText_eq_text (e : LookupError) :
    e.debugText = Record.text e.variant (("code", Decimal.code e.code) :: e.detail) := by
  cases e <;> rfl

theorem isWord_variant (e : LookupError) : IsWord e.variant := by
  cases e with
  | unknownCode c => exact (by decide : IsWord "UnknownCode")
  | bufferTooSmall c n => exact (by decide : IsWord "BufferTooSmall")
  | failed c s => exact (by decide : IsWord "Status")

theorem isPlain_of_mem_fields {e : LookupError} :
    ∀ f ∈ ("code", Decimal.code e.code) :: e.detail, Record.IsPlain f := by
  rw [List.forall_mem_cons]
  refine ⟨⟨(by decide : IsWord "code"), Decimal.isWord_code _⟩, ?_⟩
  cases e with
  | unknownCode c => exact List.forall_mem_nil _
  | bufferTooSmall c n =>
    exact List.forall_mem_singleton.2 ⟨(by decide : IsWord "capacity"), Decimal.isWord_natural n⟩
  | failed c s =>
    exact List.forall_mem_singleton.2 ⟨(by decide : IsWord "status"), Decimal.isWord_code s⟩

theorem debugText_injective : Function.Injective debugText := by
  intro e e' h
  rw [debugText_eq_text, debugText_eq_text] at h
  obtain ⟨-, hfields⟩ :=
    Record.text_inj e.isWord_variant e'.isWord_variant isPlain_of_mem_fields isPlain_of_mem_fields h
  cases e <;> cases e' <;> simp_all [code, detail]

end LookupError

end MessageLookup
