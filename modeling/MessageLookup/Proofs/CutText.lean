import MessageLookup.Proofs.SilentCut
import MessageLookup.Proofs.WellFormed

/-! Text that a host cuts off at a byte. Whole characters are left, and at most one that lost its
last bytes: the bytes that are left open it and cannot be continued, so they are read as one
replacement character. -/

namespace MessageLookup

namespace Utf8

def size (cs : List Char) : Nat := (cs.flatMap String.utf8EncodeChar).length

theorem size_cons (c : Char) (cs : List Char) :
    size (c :: cs) = (String.utf8EncodeChar c).length + size cs := by
  rw [size, List.flatMap_cons, List.length_append, size]

theorem size_append (cs ds : List Char) : size (cs ++ ds) = size cs + size ds := by
  rw [size, List.flatMap_append, List.length_append, size, size]

theorem size_le_of_starts {cs ds : List Char} (h : cs <+: ds) : size cs ≤ size ds := by
  obtain ⟨rest, rfl⟩ := h
  rw [size_append]
  omega

/-- The bytes end inside a character of the text: some of its bytes are among the first `n`, but not
all. -/
def SplitsAt (s : String) (n : Nat) : Prop :=
  ∃ front c, front ++ [c] <+: s.toList ∧ size front < n ∧ n < size (front ++ [c])

/-- The longest run of first characters of the text that have at most `n` bytes. -/
structure WholeAt (s : String) (n : Nat) (front : List Char) : Prop where
  starts : front <+: s.toList
  fits : size front ≤ n
  longest : ∀ other, other <+: s.toList → size other ≤ n → other <+: front

section Read

variable (text : String)

theorem foldl_take_tails {v n low high value t : Nat} (h : low ≤ tail v n ∧ tail v n ≤ high)
    (ht : t ≤ n) :
    ∃ p, ((tails v (n + 1)).take t).foldl step ⟨text, some ⟨n + 1, low, high, value⟩⟩ =
      ⟨text, some p⟩ := by
  induction t generalizing n low high value with
  | zero => exact ⟨_, rfl⟩
  | succ t ih =>
    obtain ⟨n, rfl⟩ : ∃ m, n = m + 1 := ⟨n - 1, by omega⟩
    rw [tails, List.take_succ_cons, List.foldl_cons, step_tail text h, continued,
      if_neg (by simp)]
    exact ih (tail_bounds v n) (by omega)

/-- Some of the bytes of a character, but not all, open it. -/
theorem foldl_take_encodeChar {c : Char} {t : Nat} (ht : 0 < t)
    (ht' : t < (String.utf8EncodeChar c).length) :
    ∃ p, ((String.utf8EncodeChar c).take t).foldl step ⟨text, none⟩ = ⟨text, some p⟩ := by
  by_cases hc : c.toNat ≤ 0x7F
  · rw [encodeChar_of_le hc, List.length_singleton] at ht'
    omega
  · obtain ⟨b, n, ⟨hb, low, high, hlead, hallow⟩, henc⟩ := encodeChar_opens (Nat.lt_of_not_le hc)
    rw [henc, List.length_cons, length_tails] at ht'
    obtain ⟨t, rfl⟩ : ∃ m, t = m + 1 := ⟨t - 1, by omega⟩
    rw [henc, List.take_succ_cons, List.foldl_cons, step, UInt8.toNat_ofNat_of_lt' hb, start, hlead]
    exact foldl_take_tails text hallow (by omega)

end Read

theorem decodeLossy_whole (front : List Char) :
    decodeLossy (front.flatMap String.utf8EncodeChar) = String.ofList front := by
  have h := decodeLossy_encode (String.ofList front)
  rwa [encode, String.toList_ofList] at h

theorem decodeLossy_split (front : List Char) {c : Char} {t : Nat} (ht : 0 < t)
    (ht' : t < (String.utf8EncodeChar c).length) :
    decodeLossy (front.flatMap String.utf8EncodeChar ++ (String.utf8EncodeChar c).take t) =
      (String.ofList front).push '\uFFFD' := by
  obtain ⟨p, hp⟩ := foldl_take_encodeChar ("" ++ String.ofList front) ht ht'
  rw [decodeLossy, List.foldl_append, foldl_encode, hp, String.empty_append]
  rfl

/-- Where `n` bytes end: after whole characters, or inside the one that follows them. -/
theorem exists_fitting (cs : List Char) (n : Nat) :
    ∃ front rest, front ++ rest = cs ∧ size front ≤ n ∧
      ∀ c ∈ rest.head?, n < size front + (String.utf8EncodeChar c).length := by
  induction cs generalizing n with
  | nil => exact ⟨[], [], rfl, Nat.zero_le n, by simp⟩
  | cons c cs ih =>
    by_cases hc : (String.utf8EncodeChar c).length ≤ n
    · obtain ⟨front, rest, rfl, hfits, hnext⟩ := ih (n - (String.utf8EncodeChar c).length)
      refine ⟨c :: front, rest, rfl, by rw [size_cons]; omega, fun d hd => ?_⟩
      have := hnext d hd
      rw [size_cons]
      omega
    · exact ⟨[], c :: cs, rfl, Nat.zero_le n, by simpa [size] using hc⟩

theorem wholeAt_of_fitting {s : String} {n : Nat} {front rest : List Char}
    (hs : front ++ rest = s.toList) (hfits : size front ≤ n)
    (hnext : ∀ c ∈ rest.head?, n < size front + (String.utf8EncodeChar c).length) :
    WholeAt s n front where
  starts := ⟨rest, hs⟩
  fits := hfits
  longest other hother hsize := by
    obtain hle | ⟨more, rfl⟩ := List.prefix_or_prefix_of_prefix hother ⟨rest, hs⟩
    · exact hle
    -- a longer run starts with the character that does not fit
    · rw [← hs, List.prefix_append_right_inj] at hother
      obtain ⟨later, rfl⟩ := hother
      cases more with
      | nil => simp
      | cons c more =>
        have := hnext c rfl
        rw [size_append, size_cons] at hsize
        omega

theorem splitsAt_iff {s : String} {n : Nat} {front rest : List Char}
    (hs : front ++ rest = s.toList) (hfits : size front ≤ n)
    (hnext : ∀ c ∈ rest.head?, n < size front + (String.utf8EncodeChar c).length) :
    SplitsAt s n ↔ size front < n ∧ rest ≠ [] := by
  constructor
  · rintro ⟨other, c, hother, hlt, hgt⟩
    have hlong : ¬ other ++ [c] <+: front := fun hle => by
      have := size_le_of_starts hle
      omega
    obtain hle | hle := List.prefix_or_prefix_of_prefix ⟨rest, hs⟩ hother
    · obtain heq | hle := List.prefix_concat_iff.1 hle
      · exact absurd (heq ▸ List.prefix_refl _) hlong
      · refine ⟨Nat.lt_of_le_of_lt (size_le_of_starts hle) hlt, ?_⟩
        rintro rfl
        rw [← hs, List.append_nil] at hother
        exact hlong hother
    · exact absurd hle hlong
  · rintro ⟨hlt, hne⟩
    obtain ⟨c, later, rfl⟩ := List.exists_cons_of_ne_nil hne
    have := hnext c rfl
    refine ⟨front, c, ⟨later, by rw [← hs, List.append_assoc]; rfl⟩, hlt, ?_⟩
    rw [size_append, size_cons]
    omega

/-- The first bytes of a text are read as its whole characters, with one replacement character after
them if another one is split. -/
theorem decodeLossy_take (s : String) (n : Nat) :
    ∃ front, WholeAt s n front ∧
      (SplitsAt s n →
        decodeLossy ((encode s).take n) = (String.ofList front).push '\uFFFD') ∧
      (¬ SplitsAt s n → decodeLossy ((encode s).take n) = String.ofList front) := by
  obtain ⟨front, rest, hs, hfits, hnext⟩ := exists_fitting s.toList n
  have htake : (encode s).take n = front.flatMap String.utf8EncodeChar ++
      (rest.flatMap String.utf8EncodeChar).take (n - size front) := by
    rw [encode, ← hs, List.flatMap_append, List.take_append,
      List.take_of_length_le (by exact hfits)]
    rfl
  rw [htake, splitsAt_iff hs hfits hnext]
  refine ⟨front, wholeAt_of_fitting hs hfits hnext, fun hsplit => ?_, fun hwhole => ?_⟩
  · obtain ⟨hlt, hne⟩ := hsplit
    obtain ⟨c, later, rfl⟩ := List.exists_cons_of_ne_nil hne
    have := hnext c rfl
    rw [List.flatMap_cons, List.take_append_of_le_length (by omega)]
    exact decodeLossy_split front (by omega) (by omega)
  · have hnone : (rest.flatMap String.utf8EncodeChar).take (n - size front) = [] := by
      rcases Nat.lt_or_ge (size front) n with hlt | hge
      · obtain rfl : rest = [] := by
          by_contra hne
          exact hwhole ⟨hlt, hne⟩
        rw [List.flatMap_nil, List.take_nil]
      · rw [Nat.sub_eq_zero_of_le hge, List.take_zero]
    rw [hnone, List.append_nil, decodeLossy_whole]

end Utf8

section

variable {b : Backend} (h : Host b) (code : Int32) (r : Resolver)

/-- Of a text that is cut silently, all whole characters reach the answer that leave a byte of the
largest buffer for the NUL, and one replacement character stands for one that is split. Any message
that is accepted can be had back from the answer exactly if it is well-formed. -/
theorem resolve_cut_text :
    (∀ s : String, '\x00' ∉ s.toList →
      (∀ j, b.CutsSilently (Utf8.encode s) (r.length j) (h.answers.replyAt code j)) →
        ∃ front, Utf8.WholeAt s (r.max.bytes - 1) front ∧
          (Utf8.SplitsAt s (r.max.bytes - 1) →
            (r.resolve code h).1.answer = .ok ((String.ofList front).push '\uFFFD')) ∧
          (¬ Utf8.SplitsAt s (r.max.bytes - 1) →
            (r.resolve code h).1.answer = .ok (String.ofList front)) ∧
          ((Utf8.encode s).length < r.max.bytes → (r.resolve code h).1.answer = .ok s)) ∧
      ∀ k m, (r.resolve code h).1.calls.length = k + 1 →
        (r.fillAt code h k = .message m ∨ r.fillAt code h k = .full m) →
          ∃ text, (r.resolve code h).1.answer = .ok text ∧
            (Utf8.encode text = m ↔ Utf8.WellFormed m) := by
  constructor
  · intro s hs hcalls
    have hanswer := answer_of_cutsSilently h code r _ hcalls
    rw [Bytes.upToNul_eq_self (Utf8.nul_not_mem_encode hs)] at hanswer
    obtain ⟨front, hwhole, hsplit, hrest⟩ := Utf8.decodeLossy_take s (r.max.bytes - 1)
    refine ⟨front, hwhole, fun h => ?_, fun h => ?_, fun hlt => ?_⟩
    · rw [hanswer, hsplit h]
    · rw [hanswer, hrest h]
    · rw [hanswer, List.take_of_length_le (by omega), Utf8.decodeLossy_encode]
  · intro k m hlen hfill
    refine ⟨Utf8.decodeLossy m, ?_, Utf8.encode_decodeLossy_iff m⟩
    rw [(Resolver.endsAt_of_length hlen).resolve_eq]
    rcases hfill with hfill | hfill
    · rw [hfill]
      rfl
    · rw [hfill]
      rfl

-- the text has three bytes, of which the host keeps two: half of the second character is left
theorem resolve_cut_text_accented :
    let r : Resolver := Resolver.sized 2 3
    let h : Host .gnu := { answers := .steady fun _ =>
      { data := some (Utf8.encode "né"), target := .start } }
    '\x00' ∉ "né".toList ∧
      (∀ j, Backend.gnu.CutsSilently (Utf8.encode "né") (r.length j) (h.answers.replyAt 7 j)) ∧
      Utf8.SplitsAt "né" 2 ∧ (r.resolve 7 h).1.answer = .ok "n\uFFFD" ∧
      (r.resolve 7 h).1.calls.length = 2 ∧ r.fillAt 7 h 1 = .full [0x6E, 0xC3] ∧
      ¬ Utf8.WellFormed [0x6E, 0xC3] := by
  intro r h
  have hnul : '\x00' ∉ "né".toList := by decide
  have hcalls : ∀ j,
      Backend.gnu.CutsSilently (Utf8.encode "né") (r.length j) (h.answers.replyAt 7 j) := by
    intro j
    rw [show h.answers = .steady _ from rfl, Answers.replyAt_steady]
    exact ⟨rfl, rfl, Or.inl rfl⟩
  have hsplits : Utf8.SplitsAt "né" 2 :=
    ⟨['n'], 'é', List.prefix_refl _, by decide, by decide⟩
  have hlen : (r.resolve 7 h).1.calls.length = 2 := by decide +kernel
  have hfull : r.fillAt 7 h 1 = .full [0x6E, 0xC3] := rfl
  obtain ⟨htext, hmessage⟩ := resolve_cut_text h 7 r
  obtain ⟨front, hwhole, hsplit, -⟩ := htext "né" hnul hcalls
  have hfront : front = ['n'] := by
    have hle := hwhole.longest ['n'] ⟨['é'], rfl⟩ (by decide)
    obtain heq | hlt := List.prefix_concat_iff.1 (show front <+: ['n'] ++ ['é'] from hwhole.starts)
    · exact absurd hwhole.fits (by rw [heq]; decide)
    · exact (hlt.eq_of_length_le hle.length_le)
  have hanswer := hsplit hsplits
  rw [hfront] at hanswer
  obtain ⟨text, hok, hiff⟩ := hmessage 1 _ hlen (Or.inr hfull)
  refine ⟨hnul, hcalls, hsplits, hanswer, hlen, hfull, fun hwf => ?_⟩
  rw [hanswer] at hok
  obtain rfl := Except.ok.inj hok
  exact absurd (hiff.2 hwf) (by decide)

end

end MessageLookup
