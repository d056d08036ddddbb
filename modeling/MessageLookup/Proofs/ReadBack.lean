import Mathlib.Data.List.TFAE
import MessageLookup.Proofs.Decoding
import MessageLookup.Proofs.Reports
import MessageLookup.Proofs.Words

/-! What can be read off the lines that reports print. A stream that takes everything gets the line
of a report as it is, and a line says all that it was made from: a message and its code, or the
error of the lookup. Nothing that a message holds can be taken for the code or for the end. -/

namespace MessageLookup

namespace Answer

variable {code code' : Int32} {mechanism mechanism' : String}

/-- The code ends at the first colon, whatever the message is. -/
theorem line_ok_inj {m m' : String} :
    line mechanism code (.ok m) = line mechanism' code' (.ok m') ↔ code = code' ∧ m = m' := by
  constructor
  · intro h
    rw [← String.toList_inj] at h
    simp only [line, String.toList_append, List.append_assoc, List.append_cancel_left_eq] at h
    have hcolon : ∀ rest, EndsWord (": ".toList ++ rest) := fun rest => endsWord_cons rfl _
    obtain ⟨hcode, hrest⟩ := word_append_inj (Decimal.isWord_code code) (Decimal.isWord_code code')
      (hcolon _) (hcolon _) h
    have hm := List.append_cancel_right (List.append_cancel_left hrest)
    exact ⟨Decimal.code_inj.1 hcode, String.toList_inj.1 hm⟩
  · rintro ⟨rfl, rfl⟩
    rfl

theorem line_error_inj {e e' : LookupError} :
    line mechanism code (.error e) = line mechanism code' (.error e') ↔ e = e' := by
  constructor
  · intro h
    rw [← String.toList_inj] at h
    simp only [line_error, String.toList_append, List.append_assoc,
      List.append_cancel_left_eq] at h
    exact LookupError.message_injective (String.toList_inj.1 (List.append_cancel_right h))
  · rintro rfl
    rw [line_error, line_error]

/-- The line of a failure, up to its line feed. -/
theorem exists_encode_line_error (hmechanism : '\n' ∉ mechanism.toList) (e : LookupError) :
    ∃ text : Bytes, (10 : UInt8) ∉ text ∧
      Utf8.encode (line mechanism code (.error e)) = text ++ [10] := by
  refine ⟨Utf8.encode (mechanism ++ " failed: " ++ e.message), ?_, ?_⟩
  · refine @Utf8.byte_not_mem_encode '\n' (by decide) _ ?_
    rw [String.toList_append, String.toList_append, List.mem_append, List.mem_append]
    rintro ((h | h) | h)
    · exact hmechanism h
    · exact absurd h (by decide)
    · exact e.newline_not_mem_message h
  · rw [line_error, Utf8.encode_append]
    rfl

end Answer

namespace Sink

/-- Whatever is written to the stream is taken, in whatever pieces. -/
structure TakesAll (s : Sink) : Prop where
  unlimited : s.limit = none
  progresses : s.chunk ≠ some 0

variable {s : Sink}

theorem eq_after_of_unlimited (h : s.limit = none) :
    s = s.after s.written.toList s.flushes s.interrupts := by
  cases s
  simp_all [after, Bytes.within]

theorem TakesAll.written_deliver (h : s.TakesAll) {parts : List String} (hne : bytesOf parts ≠ []) :
    (s.deliver parts).2.written.toList = s.written.toList ++ bytesOf parts := by
  obtain ⟨i, hdeliver⟩ := deliver_after (f := s.flushes) (i := s.interrupts) s.written.toList
    h.progresses hne
  have hfits : s.Fits (s.written.toList ++ bytesOf parts).length := by simp [Fits, h.unlimited]
  rw [← eq_after_of_unlimited h.unlimited, if_pos hfits] at hdeliver
  rw [hdeliver]
  simp [after, h.unlimited, Bytes.within]

end Sink

structure Reporting (σ : Type) where
  lookup : Lookup σ
  code : Int32
  state : σ
  streams : Streams

namespace Reporting

variable {σ σ' : Type} (r : Reporting σ)

def answer : Answer := (r.lookup.resolve r.code r.state).1.answer

def reported : Streams := (report r.lookup r.code r.streams r.state).1.streams

/-- The bytes that the report adds to a stream. -/
def added (c : Channel) : Bytes :=
  (r.reported.sink c).written.toList.drop (r.streams.sink c).written.size

theorem sink_reported :
    r.reported.sink r.answer.channel =
      ((r.streams.sink r.answer.channel).deliver
        (Answer.parts r.lookup.mechanism r.code r.answer)).2 :=
  report_sink r.lookup r.code r.streams r.state

variable {r}

/-- A stream that takes everything gets the line as it is, behind what it held. -/
theorem added_eq {a : Answer} (ha : r.answer = a)
    (hr : (r.streams.sink r.answer.channel).TakesAll) :
    r.added a.channel = Utf8.encode (Answer.line r.lookup.mechanism r.code a) := by
  subst ha
  have hbytes := Answer.bytesOf_parts r.lookup.mechanism r.code r.answer
  have hne : Sink.bytesOf (Answer.parts r.lookup.mechanism r.code r.answer) ≠ [] := by
    rw [hbytes]
    exact Answer.encode_line_ne_nil _ _ _
  rw [added, r.sink_reported, hr.written_deliver hne, hbytes]
  exact List.drop_left' Array.length_toList

theorem added_inj {r' : Reporting σ'} {a a' : Answer} (ha : r.answer = a) (ha' : r'.answer = a')
    (hr : (r.streams.sink r.answer.channel).TakesAll)
    (hr' : (r'.streams.sink r'.answer.channel).TakesAll) :
    r.added a.channel = r'.added a'.channel ↔
      Answer.line r.lookup.mechanism r.code a = Answer.line r'.lookup.mechanism r'.code a' := by
  rw [added_eq ha hr, added_eq ha' hr', Utf8.encode_injective.eq_iff]

end Reporting

/-- The line of a message says which code it is for and what the message is. The line of a failure,
its text and its record each say which error it is, and a line ends at its only line feed. -/
theorem reports_read_back {σ σ' : Type} (r : Reporting σ) (r' : Reporting σ')
    (hr : (r.streams.sink r.answer.channel).TakesAll)
    (hr' : (r'.streams.sink r'.answer.channel).TakesAll) :
    (∀ m m', r.answer = .ok m → r'.answer = .ok m' →
      (r.added .out = r'.added .out ↔ r.code = r'.code ∧ m = m')) ∧
    (∀ e e', r.answer = .error e → r'.answer = .error e' →
      r.lookup.mechanism = r'.lookup.mechanism →
      [e = e', e.message = e'.message, e.debugText = e'.debugText,
        r.added .err = r'.added .err].TFAE) ∧
    ∀ e, r.answer = .error e → '\n' ∉ r.lookup.mechanism.toList →
      (r.added .err).count 10 = 1 ∧ (r.added .err).getLast? = some 10 := by
  refine ⟨fun m m' ha ha' => ?_, fun e e' ha ha' hmechanism => ?_, fun e ha hmechanism => ?_⟩
  · exact (Reporting.added_inj ha ha' hr hr').trans Answer.line_ok_inj
  · have hlines := Reporting.added_inj ha ha' hr hr'
    rw [← hmechanism, Answer.line_error_inj] at hlines
    refine List.tfae_of_forall (e = e') _ ?_
    simp only [List.forall_mem_cons, List.not_mem_nil, IsEmpty.forall_iff, implies_true, and_true,
      true_and]
    exact ⟨LookupError.message_injective.eq_iff, LookupError.debugText_injective.eq_iff, hlines⟩
  · have hadded : r.added .err = _ := Reporting.added_eq ha hr
    obtain ⟨text, htext, hline⟩ := Answer.exists_encode_line_error hmechanism e
    rw [hadded, hline, List.count_append, List.count_eq_zero.2 htext]
    exact ⟨rfl, List.getLast?_concat⟩

/-- A report of such an answer, on streams that take three bytes at a time. -/
def Reporting.inPieces (code : Int32) (answer : Answer) : Reporting Unit where
  lookup := .fixed "strerror_r" answer
  code := code
  state := ()
  streams := { out := { chunk := some 3, interrupts := 2 }, err := { chunk := some 3 } }

-- the message of the first holds the line of the second
theorem reports_read_back_nested :
    let r := Reporting.inPieces 7 (.ok "a\nError 70: b")
    let r' := Reporting.inPieces 70 (.ok "b")
    let f := Reporting.inPieces 7 (.error (.failed 7 16))
    let f' := Reporting.inPieces 7 (.error (.bufferTooSmall 7 16))
    (∀ c, (r.streams.sink c).TakesAll) ∧ r.added .out ≠ r'.added .out ∧
      f.added .err ≠ f'.added .err ∧ (f.added .err).count 10 = 1 := by
  intro r r' f f'
  have htakes : ∀ c, (r.streams.sink c).TakesAll := by
    rintro (- | -) <;> exact ⟨rfl, by decide⟩
  have hmessages := (reports_read_back r r' (htakes _) (htakes _)).1
  obtain ⟨-, herrors, hnewline⟩ := reports_read_back f f' (htakes _) (htakes _)
  refine ⟨htakes, fun h => ?_, fun h => ?_, (hnewline _ rfl (by decide)).1⟩
  · have hcode := ((hmessages _ _ rfl rfl).1 h).1
    exact absurd hcode (by decide)
  · have herror := ((herrors _ _ rfl rfl rfl).out 3 0).1 h
    cases herror

end MessageLookup
