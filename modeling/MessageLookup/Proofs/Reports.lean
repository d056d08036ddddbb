import MessageLookup.Proofs.Delivery
import MessageLookup.Report

/-! Runs of reports on one pair of streams. A report addresses one line to one stream: a message to
the output stream, a failure to the error stream. Whatever became of the reports before, each stream
holds the first bytes of the lines addressed to it, and a report ends well exactly if its line fits
behind them and can be flushed. -/

namespace MessageLookup

theorem Utf8.encode_append (a b : String) : encode (a ++ b) = encode a ++ encode b := by
  simp [encode]

/-- One of the two streams. -/
inductive Channel where
  | out
  | err
deriving DecidableEq

def Streams.sink (streams : Streams) : Channel → Sink
  | .out => streams.out
  | .err => streams.err

namespace Answer

/-- The stream that gets the line of a report with this answer. -/
def channel : Answer → Channel
  | .ok _ => .out
  | .error _ => .err

/-- The line of a report, spelt out for every answer. -/
def line (mechanism : String) (code : Int32) : Answer → String
  | .ok message => "Error " ++ Decimal.code code ++ ": " ++ message ++ "\n"
  | .error (.unknownCode c) =>
    mechanism ++ " failed: unknown error code " ++ Decimal.code c ++ "\n"
  | .error (.bufferTooSmall c n) =>
    mechanism ++ " failed: message for error code " ++ Decimal.code c ++ " does not fit in " ++
      Decimal.natural n ++ " bytes\n"
  | .error (.failed c s) =>
    mechanism ++ " failed: lookup of error code " ++ Decimal.code c ++ " failed with status " ++
      Decimal.code s ++ "\n"

theorem line_error (mechanism : String) (code : Int32) (e : LookupError) :
    line mechanism code (.error e) = mechanism ++ " failed: " ++ e.message ++ "\n" := by
  -- the texts of a line run on where the message starts and ends
  cases e with
  | unknownCode c =>
    change mechanism ++ (" failed: " ++ "unknown error code ") ++ Decimal.code c ++ "\n" =
      mechanism ++ " failed: " ++ ("unknown error code " ++ Decimal.code c) ++ "\n"
    simp only [String.append_assoc]
  | bufferTooSmall c n =>
    change mechanism ++ (" failed: " ++ "message for error code ") ++ Decimal.code c ++
        " does not fit in " ++ Decimal.natural n ++ (" bytes" ++ "\n") =
      mechanism ++ " failed: " ++ ("message for error code " ++ Decimal.code c ++
        " does not fit in " ++ Decimal.natural n ++ " bytes") ++ "\n"
    simp only [String.append_assoc]
  | failed c s =>
    change mechanism ++ (" failed: " ++ "lookup of error code ") ++ Decimal.code c ++
        " failed with status " ++ Decimal.code s ++ "\n" =
      mechanism ++ " failed: " ++ ("lookup of error code " ++ Decimal.code c ++
        " failed with status " ++ Decimal.code s) ++ "\n"
    simp only [String.append_assoc]

/-- What a report with this answer ends with, if its line was written and flushed. -/
def outcome : Answer → Outcome
  | .ok message => .described message
  | .error e => .failed e

/-- The line in the parts that are written one after the other. -/
def parts (mechanism : String) (code : Int32) : Answer → List String
  | .ok message => messageLine code message
  | .error e => failureLine mechanism e

theorem bytesOf_parts (mechanism : String) (code : Int32) (a : Answer) :
    Sink.bytesOf (parts mechanism code a) = Utf8.encode (line mechanism code a) := by
  cases a with
  | ok m => simp [parts, line, messageLine, Sink.bytesOf, Utf8.encode_append]
  | error e => simp [parts, line_error, failureLine, Sink.bytesOf, Utf8.encode_append]

theorem encode_line_ne_nil (mechanism : String) (code : Int32) (a : Answer) :
    Utf8.encode (line mechanism code a) ≠ [] := by
  have hnewline : Utf8.encode "\n" = [10] := rfl
  cases a with
  | ok m => simp [line, Utf8.encode_append, hnewline]
  | error e => simp [line_error, Utf8.encode_append, hnewline]

end Answer

section

variable {σ : Type} (lookup : Lookup σ) (code : Int32) (streams : Streams) (s : σ)

theorem report_outcome :
    (report lookup code streams s).1.outcome =
      .unless ((streams.sink (lookup.resolve code s).1.answer.channel).deliver
          ((lookup.resolve code s).1.answer.parts lookup.mechanism code)).1
        (lookup.resolve code s).1.answer.outcome := by
  cases ha : (lookup.resolve code s).1.answer with
  | ok m =>
    rw [report_of_ok ha]
    rfl
  | error e =>
    rw [report_of_error ha]
    rfl

theorem report_sink :
    (report lookup code streams s).1.streams.sink (lookup.resolve code s).1.answer.channel =
      ((streams.sink (lookup.resolve code s).1.answer.channel).deliver
        ((lookup.resolve code s).1.answer.parts lookup.mechanism code)).2 := by
  cases ha : (lookup.resolve code s).1.answer with
  | ok m =>
    rw [report_of_ok ha]
    rfl
  | error e =>
    rw [report_of_error ha]
    rfl

/-- A report leaves the other stream. -/
theorem report_sink_of_ne {c : Channel} (hc : c ≠ (lookup.resolve code s).1.answer.channel) :
    (report lookup code streams s).1.streams.sink c = streams.sink c := by
  cases ha : (lookup.resolve code s).1.answer with
  | ok m =>
    rw [report_of_ok ha]
    cases c with
    | out => exact absurd (by rw [ha]; rfl) hc
    | err => rfl
  | error e =>
    rw [report_of_error ha]
    cases c with
    | out => rfl
    | err => exact absurd (by rw [ha]; rfl) hc

end

/-- A run of reports on one pair of streams. Report `j` asks its own lookup for its own code; the
lookups work on one state after the other. -/
structure ReportRun (σ : Type) where
  streams : Streams
  state : σ
  lookup : Nat → Lookup σ
  code : Nat → Int32

namespace ReportRun

variable {σ : Type} (run : ReportRun σ)

/-- The streams and the state before report `j`. -/
def before : Nat → Streams × σ
  | 0 => (run.streams, run.state)
  | j + 1 =>
    let done := report (run.lookup j) (run.code j) (before j).1 (before j).2
    (done.1.streams, done.2)

def reported (j : Nat) : Report :=
  (report (run.lookup j) (run.code j) (run.before j).1 (run.before j).2).1

/-- What the lookup of report `j` answers. -/
def answer (j : Nat) : Answer := ((run.lookup j).resolve (run.code j) (run.before j).2).1.answer

def line (j : Nat) : String := Answer.line (run.lookup j).mechanism (run.code j) (run.answer j)

def parts (j : Nat) : List String :=
  (run.answer j).parts (run.lookup j).mechanism (run.code j)

theorem outcome_reported (j : Nat) :
    (run.reported j).outcome =
      .unless (((run.before j).1.sink (run.answer j).channel).deliver (run.parts j)).1
        (run.answer j).outcome :=
  report_outcome (run.lookup j) (run.code j) (run.before j).1 (run.before j).2

theorem sink_succ (j : Nat) :
    (run.before (j + 1)).1.sink (run.answer j).channel =
      (((run.before j).1.sink (run.answer j).channel).deliver (run.parts j)).2 :=
  report_sink (run.lookup j) (run.code j) (run.before j).1 (run.before j).2

theorem sink_succ_of_ne {c : Channel} {j : Nat} (h : (run.answer j).channel ≠ c) :
    (run.before (j + 1)).1.sink c = (run.before j).1.sink c :=
  report_sink_of_ne (run.lookup j) (run.code j) (run.before j).1 (run.before j).2 h.symm

/-- The reports before report `j` that address a stream. -/
def addressing (c : Channel) (j : Nat) : List Nat :=
  (List.range j).filter fun l => (run.answer l).channel = c

/-- The lines addressed to a stream before report `j`. -/
def sentTo (c : Channel) (j : Nat) : Bytes :=
  (run.addressing c j).flatMap fun l => Utf8.encode (run.line l)

/-- The reports before report `j` whose line the stream held whole. -/
def completed (c : Channel) (j : Nat) : List Nat :=
  (run.addressing c j).filter fun l => (run.streams.sink c).Fits (run.sentTo c (l + 1)).length

section Succ

variable {c : Channel} {j : Nat}

theorem addressing_succ :
    run.addressing c (j + 1) =
      if (run.answer j).channel = c then run.addressing c j ++ [j] else run.addressing c j := by
  rw [addressing, List.range_succ, List.filter_append]
  split <;> simp_all [addressing]

theorem sentTo_succ_of_eq (h : (run.answer j).channel = c) :
    run.sentTo c (j + 1) = run.sentTo c j ++ Utf8.encode (run.line j) := by
  rw [sentTo, addressing_succ, if_pos h]
  simp [sentTo]

theorem sentTo_succ_of_ne (h : (run.answer j).channel ≠ c) :
    run.sentTo c (j + 1) = run.sentTo c j := by
  rw [sentTo, addressing_succ, if_neg h, sentTo]

theorem completed_succ_of_fits (h : (run.answer j).channel = c)
    (hfits : (run.streams.sink c).Fits (run.sentTo c (j + 1)).length) :
    run.completed c (j + 1) = run.completed c j ++ [j] := by
  rw [completed, addressing_succ, if_pos h, List.filter_append]
  simp [completed, hfits]

theorem completed_succ_of_not_fits (h : (run.answer j).channel = c)
    (hcut : ¬ (run.streams.sink c).Fits (run.sentTo c (j + 1)).length) :
    run.completed c (j + 1) = run.completed c j := by
  rw [completed, addressing_succ, if_pos h, List.filter_append]
  simp [completed, hcut]

theorem completed_succ_of_ne (h : (run.answer j).channel ≠ c) :
    run.completed c (j + 1) = run.completed c j := by
  rw [completed, addressing_succ, if_neg h, completed]

end Succ

end ReportRun

/-- Nothing was written to the stream and it was not flushed. -/
def Sink.IsFresh (s : Sink) : Prop := s.written = #[] ∧ s.flushes = 0

theorem Sink.IsFresh.eq_after {s : Sink} (h : s.IsFresh) : s = s.after [] 0 s.interrupts := by
  have hnil : Bytes.within s.limit [] = [] := by cases s.limit <;> simp [Bytes.within]
  obtain ⟨hwritten, hflushes⟩ := h
  cases s
  simp_all [after]

section

variable {σ : Type} (run : ReportRun σ)

/-- Both streams can be read off the lines addressed to them, whatever was refused before. -/
def ReportRun.Tracked (j : Nat) : Prop :=
  ∀ c, ∃ i, (run.before j).1.sink c =
    (run.streams.sink c).after (run.sentTo c j) (run.completed c j).length i

variable {run}

/-- A report extends its own stream by its line, and ends as that stream lets it. -/
theorem ReportRun.Tracked.report (hchunk : ∀ c, (run.streams.sink c).chunk ≠ some 0) {j : Nat}
    (h : run.Tracked j) {c : Channel} (hc : (run.answer j).channel = c) :
    (run.reported j).outcome = .unless
        (if (run.streams.sink c).Fits (run.sentTo c (j + 1)).length then
          (run.streams.sink c).flushFailure.map .notFlushed
        else some (run.streams.sink c).fullFailure) (run.answer j).outcome ∧
      ∃ i, (run.before (j + 1)).1.sink c =
        (run.streams.sink c).after (run.sentTo c (j + 1)) (run.completed c (j + 1)).length i := by
  have hbytes : Sink.bytesOf (run.parts j) = Utf8.encode (run.line j) := Answer.bytesOf_parts _ _ _
  have hne : Sink.bytesOf (run.parts j) ≠ [] := by
    rw [hbytes]
    exact Answer.encode_line_ne_nil _ _ _
  have hsent : run.sentTo c (j + 1) = run.sentTo c j ++ Sink.bytesOf (run.parts j) := by
    rw [run.sentTo_succ_of_eq hc, hbytes]
  obtain ⟨i, hi⟩ := h c
  obtain ⟨i', hdeliver⟩ := Sink.deliver_after (f := (run.completed c j).length) (i := i)
    (run.sentTo c j) (hchunk c) hne
  rw [← hsent, ← hi] at hdeliver
  subst hc
  rw [run.outcome_reported, run.sink_succ, hdeliver]
  split
  · rename_i hfits
    refine ⟨rfl, i', ?_⟩
    rw [run.completed_succ_of_fits rfl hfits, List.length_append, List.length_singleton]
  · rename_i hcut
    refine ⟨rfl, i', ?_⟩
    rw [run.completed_succ_of_not_fits rfl hcut]

theorem ReportRun.Tracked.succ (hchunk : ∀ c, (run.streams.sink c).chunk ≠ some 0) {j : Nat}
    (h : run.Tracked j) : run.Tracked (j + 1) := by
  intro c
  by_cases hc : (run.answer j).channel = c
  · exact (h.report hchunk hc).2
  · rw [run.sink_succ_of_ne hc, run.sentTo_succ_of_ne hc, run.completed_succ_of_ne hc]
    exact h c

theorem ReportRun.tracked (hfresh : ∀ c, (run.streams.sink c).IsFresh)
    (hchunk : ∀ c, (run.streams.sink c).chunk ≠ some 0) (j : Nat) : run.Tracked j := by
  induction j with
  | zero => exact fun c => ⟨_, (hfresh c).eq_after⟩
  | succ j ih => exact ih.succ hchunk

theorem Outcome.unless_eq_iff {failure : Option WriteFailure} {a : Answer} :
    Outcome.unless failure a.outcome = a.outcome ↔ failure = none := by
  cases failure <;> cases a <;> simp [Outcome.unless, Answer.outcome]

/-- However the writes are split, interrupted and refused, each stream holds the first bytes of the
lines addressed to it and was flushed after those that it holds whole. A report ends with its answer
exactly if its line is one of these and the flush did not fail. -/
theorem reports_routed (run : ReportRun σ) (hfresh : ∀ c, (run.streams.sink c).IsFresh)
    (hchunk : ∀ c, (run.streams.sink c).chunk ≠ some 0) (n : Nat) :
    (∀ c, ((run.before n).1.sink c).written.toList =
        (run.sentTo c n).within (run.streams.sink c).limit ∧
      ((run.before n).1.sink c).flushes = (run.completed c n).length) ∧
    ∀ c, (run.answer n).channel = c →
      let sink := run.streams.sink c
      let length := (run.sentTo c (n + 1)).length
      ((run.reported n).outcome = (run.answer n).outcome ↔
        sink.Fits length ∧ sink.flushFailure = none) ∧
      (¬ sink.Fits length → (run.reported n).outcome = .unwritten sink.fullFailure) ∧
      (sink.Fits length → ∀ reason, sink.flushFailure = some reason →
        (run.reported n).outcome = .unwritten (.notFlushed reason)) := by
  have htracked := ReportRun.tracked hfresh hchunk n
  refine ⟨fun c => ?_, fun c hc => ?_⟩
  · obtain ⟨i, hi⟩ := htracked c
    rw [hi]
    exact ⟨rfl, rfl⟩
  · intro sink length
    rw [(htracked.report hchunk hc).1]
    refine ⟨?_, fun hcut => ?_, fun hfits reason hreason => ?_⟩
    · rw [Outcome.unless_eq_iff]
      by_cases hfits : sink.Fits length
      · rw [if_pos hfits, Option.map_eq_none_iff]
        exact (and_iff_right hfits).symm
      · rw [if_neg hfits]
        simp [hfits]
    · rw [if_neg hcut]
      rfl
    · rw [if_pos hfits, hreason]
      rfl

/-- Every other report is of a failure. The output stream holds 20 bytes; the error stream holds 45,
takes nothing after them and cannot be flushed. -/
def ReportRun.alternating : ReportRun Unit where
  streams :=
    { out := { limit := some 20, chunk := some 7, interrupts := 3 }
      err := { limit := some 45, chunk := some 9, whenFull := .takesNothing,
               flushFailure := some "no device" } }
  state := ()
  lookup := fun j => .fixed "strerror_r" (if j % 2 = 0 then .ok "abc" else .error (.unknownCode 7))
  code := fun _ => 7

-- a message has a line of 13 bytes and a failure one of 40, so each stream has room for one of two
theorem reports_routed_alternating :
    let run := ReportRun.alternating
    (∀ c, (run.streams.sink c).IsFresh) ∧ (∀ c, (run.streams.sink c).chunk ≠ some 0) ∧
      (run.reported 0).outcome = .described "abc" ∧
      (run.reported 1).outcome = .unwritten (.notFlushed "no device") ∧
      (run.reported 2).outcome = .unwritten (.refused "stream full") ∧
      (run.reported 3).outcome = .unwritten .tookNothing ∧
      (((run.before 4).1.sink .out).written.toList = Utf8.encode "Error 7: abc\nError 7" ∧
        ((run.before 4).1.sink .out).flushes = 1) ∧
      ((run.before 4).1.sink .err).written.toList =
          Utf8.encode "strerror_r failed: unknown error code 7\nstrer" ∧
        ((run.before 4).1.sink .err).flushes = 1 := by
  intro run
  have hfresh : ∀ c, (run.streams.sink c).IsFresh := by rintro (- | -) <;> exact ⟨rfl, rfl⟩
  have hchunk : ∀ c, (run.streams.sink c).chunk ≠ some 0 := by rintro (- | -) <;> decide
  have h0 := (reports_routed run hfresh hchunk 0).2 .out rfl
  have h1 := (reports_routed run hfresh hchunk 1).2 .err rfl
  have h2 := (reports_routed run hfresh hchunk 2).2 .out rfl
  have h3 := (reports_routed run hfresh hchunk 3).2 .err rfl
  have hout := (reports_routed run hfresh hchunk 4).1 .out
  have herr := (reports_routed run hfresh hchunk 4).1 .err
  refine ⟨hfresh, hchunk, h0.1.2 ⟨by decide, rfl⟩, h1.2.2 (by decide) _ rfl, h2.2.1 (by decide),
    h3.2.1 (by decide), ⟨hout.1.trans ?_, hout.2.trans ?_⟩, herr.1.trans ?_, herr.2.trans ?_⟩
  · decide
  · decide
  · decide
  · decide

end

end MessageLookup
